import Mathlib.Data.List.Induction
import LanChat.Lib.OrderedMap
import LanChat.Json.Double

/-!
# JSON values

`vendor::json::Value`, with strings as byte strings. An object is a
`std::map<std::string, Value>`, so its keys are in byte order.
-/

namespace LanChat

open Lib

/-- `std::string` and `std::vector<std::uint8_t>`. -/
abbrev Bytes := List UInt8

/-- A string literal of the source. -/
def lit (s : String) : Bytes := s.toUTF8.data.toList

@[simp] theorem lit_inj {s t : String} : lit s = lit t ↔ s = t := by
  constructor
  · intro h
    have hdata : s.toUTF8 = t.toUTF8 := ByteArray.ext (Array.toList_inj.mp h)
    exact String.toByteArray_inj.mp hdata
  · rintro rfl
    rfl

namespace Json

/-- `vendor::json::Value`. -/
inductive Value where
  | null
  | bool (b : Bool)
  | int (i : Int64)
  | float (d : Double)
  | str (s : Bytes)
  | arr (a : List Value)
  | obj (o : List (Bytes × Value))

/-- `vendor::json::Object`. -/
abbrev Object := OrdMap Bytes Value

namespace Value

def isNumber : Value → Bool
  | int _ => true
  | float _ => true
  | _ => false

/-- `as_int()` reads the field `i`, which only an `Int` value sets. -/
def asInt : Value → Int64
  | int i => i
  | _ => 0

/-- `as_string()` reads the field `s`, which only a `String` value sets. -/
def asString : Value → Bytes
  | str s => s
  | _ => []

end Value

/-- The object that the assignments `obj[key] = value` build, in order. -/
def object (fields : List (String × Value)) : Object :=
  fields.foldl (fun obj field => OrdMap.put obj (lit field.1) field.2) []

/-- `Value(const char*)`. -/
def text (s : String) : Value := .str (lit s)

/-- `Value(int)`: the `int` is widened to `int64_t`. -/
def ofInt32 (n : Int32) : Value := .int n.toInt64

@[simp] theorem asInt_int (i : Int64) : (Value.int i).asInt = i := rfl

@[simp] theorem asInt_ofInt32 (n : Int32) : (ofInt32 n).asInt = n.toInt64 := rfl

@[simp] theorem asString_str (s : Bytes) : (Value.str s).asString = s := rfl

/-- The later assignment to a key is the one that stays. -/
theorem find?_object_concat (fields : List (String × Value)) (key : String) (v : Value)
    (k : Bytes) :
    OrdMap.find? (object (fields ++ [(key, v)])) k =
      if k = lit key then some v else OrdMap.find? (object fields) k := by
  simp [object, List.foldl_append]

/-- A field of an object is the last assignment to its key. -/
theorem find?_object (fields : List (String × Value)) (k : Bytes) :
    OrdMap.find? (object fields) k =
      (fields.reverse.find? fun field => lit field.1 = k).map (·.2) := by
  induction fields using List.reverseRecOn with
  | nil => rfl
  | append_singleton fields field ih =>
    rw [find?_object_concat, List.reverse_concat, List.find?_cons]
    by_cases h : lit field.1 = k
    · simp [h]
    · simp [h, ih, Ne.symm h]

end Json

end LanChat
