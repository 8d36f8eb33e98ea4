import Mathlib.Data.Nat.Digits.Lemmas
import LanChat.Json.Value

/-!
# Printing JSON

`vendor::json::serialize`. Only the quote, the backslash and three control
characters are escaped; every other byte of a string is printed as it is.
-/

namespace LanChat.Json

open Lib

namespace Ascii

abbrev tab : UInt8 := 9
abbrev newline : UInt8 := 10
abbrev carriage : UInt8 := 13
abbrev space : UInt8 := 32
abbrev dquote : UInt8 := 34
abbrev comma : UInt8 := 44
abbrev minus : UInt8 := 45
abbrev dot : UInt8 := 46
abbrev zero : UInt8 := 48
abbrev colon : UInt8 := 58
abbrev lbracket : UInt8 := 91
abbrev backslash : UInt8 := 92
abbrev rbracket : UInt8 := 93
abbrev lbrace : UInt8 := 123
abbrev rbrace : UInt8 := 125

end Ascii

open Ascii

/-- The decimal digits of a natural number, `0` for zero. -/
def decimal (n : Nat) : Bytes :=
  if n = 0 then [zero] else (Nat.digits 10 n).reverse.map fun d => UInt8.ofNat (48 + d)

/-- `std::to_string(int64_t)`. -/
def intText (i : Int64) : Bytes :=
  if i.toInt < 0 then minus :: decimal i.toInt.natAbs else decimal i.toInt.natAbs

/-- The six digits of `n % 10 ^ 6`, leading zeros included. -/
def sixDigits (n : Nat) : Bytes :=
  [100000, 10000, 1000, 100, 10, 1].map fun w => UInt8.ofNat (48 + n / w % 10)

/-- `std::to_string(double)`. -/
def doubleText (d : Double) : Bytes :=
  (if d.neg then [minus] else []) ++ decimal (d.micros / 10 ^ 6) ++ dot :: sixDigits d.micros

/-- One character in `serialize_string`. -/
def escape (c : UInt8) : Bytes :=
  if c = dquote then lit "\\\""
  else if c = backslash then lit "\\\\"
  else if c = newline then lit "\\n"
  else if c = carriage then lit "\\r"
  else if c = tab then lit "\\t"
  else [c]

/-- `serialize_string`. -/
def serializeString (s : Bytes) : Bytes := dquote :: s.flatMap escape ++ [dquote]

mutual

/-- `vendor::json::serialize`. -/
def Value.serialize : Value → Bytes
  | .null => lit "null"
  | .bool true => lit "true"
  | .bool false => lit "false"
  | .int i => intText i
  | .float d => doubleText d
  | .str s => serializeString s
  | .arr a => lbracket :: serializeElements a
  | .obj o => lbrace :: serializeMembers o

/-- The elements of an array with the closing bracket. -/
def serializeElements : List Value → Bytes
  | [] => [rbracket]
  | [v] => v.serialize ++ [rbracket]
  | v :: w :: rest => v.serialize ++ comma :: serializeElements (w :: rest)

/-- The members of an object with the closing brace. -/
def serializeMembers : List (Bytes × Value) → Bytes
  | [] => [rbrace]
  | [(k, v)] => serializeString k ++ colon :: v.serialize ++ [rbrace]
  | (k, v) :: m :: rest =>
    serializeString k ++ colon :: v.serialize ++ comma :: serializeMembers (m :: rest)

end

/-- `protocol_json::serialize`. -/
def serialize (obj : Object) : Bytes := (Value.obj obj).serialize

example : serialize (object [("type", .int 5), ("a", .arr [.bool true, .str [92]])]) =
    lit "\x7b\"a\":[true,\"\\\\\"],\"type\":5\x7d" := by decide

end LanChat.Json
