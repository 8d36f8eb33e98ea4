import LanChat.Json.Serialize

/-!
# Reading JSON

`vendor::json::detail::Parser`, a recursive descent over the text with one
character of lookahead. The parser keeps an index into the text; here that is
a `Cursor`, the rest of the text from the index on. A `std::string` has a null
character at the index `size()`, so reading there is defined and puts the
index behind it; a read after that would be out of bounds.

The recursion of the source is on the text. Here it is on a fuel that `parse`
makes large enough, and each value inside another one takes a level of the stack.
Nothing in the source counts the levels: a text that is nested deeper than the
stack has room for ends the process.
-/

namespace LanChat.Json

open Lib Ascii

/-- Why the parser throws. The last three are no exceptions of the source: a read
behind the terminator, the end of the stack, and the end of the fuel. -/
inductive Fault where
  | trailingContent
  | unexpectedCharacter
  | expected
  | unterminatedString
  | badNumber
  | expectedInArray
  | expectedColon
  | expectedInObject
  | outOfBounds
  | stackOverflow
  | outOfFuel
deriving DecidableEq, Repr

/-- The position of the parser: at a rest of the text, or behind the terminator. -/
inductive Cursor where
  | at (rest : Bytes)
  | beyond
deriving DecidableEq, Repr

def isDigit (c : UInt8) : Bool := zero ≤ c && c ≤ 57

def isSpace (c : UInt8) : Bool := c = space || c = tab || c = newline || c = carriage

def peek : Cursor → UInt8
  | .at (c :: _) => c
  | _ => 0

def next : Cursor → Except Fault (UInt8 × Cursor)
  | .at (c :: rest) => .ok (c, .at rest)
  | .at [] => .ok (0, .beyond)
  | .beyond => .error .outOfBounds

/-- `skip_ws`. -/
def skipSpace : Cursor → Cursor
  | .at rest => .at (rest.dropWhile isSpace)
  | .beyond => .beyond

def parseLiteral (expected : Bytes) (result : Value) (cur : Cursor) :
    Except Fault (Value × Cursor) :=
  match expected with
  | [] => .ok (result, cur)
  | p :: ps => do
    let (c, cur) ← next cur
    if c = p then parseLiteral ps result cur else .error .expected

/-- What the character after a backslash stands for. -/
def unescape (esc : UInt8) : UInt8 :=
  if esc = 110 then newline
  else if esc = 116 then tab
  else if esc = 114 then carriage
  else esc

/-- The loop of `parse_string`: the rest of the string and the text behind its
closing quote. -/
def stringLoop : Bytes → Except Fault (Bytes × Bytes)
  | [] => .error .unterminatedString
  | c :: rest =>
    if c = dquote then .ok ([], rest)
    else if c = backslash then
      match rest with
      -- `next` reads the terminator, and the loop ends behind it
      | [] => .error .unterminatedString
      | esc :: rest => (stringLoop rest).map fun (s, rest) => (unescape esc :: s, rest)
    else (stringLoop rest).map fun (s, rest) => (c :: s, rest)

/-- `parse_string`. The first character is skipped, whatever it is. -/
def parseString (cur : Cursor) : Except Fault (Bytes × Cursor) := do
  let (_, cur) ← next cur
  match cur with
  | .beyond => .error .unterminatedString
  | .at rest => (stringLoop rest).map fun (s, rest) => (s, .at rest)

/-- The value of a string of digits. -/
def natOf (digits : Bytes) : Nat := digits.foldl (fun n c => 10 * n + (c.toNat - 48)) 0

/-- `std::stoll` on an optional minus sign and digits. -/
def stoll (neg : Bool) (digits : Bytes) : Except Fault Int64 :=
  let n : Int := if neg then -natOf digits else natOf digits
  if digits = [] then .error .badNumber
  else if -2 ^ 63 ≤ n ∧ n < 2 ^ 63 then .ok (Int64.ofInt n)
  else .error .badNumber

def parseNumber (cur : Cursor) : Except Fault (Value × Cursor) :=
  match cur with
  | .beyond => .error .outOfBounds
  | .at text =>
    let neg := text.head? = some minus
    let text := if neg then text.tail else text
    let whole := text.takeWhile isDigit
    let rest := text.dropWhile isDigit
    if rest.head? = some dot then
      let fraction := rest.tail.takeWhile isDigit
      if whole = [] ∧ fraction = [] then .error .badNumber
      else
        match stod neg (natOf (whole ++ fraction)) fraction.length with
        | none => .error .badNumber
        | some d => .ok (.float d, .at (rest.tail.dropWhile isDigit))
    else (stoll neg whole).map fun i => (.int i, .at rest)

mutual

/-- `stack` is the number of calls of `parse_value` that the stack has room for. -/
def parseValue (stack fuel : Nat) (cur : Cursor) : Except Fault (Value × Cursor) :=
  match fuel with
  | 0 => .error .outOfFuel
  | fuel + 1 =>
    match stack with
    | 0 => .error .stackOverflow
    | stack + 1 =>
      let c := peek cur
      if c = 110 then parseLiteral (lit "null") .null cur
      else if c = 116 then parseLiteral (lit "true") (.bool true) cur
      else if c = 102 then parseLiteral (lit "false") (.bool false) cur
      else if c = dquote then (parseString cur).map fun (s, cur) => (.str s, cur)
      else if c = minus || isDigit c then parseNumber cur
      else if c = lbracket then do
        let (_, cur) ← next cur
        let cur := skipSpace cur
        if peek cur = rbracket then do
          let (_, cur) ← next cur
          .ok (.arr [], cur)
        else parseElements stack fuel [] cur
      else if c = lbrace then do
        let (_, cur) ← next cur
        let cur := skipSpace cur
        if peek cur = rbrace then do
          let (_, cur) ← next cur
          .ok (.obj [], cur)
        else parseMembers stack fuel [] cur
      else .error .unexpectedCharacter

/-- The loop of `parse_array`. -/
def parseElements (stack fuel : Nat) (arr : List Value) (cur : Cursor) :
    Except Fault (Value × Cursor) :=
  match fuel with
  | 0 => .error .outOfFuel
  | fuel + 1 => do
    let (v, cur) ← parseValue stack fuel cur
    let (c, cur) ← next (skipSpace cur)
    if c = rbracket then .ok (.arr (arr ++ [v]), cur)
    else if c ≠ comma then .error .expectedInArray
    else parseElements stack fuel (arr ++ [v]) (skipSpace cur)

/-- The loop of `parse_object`. -/
def parseMembers (stack fuel : Nat) (obj : Object) (cur : Cursor) :
    Except Fault (Value × Cursor) :=
  match fuel with
  | 0 => .error .outOfFuel
  | fuel + 1 => do
    let (key, cur) ← parseString (skipSpace cur)
    let (c, cur) ← next (skipSpace cur)
    if c ≠ colon then .error .expectedColon
    else do
      let (v, cur) ← parseValue stack fuel (skipSpace cur)
      let (c, cur) ← next (skipSpace cur)
      if c = rbrace then .ok (.obj (obj.put key v), cur)
      else if c ≠ comma then .error .expectedInObject
      else parseMembers stack fuel (obj.put key v) cur

end

/-- What `parseValue` is, by the first character. -/
inductive ByFirst (stack fuel : Nat) (cur : Cursor) : Except Fault (Value × Cursor) → Prop where
  | null (h : peek cur = 110) : ByFirst stack fuel cur (parseLiteral (lit "null") .null cur)
  | true (h : peek cur = 116) : ByFirst stack fuel cur (parseLiteral (lit "true") (.bool true) cur)
  | false (h : peek cur = 102) : ByFirst stack fuel cur (parseLiteral (lit "false") (.bool false) cur)
  | string (h : peek cur = dquote) :
    ByFirst stack fuel cur ((parseString cur).map fun (s, cur) => (.str s, cur))
  | number (h : peek cur = minus ∨ isDigit (peek cur) = Bool.true) :
    ByFirst stack fuel cur (parseNumber cur)
  | array (h : peek cur = lbracket) :
    ByFirst stack fuel cur (do
      let (_, cur) ← next cur
      if peek (skipSpace cur) = rbracket then do
        let (_, cur) ← next (skipSpace cur)
        .ok (.arr [], cur)
      else parseElements stack fuel [] (skipSpace cur))
  | object (h : peek cur = lbrace) :
    ByFirst stack fuel cur (do
      let (_, cur) ← next cur
      if peek (skipSpace cur) = rbrace then do
        let (_, cur) ← next (skipSpace cur)
        .ok (.obj [], cur)
      else parseMembers stack fuel [] (skipSpace cur))
  | unexpected : ByFirst stack fuel cur (.error .unexpectedCharacter)

theorem parseValue_byFirst (stack fuel : Nat) (cur : Cursor) :
    ByFirst stack fuel cur (parseValue (stack + 1) (fuel + 1) cur) := by
  have hite : ∀ {b : Prop} [Decidable b] {r r' : Except Fault (Value × Cursor)},
      (b → ByFirst stack fuel cur r) → ByFirst stack fuel cur r' →
        ByFirst stack fuel cur (if b then r else r') := by
    intro b _ r r' hr hr'
    split
    · exact hr ‹b›
    · exact hr'
  rw [parseValue]
  exact hite .null <| hite .true <| hite .false <| hite .string <|
    hite (fun h => .number (by simpa using h)) <| hite .array <| hite .object .unexpected

/-- `vendor::json::parse`. -/
def parse (stack : Nat) (src : Bytes) : Except Fault Value := do
  let (v, cur) ← parseValue stack (2 * src.length + 2) (skipSpace (.at src))
  match skipSpace cur with
  | .at [] => .ok v
  | _ => .error .trailingContent

/-- `protocol_json::parseObject`; `none` is `ok == false`, if the stack suffices. -/
def parseObject (stack : Nat) (json : Bytes) : Option Object :=
  match parse stack json with
  | .ok (.obj o) => some o
  | _ => none

/-- The text ends the process: no exception is thrown, and nothing catches what happens. -/
def overflows (stack : Nat) (json : Bytes) : Bool :=
  match parse stack json with
  | .error .stackOverflow => true
  | _ => false

/-- `parse` on a stack that has room for every text of this length. -/
def read (src : Bytes) : Except Fault Value := parse (src.length + 1) src

/-- `parseObject` on such a stack. -/
def readObject (json : Bytes) : Option Object := parseObject (json.length + 1) json

theorem parseObject_eq_some {stack : Nat} {json : Bytes} {o : Object} :
    parseObject stack json = some o ↔ parse stack json = .ok (.obj o) := by
  unfold parseObject
  constructor
  · intro h
    split at h
    · next hparse =>
      cases h
      exact hparse
    · cases h
  · intro h
    rw [h]

example : (readObject (lit "\x7b\"type\" : 20, \"a\":[1,-2]\x7d")).map serialize =
    some (lit "\x7b\"a\":[1,-2],\"type\":20\x7d") := by decide +kernel

end LanChat.Json
