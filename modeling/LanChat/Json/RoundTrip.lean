import Mathlib.Data.List.Forall2
import LanChat.Json.Parse

/-!
# What is printed is read back

`parse_serialize`: the parser returns a value without doubles, whose objects
have their keys in order, from the text that `serialize` makes of it, unless the
value is nested deeper than the stack has room for.
-/

namespace LanChat.Json

open Lib Ascii

/-! ## Numbers -/

theorem digit_toNat {d : Nat} (h : d < 10) : (UInt8.ofNat (48 + d)).toNat - 48 = d := by
  rw [UInt8.toNat_ofNat']
  omega

theorem isDigit_ofNat {d : Nat} (h : d < 10) : isDigit (UInt8.ofNat (48 + d)) = true := by
  interval_cases d <;> decide

theorem isDigit_of_mem_decimal {n : Nat} {c : UInt8} (h : c ∈ decimal n) : isDigit c = true := by
  unfold decimal at h
  split at h
  · cases List.mem_singleton.mp h
    decide
  · obtain ⟨d, hd, rfl⟩ := List.mem_map.mp h
    exact isDigit_ofNat (Nat.digits_lt_base (by decide) (List.mem_reverse.mp hd))

theorem decimal_ne_nil (n : Nat) : decimal n ≠ [] := by
  unfold decimal
  split
  · simp
  · next h => simpa [Nat.digits_eq_nil_iff_eq_zero] using h

theorem natOf_digits (ds : List Nat) (h : ∀ d ∈ ds, d < 10) :
    natOf (ds.reverse.map fun d => UInt8.ofNat (48 + d)) = Nat.ofDigits 10 ds := by
  rw [natOf, List.foldl_map, List.foldl_reverse]
  induction ds with
  | nil => rfl
  | cons d ds ih =>
    rw [List.foldr_cons, ih fun d hd => h d (List.mem_cons_of_mem _ hd),
      digit_toNat (h d List.mem_cons_self), Nat.ofDigits_cons]
    simp [Nat.add_comm]

theorem natOf_decimal (n : Nat) : natOf (decimal n) = n := by
  unfold decimal
  split
  · next h => subst h; decide
  · rw [natOf_digits _ fun d hd => Nat.digits_lt_base (by decide) hd, Nat.ofDigits_digits]

/-- The text cannot go on with a number. -/
def Stops (rest : Bytes) : Prop := ∀ c, rest.head? = some c → isDigit c = false ∧ c ≠ dot

theorem stops_nil : Stops [] := nofun

theorem stops_cons {c : UInt8} (rest : Bytes) (h : isDigit c = false) (hdot : c ≠ dot) :
    Stops (c :: rest) := by
  intro d hd
  cases hd
  exact ⟨h, hdot⟩

theorem Stops.takeWhile {rest : Bytes} (h : Stops rest) : rest.takeWhile isDigit = [] := by
  cases rest with
  | nil => rfl
  | cons c rest => simp [(h c rfl).1]

theorem Stops.dropWhile {rest : Bytes} (h : Stops rest) : rest.dropWhile isDigit = rest := by
  cases rest with
  | nil => rfl
  | cons c rest => simp [(h c rfl).1]

theorem span_decimal (n : Nat) {rest : Bytes} (h : Stops rest) :
    (decimal n ++ rest).takeWhile isDigit = decimal n ∧
      (decimal n ++ rest).dropWhile isDigit = rest := by
  rw [List.takeWhile_append_of_pos fun c hc => isDigit_of_mem_decimal hc,
    List.dropWhile_append_of_pos fun c hc => isDigit_of_mem_decimal hc, h.takeWhile, h.dropWhile]
  simp

theorem stoll_decimal (i : Int64) :
    stoll (decide (i.toInt < 0)) (decimal i.toInt.natAbs) = .ok i := by
  have hval : (if decide (i.toInt < 0) = true then -(natOf (decimal i.toInt.natAbs) : Int)
      else natOf (decimal i.toInt.natAbs)) = i.toInt := by
    rw [natOf_decimal]
    split
    · next h => simp only [decide_eq_true_eq] at h; omega
    · next h => simp only [decide_eq_true_eq] at h; omega
  unfold stoll
  rw [hval, if_neg (decimal_ne_nil _), if_pos ⟨i.le_toInt, i.toInt_lt⟩, Int64.ofInt_toInt]

theorem head?_decimal_append (n : Nat) (rest : Bytes) :
    ∃ c, (decimal n ++ rest).head? = some c ∧ isDigit c = true := by
  cases h : decimal n with
  | nil => exact absurd h (decimal_ne_nil n)
  | cons c t => exact ⟨c, rfl, isDigit_of_mem_decimal (h ▸ List.mem_cons_self)⟩

theorem parseNumber_intText (i : Int64) {rest : Bytes} (h : Stops rest) :
    parseNumber (.at (intText i ++ rest)) = .ok (.int i, .at rest) := by
  have hdot : rest.head? ≠ some dot := fun hd => (h dot hd).2 rfl
  obtain ⟨htake, hdrop⟩ := span_decimal i.toInt.natAbs h
  have hstoll := stoll_decimal i
  by_cases hneg : i.toInt < 0
  · rw [decide_eq_true hneg] at hstoll
    simp only [parseNumber, intText, if_pos hneg, List.cons_append, List.head?_cons, decide_true,
      if_true, List.tail_cons, htake, hdrop, hdot, if_false, hstoll, Except.map]
  · rw [decide_eq_false hneg] at hstoll
    obtain ⟨c, hc, hdigit⟩ := head?_decimal_append i.toInt.natAbs rest
    have hminus : (decimal i.toInt.natAbs ++ rest).head? ≠ some minus := by
      rw [hc]
      rintro h
      cases h
      exact absurd hdigit (by decide)
    simp only [parseNumber, intText, if_neg hneg, hminus, decide_false,
      if_false, htake, hdrop, hdot, hstoll, Except.map]

/-! ## Strings -/

theorem stringLoop_escape (c : UInt8) (text : Bytes) :
    stringLoop (escape c ++ text) = (stringLoop text).map fun (s, rest) => (c :: s, rest) := by
  unfold escape
  split
  · next h => subst h; rfl
  split
  · next h => subst h; rfl
  split
  · next h => subst h; rfl
  split
  · next h => subst h; rfl
  split
  · next h => subst h; rfl
  · next hquote hslash _ _ _ =>
    rw [List.singleton_append, stringLoop.eq_def]
    simp only [if_neg hquote, if_neg hslash]

theorem stringLoop_serializeString (s rest : Bytes) :
    stringLoop (s.flatMap escape ++ dquote :: rest) = .ok (s, rest) := by
  induction s with
  | nil =>
    rw [List.flatMap_nil, List.nil_append, stringLoop.eq_def]
    simp only [if_true]
  | cons c s ih =>
    rw [List.flatMap_cons, List.append_assoc, stringLoop_escape, ih]
    rfl

theorem parseString_serializeString (s rest : Bytes) :
    parseString (.at (serializeString s ++ rest)) = .ok (s, .at rest) := by
  simp only [serializeString, List.cons_append, List.append_assoc, List.nil_append, parseString,
    next, Except.bind, bind, stringLoop_serializeString, Except.map]

/-! ## Texts of values -/

/-- The text is that of a value: it begins with a character that is no space
and closes no array, and the parser, with enough fuel and room for `depth` calls,
reads the value from it. -/
structure Spells (depth : Nat) (text : Bytes) (v : Value) : Prop where
  head : ∃ c tail, text = c :: tail ∧ isSpace c = false ∧ c ≠ rbracket
  read : ∀ stack fuel rest, depth ≤ stack → 2 * text.length ≤ fuel → Stops rest →
    parseValue stack fuel (.at (text ++ rest)) = .ok (v, .at rest)

/-- The text is that of a string, in quotes. -/
structure SpellsString (text s : Bytes) : Prop where
  head : ∃ tail, text = dquote :: tail
  read : ∀ rest, parseString (.at (text ++ rest)) = .ok (s, .at rest)

/-- The texts of the elements of an array, with the closing bracket. -/
def elementsText : List Bytes → Bytes
  | [] => [rbracket]
  | [t] => t ++ [rbracket]
  | t :: u :: rest => t ++ comma :: elementsText (u :: rest)

/-- The texts of the members of an object, with the closing brace. -/
def membersText : List (Bytes × Bytes) → Bytes
  | [] => [rbrace]
  | [(k, t)] => k ++ colon :: t ++ [rbrace]
  | (k, t) :: m :: rest => k ++ colon :: t ++ comma :: membersText (m :: rest)

section Texts

variable {depth : Nat} {text s : Bytes} {v : Value}

theorem skipSpace_cons {c : UInt8} (rest : Bytes) (h : isSpace c = false) :
    skipSpace (.at (c :: rest)) = .at (c :: rest) := by
  simp [skipSpace, h]

theorem Spells.mono {deeper : Nat} (h : Spells depth text v) (hdepth : depth ≤ deeper) :
    Spells deeper text v :=
  ⟨h.head, fun stack fuel rest hstack => h.read stack fuel rest (hdepth.trans hstack)⟩

theorem Spells.length_pos (h : Spells depth text v) : 0 < text.length := by
  obtain ⟨c, tail, rfl, -⟩ := h.head
  exact Nat.succ_pos _

theorem Spells.skip (h : Spells depth text v) (rest : Bytes) :
    skipSpace (.at (text ++ rest)) = .at (text ++ rest) := by
  obtain ⟨c, tail, rfl, hspace, -⟩ := h.head
  exact skipSpace_cons _ hspace

theorem SpellsString.skip (h : SpellsString text s) (rest : Bytes) :
    skipSpace (.at (text ++ rest)) = .at (text ++ rest) := by
  obtain ⟨tail, rfl⟩ := h.head
  exact skipSpace_cons _ (by decide)

theorem spells_of_read (hhead : ∃ c tail, text = c :: tail ∧ isSpace c = false ∧ c ≠ rbracket)
    (hread : ∀ stack fuel rest, Stops rest →
      parseValue (stack + 1) (fuel + 1) (.at (text ++ rest)) = .ok (v, .at rest)) :
    Spells 1 text v := by
  refine ⟨hhead, fun stack fuel rest hstack hfuel hrest => ?_⟩
  obtain ⟨c, tail, rfl, -⟩ := hhead
  rw [List.length_cons] at hfuel
  obtain ⟨stack, rfl⟩ : ∃ n, stack = n + 1 := Nat.exists_eq_add_one.mpr hstack
  obtain ⟨fuel, rfl⟩ : ∃ n, fuel = n + 1 := Nat.exists_eq_add_one.mpr (by omega)
  exact hread stack fuel rest hrest

theorem parseLiteral_append (expected rest : Bytes) (v : Value) :
    parseLiteral expected v (.at (expected ++ rest)) = .ok (v, .at rest) := by
  induction expected with
  | nil => rfl
  | cons c expected ih =>
    simp only [parseLiteral, List.cons_append, next, bind, Except.bind, if_true]
    exact ih

theorem spells_null : Spells 1 (lit "null") .null :=
  spells_of_read ⟨_, _, rfl, by decide, by decide⟩ fun _ _ rest _ =>
    parseLiteral_append (lit "null") rest .null

theorem spells_true : Spells 1 (lit "true") (.bool true) :=
  spells_of_read ⟨_, _, rfl, by decide, by decide⟩ fun _ _ rest _ =>
    parseLiteral_append (lit "true") rest (.bool true)

theorem spells_false : Spells 1 (lit "false") (.bool false) :=
  spells_of_read ⟨_, _, rfl, by decide, by decide⟩ fun _ _ rest _ =>
    parseLiteral_append (lit "false") rest (.bool false)

theorem parseValue_quote (stack fuel : Nat) (text : Bytes) :
    parseValue (stack + 1) (fuel + 1) (.at (dquote :: text)) =
      (parseString (.at (dquote :: text))).map fun read => (.str read.1, read.2) := rfl

theorem SpellsString.spells (h : SpellsString text s) : Spells 1 text (.str s) := by
  obtain ⟨tail, rfl⟩ := h.head
  refine spells_of_read ⟨_, _, rfl, by decide, by decide⟩ fun stack fuel rest _ => ?_
  rw [List.cons_append, parseValue_quote, ← List.cons_append, h.read]
  rfl

theorem spellsString_serializeString (s : Bytes) : SpellsString (serializeString s) s :=
  ⟨⟨_, rfl⟩, parseString_serializeString s⟩

/-! ### Integers -/

theorem ne_of_number {c d : UInt8} (h : c = minus ∨ isDigit c = true) (hd : isDigit d = false) (hm : d ≠ minus) :
    c ≠ d := by
  rintro rfl
  rcases h with h | h
  · exact hm h
  · rw [h] at hd
    cases hd

/-- The first character of a number is no space and begins or ends nothing else. -/
theorem isSpace_number {c : UInt8} (h : c = minus ∨ isDigit c = true) : isSpace c = false ∧ c ≠ rbracket ∧ c ≠ lbrace := by
  refine ⟨?_, ne_of_number h (by decide) (by decide), ne_of_number h (by decide) (by decide)⟩
  have hne : ∀ d : UInt8, isDigit d = false → d ≠ minus → c ≠ d := fun _ => ne_of_number h
  simp [isSpace, hne space (by decide) (by decide), hne tab (by decide) (by decide),
    hne newline (by decide) (by decide), hne carriage (by decide) (by decide)]

theorem parseValue_number {c : UInt8} (stack fuel : Nat) (text : Bytes) (h : c = minus ∨ isDigit c = true) :
    parseValue (stack + 1) (fuel + 1) (.at (c :: text)) = parseNumber (.at (c :: text)) := by
  have hne : ∀ d : UInt8, isDigit d = false → d ≠ minus → c ≠ d := fun _ => ne_of_number h
  have hcond : (decide (c = minus) || isDigit c) = true := by
    rcases h with h | h
    · simp [h]
    · simp [h]
  simp only [parseValue, peek, hne 110 (by decide) (by decide), hne 116 (by decide) (by decide),
    hne 102 (by decide) (by decide), hne dquote (by decide) (by decide), if_false]
  exact if_pos hcond

theorem intText_head (i : Int64) : ∃ c tail, intText i = c :: tail ∧ (c = minus ∨ isDigit c = true) := by
  unfold intText
  split
  · exact ⟨_, _, rfl, .inl rfl⟩
  · cases hd : decimal i.toInt.natAbs with
    | nil => exact absurd hd (decimal_ne_nil _)
    | cons c tail => exact ⟨c, tail, rfl, .inr (isDigit_of_mem_decimal (hd ▸ List.mem_cons_self))⟩

theorem spells_int (i : Int64) : Spells 1 (intText i) (.int i) := by
  obtain ⟨c, tail, htext, hc⟩ := intText_head i
  obtain ⟨hspace, hbracket, -⟩ := isSpace_number hc
  refine spells_of_read ⟨c, tail, htext, hspace, hbracket⟩ fun stack fuel rest hrest => ?_
  rw [← parseNumber_intText i hrest, htext]
  exact parseValue_number stack fuel _ hc

/-! ### Arrays -/

/-- The elements of an array behind those that have been read. -/
theorem parseElements_texts {ts : List Bytes} {vs : List Value} (hv : Spells depth text v)
    (h : List.Forall₂ (Spells depth) ts vs) (arr : List Value) {stack : Nat} (fuel : Nat) (rest : Bytes)
    (hstack : depth ≤ stack) (hfuel : 2 * (elementsText (text :: ts)).length ≤ fuel) :
    parseElements stack fuel arr (.at (elementsText (text :: ts) ++ rest)) = .ok (.arr (arr ++ v :: vs), .at rest) := by
  induction h generalizing text v arr fuel with
  | nil =>
    simp only [elementsText, List.length_append, List.length_singleton] at hfuel
    obtain ⟨fuel, rfl⟩ : ∃ n, fuel = n + 1 := Nat.exists_eq_add_one.mpr (by omega)
    have hread := hv.read stack fuel (rbracket :: rest) hstack (by omega) (stops_cons _ (by decide) (by decide))
    simp only [parseElements, elementsText, List.append_assoc, List.singleton_append, hread,
      bind, Except.bind, skipSpace_cons rest (c := rbracket) (by decide), next, if_true]
  | @cons u w ts vs hw _ ih =>
    simp only [elementsText, List.length_append, List.length_cons] at hfuel
    obtain ⟨fuel, rfl⟩ : ∃ n, fuel = n + 1 := Nat.exists_eq_add_one.mpr (by omega)
    have hread := hv.read stack fuel (comma :: (elementsText (u :: ts) ++ rest)) hstack (by omega)
      (stops_cons _ (by decide) (by decide))
    have hskip : skipSpace (.at (elementsText (u :: ts) ++ rest)) = .at (elementsText (u :: ts) ++ rest) := by
      cases ts with
      | nil => rw [elementsText, List.append_assoc]; exact hw.skip _
      | cons t' ts => rw [elementsText, List.append_assoc]; exact hw.skip _
    have hrest := ih hw (arr ++ [v]) fuel (by omega)
    have hcomma : comma ≠ rbracket := by decide
    simp only [parseElements, elementsText, List.append_assoc, List.cons_append, hread,
      bind, Except.bind, skipSpace_cons _ (c := comma) (by decide), next, hcomma, if_false,
      ne_eq, not_true, hskip, hrest, List.nil_append]

theorem parseValue_array (stack fuel : Nat) {text : Bytes} (hskip : skipSpace (.at text) = .at text)
    (hclose : peek (.at text) ≠ rbracket) :
    parseValue (stack + 1) (fuel + 1) (.at (lbracket :: text)) = parseElements stack fuel [] (.at text) := by
  have hhead : peek (.at (lbracket :: text)) = lbracket := rfl
  have hnumber : ¬(decide (lbracket = minus) || isDigit lbracket) = true := by decide
  simp only [parseValue, hhead, (by decide : lbracket ≠ 110), (by decide : lbracket ≠ 116),
    (by decide : lbracket ≠ 102), (by decide : lbracket ≠ dquote), if_false, if_true]
  rw [if_neg hnumber]
  simp only [next, bind, Except.bind, hskip, hclose, if_false]

theorem spells_array {ts : List Bytes} {vs : List Value} (h : List.Forall₂ (Spells depth) ts vs) :
    Spells (depth + 1) (lbracket :: elementsText ts) (.arr vs) := by
  refine ⟨⟨_, _, rfl, by decide, by decide⟩, fun stack fuel rest hstack hfuel _ => ?_⟩
  simp only [List.length_cons] at hfuel
  obtain ⟨stack, rfl⟩ : ∃ n, stack = n + 1 := Nat.exists_eq_add_one.mpr (by omega)
  obtain ⟨fuel, rfl⟩ : ∃ n, fuel = n + 1 := Nat.exists_eq_add_one.mpr (by omega)
  cases h with
  | nil => rfl
  | @cons t v ts vs hv hvs =>
    obtain ⟨c, tail, htext, hspace, hclose⟩ := hv.head
    have hopen : ∃ tail', elementsText (t :: ts) ++ rest = c :: tail' := by
      rw [htext]
      cases ts <;> exact ⟨_, rfl⟩
    obtain ⟨tail', htail⟩ := hopen
    have hskip : skipSpace (.at (elementsText (t :: ts) ++ rest)) = .at (elementsText (t :: ts) ++ rest) := by
      rw [htail]
      exact skipSpace_cons _ hspace
    have hpeek : peek (.at (elementsText (t :: ts) ++ rest)) ≠ rbracket := by
      rw [htail]
      exact hclose
    rw [List.cons_append, parseValue_array stack fuel hskip hpeek]
    exact parseElements_texts hv hvs [] fuel rest (by omega) (by omega)

/-! ### Objects -/

/-- The texts are those of a member. -/
def SpellsMember (depth : Nat) (texts : Bytes × Bytes) (e : Bytes × Value) : Prop :=
  SpellsString texts.1 e.1 ∧ Spells depth texts.2 e.2

/-- The assignments `obj[key] = value` of the parser, in order. -/
def assign (obj : Object) (es : List (Bytes × Value)) : Object :=
  es.foldl (fun obj e => OrdMap.put obj e.1 e.2) obj

/-- The members of an object behind those that have been read. -/
theorem parseMembers_texts {m : Bytes × Bytes} {e : Bytes × Value} {ms : List (Bytes × Bytes)}
    {es : List (Bytes × Value)} (hm : SpellsMember depth m e) (h : List.Forall₂ (SpellsMember depth) ms es)
    (obj : Object) {stack : Nat} (fuel : Nat) (rest : Bytes) (hstack : depth ≤ stack)
    (hfuel : 2 * (membersText (m :: ms)).length ≤ fuel) :
    parseMembers stack fuel obj (.at (membersText (m :: ms) ++ rest)) =
      .ok (.obj (assign obj (e :: es)), .at rest) := by
  induction h generalizing m e obj fuel with
  | nil =>
    obtain ⟨k, t⟩ := m
    obtain ⟨hk : SpellsString k e.1, hv : Spells depth t e.2⟩ := hm
    simp only [membersText, List.length_append, List.length_cons, List.length_nil] at hfuel
    obtain ⟨fuel, rfl⟩ : ∃ n, fuel = n + 1 := Nat.exists_eq_add_one.mpr (by omega)
    have hread := hv.read stack fuel (rbrace :: rest) hstack (by omega) (stops_cons _ (by decide) (by decide))
    simp only [parseMembers, membersText, List.append_assoc, List.cons_append, List.nil_append,
      hk.skip, hk.read, bind, Except.bind, skipSpace_cons _ (c := colon) (by decide), next, ne_eq,
      not_true, if_false, hv.skip, hread, skipSpace_cons _ (c := rbrace) (by decide), if_true]
    rfl
  | @cons n f ms es hn _ ih =>
    obtain ⟨k, t⟩ := m
    obtain ⟨hk : SpellsString k e.1, hv : Spells depth t e.2⟩ := hm
    simp only [membersText, List.length_append, List.length_cons] at hfuel
    obtain ⟨fuel, rfl⟩ : ∃ n, fuel = n + 1 := Nat.exists_eq_add_one.mpr (by omega)
    have hread := hv.read stack fuel (comma :: (membersText (n :: ms) ++ rest)) hstack (by omega)
      (stops_cons _ (by decide) (by decide))
    have hcomma : comma ≠ rbrace := by decide
    simp only [parseMembers, membersText, List.append_assoc, List.cons_append,
      hk.skip, hk.read, bind, Except.bind, skipSpace_cons _ (c := colon) (by decide), next, ne_eq,
      not_true, if_false, hv.skip, hread, skipSpace_cons _ (c := comma) (by decide), hcomma]
    exact ih hn (obj.put e.1 e.2) fuel (by omega)

theorem parseValue_object (stack fuel : Nat) {text : Bytes} (hskip : skipSpace (.at text) = .at text)
    (hclose : peek (.at text) ≠ rbrace) :
    parseValue (stack + 1) (fuel + 1) (.at (lbrace :: text)) = parseMembers stack fuel [] (.at text) := by
  have hhead : peek (.at (lbrace :: text)) = lbrace := rfl
  have hnumber : ¬(decide (lbrace = minus) || isDigit lbrace) = true := by decide
  simp only [parseValue, hhead, (by decide : lbrace ≠ 110), (by decide : lbrace ≠ 116),
    (by decide : lbrace ≠ 102), (by decide : lbrace ≠ dquote), (by decide : lbrace ≠ lbracket),
    if_false, if_true]
  rw [if_neg hnumber]
  simp only [next, bind, Except.bind, hskip, hclose, if_false]

theorem spells_object {ms : List (Bytes × Bytes)} {es : List (Bytes × Value)}
    (h : List.Forall₂ (SpellsMember depth) ms es) :
    Spells (depth + 1) (lbrace :: membersText ms) (.obj (assign [] es)) := by
  refine ⟨⟨_, _, rfl, by decide, by decide⟩, fun stack fuel rest hstack hfuel _ => ?_⟩
  simp only [List.length_cons] at hfuel
  obtain ⟨stack, rfl⟩ : ∃ n, stack = n + 1 := Nat.exists_eq_add_one.mpr (by omega)
  obtain ⟨fuel, rfl⟩ : ∃ n, fuel = n + 1 := Nat.exists_eq_add_one.mpr (by omega)
  cases h with
  | nil => rfl
  | @cons m e ms es hm hms =>
    obtain ⟨tail, htext⟩ := hm.1.head
    have hopen : ∃ tail', membersText (m :: ms) ++ rest = dquote :: tail' := by
      obtain ⟨k, t⟩ := m
      cases htext
      cases ms <;> exact ⟨_, rfl⟩
    obtain ⟨tail', htail⟩ := hopen
    have hskip : skipSpace (.at (membersText (m :: ms) ++ rest)) = .at (membersText (m :: ms) ++ rest) := by
      rw [htail]
      exact skipSpace_cons _ (by decide)
    have hpeek : peek (.at (membersText (m :: ms) ++ rest)) ≠ rbrace := by
      rw [htail]
      exact (by decide : dquote ≠ rbrace)
    rw [List.cons_append, parseValue_object stack fuel hskip hpeek]
    exact parseMembers_texts hm hms [] fuel rest (by omega) (by omega)

theorem Spells.parse {stack : Nat} (h : Spells depth text v) (hstack : depth ≤ stack) :
    parse stack text = .ok v := by
  have hread := h.read stack (2 * text.length + 2) [] hstack (by omega) stops_nil
  have hskip := h.skip []
  rw [List.append_nil] at hread hskip
  simp only [Json.parse, hskip, hread, bind, Except.bind]
  rfl

end Texts

/-! ## Printed values -/

/-- The value has no double in it, and the keys of its objects are in order. -/
inductive Value.Plain : Value → Prop
  | null : Plain .null
  | bool (b : Bool) : Plain (.bool b)
  | int (i : Int64) : Plain (.int i)
  | str (s : Bytes) : Plain (.str s)
  | arr {a : List Value} (h : ∀ v ∈ a, Plain v) : Plain (.arr a)
  | obj {o : List (Bytes × Value)} (hsorted : OrdMap.Sorted o) (h : ∀ e ∈ o, Plain e.2) :
    Plain (.obj o)

theorem serializeElements_eq (a : List Value) : serializeElements a = elementsText (a.map Value.serialize) := by
  induction a with
  | nil => rfl
  | cons v vs ih =>
    cases vs with
    | nil => rfl
    | cons w ws => rw [serializeElements, ih]; rfl

theorem serializeMembers_eq (o : List (Bytes × Value)) :
    serializeMembers o = membersText (o.map fun e => (serializeString e.1, e.2.serialize)) := by
  induction o with
  | nil => rfl
  | cons e es ih =>
    obtain ⟨k, v⟩ := e
    cases es with
    | nil => rfl
    | cons f fs => rw [serializeMembers, ih]; rfl

/-- Members with their keys in order are assigned one behind the other. -/
theorem assign_sorted {obj es : List (Bytes × Value)} (h : OrdMap.Sorted (obj ++ es)) :
    assign obj es = obj ++ es := by
  induction es generalizing obj with
  | nil => rw [List.append_nil]; rfl
  | cons e es ih =>
    have hput : OrdMap.put obj e.1 e.2 = obj ++ [e] :=
      OrdMap.put_append fun entry hentry =>
        (List.pairwise_append.mp h).2.2 entry hentry e List.mem_cons_self
    have hsplit : obj ++ e :: es = obj ++ [e] ++ es := by simp
    rw [hsplit] at h ⊢
    rw [← ih h, ← hput]
    rfl

mutual

/-- The calls of `parse_value` that are inside one another when the value is read. -/
def Value.depth : Value → Nat
  | .arr a => depthElements a + 1
  | .obj o => depthMembers o + 1
  | _ => 1

def depthElements : List Value → Nat
  | [] => 0
  | v :: vs => max v.depth (depthElements vs)

def depthMembers : List (Bytes × Value) → Nat
  | [] => 0
  | (_, v) :: es => max v.depth (depthMembers es)

end

theorem depth_le_elements {v : Value} {a : List Value} (h : v ∈ a) : v.depth ≤ depthElements a := by
  induction a with
  | nil => cases h
  | cons w ws ih =>
    rw [depthElements]
    rcases List.mem_cons.mp h with rfl | h
    · exact le_max_left _ _
    · exact (ih h).trans (le_max_right _ _)

theorem depth_le_members {e : Bytes × Value} {o : List (Bytes × Value)} (h : e ∈ o) :
    e.2.depth ≤ depthMembers o := by
  induction o with
  | nil => cases h
  | cons f fs ih =>
    obtain ⟨k, v⟩ := f
    rw [depthMembers]
    rcases List.mem_cons.mp h with rfl | h
    · exact le_max_left _ _
    · exact (ih h).trans (le_max_right _ _)

theorem Value.Plain.spells {v : Value} (h : v.Plain) : Spells v.depth v.serialize v := by
  induction h with
  | null => exact spells_null
  | bool b =>
    cases b with
    | true => exact spells_true
    | false => exact spells_false
  | int i => exact spells_int i
  | str s => exact (spellsString_serializeString s).spells
  | arr _ ih =>
    rw [Value.serialize, serializeElements_eq, Value.depth]
    exact spells_array (List.forall₂_map_left_iff.mpr
      (List.forall₂_same.mpr fun w hw => (ih w hw).mono (depth_le_elements hw)))
  | @obj o hsorted _ ih =>
    have hobj : assign [] o = o := assign_sorted hsorted
    have hmembers : List.Forall₂ (SpellsMember (depthMembers o))
        (o.map fun e => (serializeString e.1, e.2.serialize)) o :=
      List.forall₂_map_left_iff.mpr (List.forall₂_same.mpr fun e he =>
        ⟨spellsString_serializeString e.1, (ih e he).mono (depth_le_members he)⟩)
    have hspells := spells_object hmembers
    rwa [hobj, ← serializeMembers_eq] at hspells

theorem serialize_length_pos {v : Value} (h : v.Plain) : 0 < v.serialize.length := h.spells.length_pos

/-- The server reads back what it has printed, if the stack suffices. -/
theorem parse_serialize {v : Value} (h : v.Plain) {stack : Nat} (hstack : v.depth ≤ stack) :
    parse stack v.serialize = .ok v := h.spells.parse hstack

theorem serialize_inj {v w : Value} (hv : v.Plain) (hw : w.Plain)
    (h : v.serialize = w.serialize) : v = w := by
  have hread := parse_serialize hv (le_max_left v.depth w.depth)
  rw [h, parse_serialize hw (le_max_right v.depth w.depth)] at hread
  cases hread
  rfl

end LanChat.Json
