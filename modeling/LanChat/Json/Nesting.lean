import LanChat.Json.Lenient

/-!
# Texts that are nested too deeply

Each value inside another one takes a call of `parse_value`, and nothing in the
source counts the calls. A grammar of the texts that open a number of values
inside one another (`Nested`) says for which texts the stack is too small
(`overflow_iff`); on every other text the parser does what it does with any larger
stack (`parse_cases`).
-/

namespace LanChat.Json

open Lib Ascii Rfc8259

/-- The text opens so many arrays and objects inside one another and goes on with
the next value in the last of them; what stands in front of it in each is complete. -/
inductive Nested : Part → Nat → Bytes → Prop where
  | value (t : Bytes) : Nested .element 0 t
  | array {n : Nat} {w t : Bytes} (hw : ∀ c ∈ w, isSpace c = true) (h : Nested .elements n t)
    (hopen : (t.dropWhile isSpace).head? ≠ some rbracket) : Nested .element (n + 1) (w ++ lbracket :: t)
  | object {n : Nat} {w t : Bytes} (hw : ∀ c ∈ w, isSpace c = true) (h : Nested .members n t)
    (hopen : (t.dropWhile isSpace).head? ≠ some rbrace) : Nested .element (n + 1) (w ++ lbrace :: t)
  | element {n : Nat} {t : Bytes} (h : Nested .element n t) : Nested .elements n t
  | elements {n : Nat} {t ts : Bytes} {tokens : List Token} (h : Reads .element t tokens)
    (hs : Nested .elements n ts) : Nested .elements n (t ++ comma :: ts)
  | member {n : Nat} {w k w' t : Bytes} {c : UInt8} (hw : ∀ c ∈ w, isSpace c = true) (hc : isSpace c = false)
    (hk : Body k) (hw' : ∀ c ∈ w', isSpace c = true) (h : Nested .element n t) :
    Nested .members n (w ++ c :: (k ++ (w' ++ colon :: t)))
  | members {n : Nat} {w k w' t ts : Bytes} {c : UInt8} {tokens : List Token} (hw : ∀ c ∈ w, isSpace c = true)
    (hc : isSpace c = false) (hk : Body k) (hw' : ∀ c ∈ w', isSpace c = true) (h : Reads .element t tokens)
    (hs : Nested .members n ts) : Nested .members n (w ++ c :: (k ++ (w' ++ colon :: (t ++ comma :: ts))))

/-- No text opens more values than it has characters. -/
theorem Nested.le_length {part : Part} {n : Nat} {t : Bytes} (h : Nested part n t) : n ≤ t.length := by
  induction h with
  | value => exact Nat.zero_le _
  | element _ ih => exact ih
  | array _ _ _ ih | object _ _ _ ih | elements _ _ ih | member _ _ _ _ _ ih | members _ _ _ _ _ _ ih =>
    simp only [List.length_append, List.length_cons]
    omega

/-! ## The parser overflows only on such texts -/

section Overflow

variable {α β : Type} {text : Bytes} {cur : Cursor} {stack fuel : Nat}

theorem bind_eq_error {ε : Type} {x : Except ε α} {f : α → Except ε β} {e : ε} (h : x >>= f = .error e) :
    x = .error e ∨ ∃ a, x = .ok a ∧ f a = .error e := by
  cases x with
  | error e' =>
    cases h
    exact .inl rfl
  | ok a => exact .inr ⟨a, rfl, h⟩

theorem map_eq_error {ε : Type} {x : Except ε α} {f : α → β} {e : ε} (h : x.map f = .error e) : x = .error e := by
  cases x with
  | error e' =>
    cases h
    rfl
  | ok a => cases h

theorem next_ne_overflow (cur : Cursor) : next cur ≠ .error .stackOverflow := by
  intro h
  rcases cur with (_ | ⟨c, rest⟩) | _
  · cases h
  · cases h
  · cases h

theorem stringLoop_ne_overflow (text : Bytes) : stringLoop text ≠ .error .stackOverflow := by
  intro h
  fun_induction stringLoop text with
  | case1 => cases h
  | case2 => cases h
  | case3 => cases h
  | case4 esc rest _ ih => exact ih (map_eq_error h)
  | case5 c rest _ _ ih => exact ih (map_eq_error h)

theorem parseString_ne_overflow (cur : Cursor) : parseString cur ≠ .error .stackOverflow := by
  intro h
  obtain h | ⟨⟨c, mid⟩, -, h⟩ := bind_eq_error h
  · exact next_ne_overflow _ h
  · dsimp only at h
    split at h
    · cases h
    · exact stringLoop_ne_overflow _ (map_eq_error h)

theorem parseLiteral_ne_overflow (expected : Bytes) (result : Value) (cur : Cursor) :
    parseLiteral expected result cur ≠ .error .stackOverflow := by
  induction expected generalizing cur with
  | nil =>
    intro h
    cases h
  | cons p ps ih =>
    intro h
    obtain h | ⟨⟨c, mid⟩, -, h⟩ := bind_eq_error h
    · exact next_ne_overflow _ h
    · dsimp only at h
      split at h
      · exact ih mid h
      · cases h

theorem parseNumber_ne_overflow (cur : Cursor) : parseNumber cur ≠ .error .stackOverflow := by
  intro h
  rcases cur with text | _
  swap
  · cases h
  obtain ⟨sign, body, -, -, hbody, -⟩ := split_sign text
  simp only [parseNumber, ← hbody] at h
  split at h
  · split at h
    · cases h
    · split at h
      · cases h
      · cases h
  · have hstoll := map_eq_error h
    obtain herror | ⟨-, i, hok⟩ := stoll_cases (decide (text.head? = some minus)) (body.takeWhile isDigit)
    · rw [herror] at hstoll
      cases hstoll
    · rw [hok] at hstoll
      cases hstoll

/-- Where an array or object closes at once, no value is read. -/
theorem closed_ne_overflow (cur : Cursor) (v : Value) :
    (next cur >>= fun closed => .ok (v, closed.2)) ≠ .error .stackOverflow := by
  intro h
  obtain h | ⟨_, -, h⟩ := bind_eq_error h
  · exact next_ne_overflow _ h
  · cases h

theorem head?_ne_of_peek {c : UInt8} (h : peek (skipSpace (.at text)) ≠ c) :
    (text.dropWhile isSpace).head? ≠ some c := by
  intro hhead
  obtain ⟨tail, htail⟩ := List.head?_eq_some_iff.mp hhead
  refine h ?_
  show peek (.at (text.dropWhile isSpace)) = c
  rw [htail]
  rfl

/-- Spaces in front of the first key belong to it. -/
theorem Nested.spaces_members {w t : Bytes} (hw : ∀ c ∈ w, isSpace c = true) (h : Nested .members stack t) :
    Nested .members stack (w ++ t) := by
  cases h with
  | member hw₁ hc hk hw' h =>
    rw [← List.append_assoc]
    exact .member (List.forall_mem_append.mpr ⟨hw, hw₁⟩) hc hk hw' h
  | members hw₁ hc hk hw' h hs =>
    rw [← List.append_assoc]
    exact .members (List.forall_mem_append.mpr ⟨hw, hw₁⟩) hc hk hw' h hs

/-- A value that has been read, and the character behind it. -/
theorem element_of_parse {v : Value} {mid behind : Cursor} {c : UInt8} (hc : c ≠ 0)
    (hvalue : parseValue stack fuel (skipSpace (.at text)) = .ok (v, mid))
    (hnext : next (skipSpace mid) = .ok (c, behind)) :
    ∃ t rest tokens, text = t ++ c :: rest ∧ behind = .at rest ∧ Reads .element t tokens := by
  obtain ⟨w, hsplit, hw⟩ := split_space text
  obtain ⟨t, rest, tokens, htext, rfl, ht, -⟩ :=
    (reads_of_parse stack fuel).1 (text.dropWhile isSpace) v mid hvalue
  obtain ⟨w', rest', rfl, rfl, hw'⟩ := next_skipSpace hc hnext
  refine ⟨w ++ (t ++ w'), rest', tokens, ?_, rfl, .element hw ht hw'⟩
  rw [hsplit, htext]
  simp

/-- What the parser has read when it overflows. -/
theorem nested_of_overflow (stack fuel : Nat) :
    (∀ text : Bytes, parseValue stack fuel (skipSpace (.at text)) = .error .stackOverflow →
      Nested .element stack text) ∧
    (∀ arr (text : Bytes), parseElements stack fuel arr (skipSpace (.at text)) = .error .stackOverflow →
      Nested .elements stack text) ∧
    ∀ obj (text : Bytes), parseMembers stack fuel obj (.at text) = .error .stackOverflow →
      Nested .members stack text := by
  induction fuel generalizing stack with
  | zero => exact ⟨(fun _ h => by cases h), (fun _ _ h => by cases h), fun _ _ h => by cases h⟩
  | succ fuel ih =>
    refine ⟨fun text h => ?_, fun arr text h => ?_, fun obj text h => ?_⟩
    · rcases stack with _ | stack
      · exact .value text
      obtain ⟨-, ihElements, ihMembers⟩ := ih stack
      obtain ⟨w, hsplit, hw⟩ := split_space text
      change parseValue (stack + 1) (fuel + 1) (.at (text.dropWhile isSpace)) = _ at h
      generalize text.dropWhile isSpace = body at h hsplit
      subst hsplit
      rcases body with _ | ⟨c, tail⟩
      · cases h
      have hfirst := parseValue_byFirst stack fuel (.at (c :: tail))
      generalize parseValue (stack + 1) (fuel + 1) (.at (c :: tail)) = result at h hfirst
      cases hfirst with
      | null _ => exact absurd h (parseLiteral_ne_overflow _ _ _)
      | true _ => exact absurd h (parseLiteral_ne_overflow _ _ _)
      | false _ => exact absurd h (parseLiteral_ne_overflow _ _ _)
      | string _ => exact absurd (map_eq_error h) (parseString_ne_overflow _)
      | number _ => exact absurd h (parseNumber_ne_overflow _)
      | array hopen =>
        obtain rfl : c = lbracket := hopen
        change (if peek (skipSpace (.at tail)) = rbracket then _ else _) = _ at h
        split at h
        · exact absurd h (closed_ne_overflow _ _)
        · next hclose => exact .array hw (ihElements [] tail h) (head?_ne_of_peek hclose)
      | object hopen =>
        obtain rfl : c = lbrace := hopen
        change (if peek (skipSpace (.at tail)) = rbrace then _ else _) = _ at h
        split at h
        · exact absurd h (closed_ne_overflow _ _)
        · next hclose =>
          have hmembers := ihMembers [] (tail.dropWhile isSpace) h
          obtain ⟨w', hsplit, hw'⟩ := split_space tail
          refine .object hw ?_ (head?_ne_of_peek hclose)
          rw [hsplit]
          exact hmembers.spaces_members hw'
      | unexpected => cases h
    · obtain ⟨ihValue, ihElements, -⟩ := ih stack
      obtain h | ⟨⟨v, mid⟩, hvalue, h⟩ := bind_eq_error h
      · exact .element (ihValue text h)
      obtain h | ⟨⟨c, behind⟩, hnext, h⟩ := bind_eq_error h
      · exact absurd h (next_ne_overflow _)
      dsimp only at h hnext
      split at h
      · cases h
      split at h
      · cases h
      next hcomma =>
      obtain rfl : c = comma := not_not.mp hcomma
      obtain ⟨t, rest, tokens, rfl, rfl, ht⟩ := element_of_parse (by decide) hvalue hnext
      exact .elements ht (ihElements _ rest h)
    · obtain ⟨ihValue, -, ihMembers⟩ := ih stack
      unfold parseMembers at h
      obtain h | ⟨⟨key, mid⟩, hkey, hcolon⟩ := bind_eq_error h
      · exact absurd h (parseString_ne_overflow _)
      obtain ⟨w, hsplit, hw⟩ := split_space text
      obtain ⟨c, k, rest, htext, rfl, hk⟩ := @reads_of_parseString (text.dropWhile isSpace) _ _ hkey
      have hc : isSpace c = false := isSpace_of_dropWhile htext
      obtain h | ⟨⟨d, behind⟩, hnext, hvalue⟩ := bind_eq_error hcolon
      · exact absurd h (next_ne_overflow _)
      dsimp only at hvalue hnext
      split at hvalue
      · cases hvalue
      next hd =>
      obtain rfl : d = colon := not_not.mp hd
      obtain ⟨w', rest, rfl, rfl, hw'⟩ := next_skipSpace (by decide) hnext
      rw [hsplit, htext]
      obtain h | ⟨⟨v, mid⟩, hread, hlast⟩ := bind_eq_error hvalue
      · exact .member hw hc hk hw' (ihValue rest h)
      obtain h | ⟨⟨e, behind⟩, hnext, hmore⟩ := bind_eq_error hlast
      · exact absurd h (next_ne_overflow _)
      dsimp only at hmore hnext
      split at hmore
      · cases hmore
      split at hmore
      · cases hmore
      next hcomma =>
      obtain rfl : e = comma := not_not.mp hcomma
      obtain ⟨t, rest, tokens, rfl, rfl, ht⟩ := element_of_parse (by decide) hread hnext
      exact .members hw hc hk hw' ht (ihMembers _ rest hmore)

end Overflow

/-! ## On such texts it does -/

/-- The stack is too small for this part of the text. -/
def Overflows (stack : Nat) : Part → Bytes → Prop
  | .value, _ => True
  | .element, t => ∀ fuel, 2 * t.length + 1 ≤ fuel → parseValue stack fuel (skipSpace (.at t)) = .error .stackOverflow
  | .elements, t => ∀ fuel arr, 2 * t.length + 2 ≤ fuel →
    parseElements stack fuel arr (skipSpace (.at t)) = .error .stackOverflow
  | .members, t => ∀ fuel obj, 2 * t.length + 2 ≤ fuel →
    parseMembers stack fuel obj (.at t) = .error .stackOverflow

section Complete

variable {stack fuel : Nat} {t rest : Bytes} {tokens : List Token}

/-- A complete value is read, or the stack is too small for it already. -/
theorem Reads.parse_element (h : Reads .element t tokens) (hfuel : 2 * t.length ≤ fuel) (hrest : Closes rest) :
    parseValue stack fuel (skipSpace (.at (t ++ rest))) = .error .stackOverflow ∨
      ∃ v cur, parseValue stack fuel (skipSpace (.at (t ++ rest))) = .ok (v, cur) ∧ skipSpace cur = .at rest := by
  obtain ⟨v, cur, hv, hcur⟩ := h.accepted (max stack t.length) fuel rest (le_max_right _ _) hfuel hrest
  rcases (below_stack (le_max_left stack t.length) fuel).1 (skipSpace (.at (t ++ rest))) with hover | hsame
  · exact .inl hover
  · exact .inr ⟨v, cur, hsame.trans hv, hcur⟩

theorem peek_ne_of_head? {c : UInt8} (hc : c ≠ 0) (h : (t.dropWhile isSpace).head? ≠ some c) :
    peek (skipSpace (.at t)) ≠ c := by
  intro hpeek
  change peek (.at (t.dropWhile isSpace)) = c at hpeek
  cases hbody : t.dropWhile isSpace with
  | nil =>
    rw [hbody] at hpeek
    exact hc hpeek.symm
  | cons d tail =>
    rw [hbody] at hpeek h
    exact h (congrArg some hpeek)

theorem Nested.overflows {part : Part} (h : Nested part stack t) : Overflows stack part t := by
  induction h with
  | value t =>
    intro fuel hfuel
    obtain ⟨fuel, rfl⟩ : ∃ n, fuel = n + 1 := Nat.exists_eq_add_one.mpr (by omega)
    rfl
  | array hw _ hopen ih =>
    intro fuel hfuel
    simp only [List.length_append, List.length_cons] at hfuel
    obtain ⟨fuel, rfl⟩ : ∃ n, fuel = n + 1 := Nat.exists_eq_add_one.mpr (by omega)
    rw [skipSpace_spaces hw (by decide), parseValue_bracket, if_neg (peek_ne_of_head? (by decide) hopen)]
    exact ih fuel [] (by omega)
  | object hw _ hopen ih =>
    intro fuel hfuel
    simp only [List.length_append, List.length_cons] at hfuel
    obtain ⟨fuel, rfl⟩ : ∃ n, fuel = n + 1 := Nat.exists_eq_add_one.mpr (by omega)
    rw [skipSpace_spaces hw (by decide), parseValue_brace, if_neg (peek_ne_of_head? (by decide) hopen),
      parseMembers_skip]
    exact ih fuel [] (by omega)
  | element _ ih =>
    intro fuel arr hfuel
    obtain ⟨fuel, rfl⟩ : ∃ n, fuel = n + 1 := Nat.exists_eq_add_one.mpr (by omega)
    rw [parseElements, ih fuel (by omega)]
    rfl
  | @elements n t ts tokens h _ ih =>
    intro fuel arr hfuel
    simp only [List.length_append, List.length_cons] at hfuel
    obtain ⟨fuel, rfl⟩ : ∃ n, fuel = n + 1 := Nat.exists_eq_add_one.mpr (by omega)
    have hcloses : Closes (comma :: ts) := closes_cons ts (by decide : isSpace comma = false ∧ _)
    have hfirst : 2 * t.length ≤ fuel := by omega
    obtain hover | ⟨v, cur, hv, hcur⟩ := @Reads.parse_element n fuel _ _ _ h hfirst hcloses
    · rw [parseElements, hover]
      rfl
    · have hmore := ih fuel (arr ++ [v]) (by omega)
      simp only [parseElements, hv, bind, Except.bind, hcur, next, (by decide : comma ≠ rbracket), if_false, ne_eq,
        not_true, hmore]
  | @member n w k w' t c hw hc hk hw' _ ih =>
    intro fuel obj hfuel
    simp only [List.length_append, List.length_cons] at hfuel
    obtain ⟨fuel, rfl⟩ : ∃ n, fuel = n + 1 := Nat.exists_eq_add_one.mpr (by omega)
    obtain ⟨key, hkey⟩ := hk.parseString c (w' ++ colon :: t)
    have hvalue := ih fuel (by omega)
    simp only [parseMembers, skipSpace_spaces hw hc, hkey, bind, Except.bind,
      skipSpace_spaces hw' (by decide : isSpace colon = false), next, ne_eq, not_true, if_false, hvalue]
  | @members n w k w' t ts c tokens hw hc hk hw' h _ ih =>
    intro fuel obj hfuel
    simp only [List.length_append, List.length_cons] at hfuel
    obtain ⟨fuel, rfl⟩ : ∃ n, fuel = n + 1 := Nat.exists_eq_add_one.mpr (by omega)
    obtain ⟨key, hkey⟩ := hk.parseString c (w' ++ colon :: (t ++ comma :: ts))
    have hcloses : Closes (comma :: ts) := closes_cons ts (by decide : isSpace comma = false ∧ _)
    have hfirst : 2 * t.length ≤ fuel := by omega
    obtain hover | ⟨v, cur, hv, hcur⟩ := @Reads.parse_element n fuel _ _ _ h hfirst hcloses
    · simp only [parseMembers, skipSpace_spaces hw hc, hkey, bind, Except.bind,
        skipSpace_spaces hw' (by decide : isSpace colon = false), next, ne_eq, not_true, if_false, hover]
    · have hmore := ih fuel (obj.put key v) (by omega)
      simp only [parseMembers, skipSpace_spaces hw hc, hkey, bind, Except.bind,
        skipSpace_spaces hw' (by decide : isSpace colon = false), next, ne_eq, not_true, if_false, hv, hcur,
        (by decide : comma ≠ rbrace), hmore]

/-- The stack overflows exactly on the texts that open more values than it has room for. -/
theorem overflow_iff {src : Bytes} : parse stack src = .error .stackOverflow ↔ Nested .element stack src := by
  constructor
  · intro h
    obtain h | ⟨⟨v, cur⟩, -, hend⟩ := bind_eq_error h
    · exact (nested_of_overflow _ _).1 src h
    · dsimp only at hend
      split at hend
      · cases hend
      · cases hend
  · intro h
    rw [parse, h.overflows _ (by omega)]
    rfl

end Complete

/-! ## A stack that suffices -/

section Room

variable {stack : Nat} {src : Bytes}

theorem read_ne_overflow (src : Bytes) : read src ≠ .error .stackOverflow := by
  intro h
  have hle := (overflow_iff.mp h).le_length
  omega

/-- A larger stack does not change what is read. -/
theorem parse_below {larger : Nat} (h : stack ≤ larger) (src : Bytes) :
    Below .stackOverflow (parse stack src) (parse larger src) :=
  ((below_stack h _).1 _).bind fun _ => .refl _ _

/-- On any stack the parser overflows, or it does what it does with room for every text. -/
theorem parse_cases (stack : Nat) (src : Bytes) :
    parse stack src = .error .stackOverflow ∨ parse stack src = read src := by
  rcases Nat.le_total stack (src.length + 1) with hle | hle
  · exact parse_below hle src
  · rcases parse_below hle src with hover | hsame
    · exact absurd hover (read_ne_overflow src)
    · exact .inr hsame.symm

theorem parse_eq_read (h : ¬Nested .element stack src) : parse stack src = read src :=
  (parse_cases stack src).resolve_left fun hover => h (overflow_iff.mp hover)

theorem overflows_iff : overflows stack src = true ↔ Nested .element stack src := by
  rw [← overflow_iff, overflows]
  split
  · next hover => exact iff_of_true rfl hover
  · next hover => exact iff_of_false Bool.false_ne_true hover

theorem parseObject_eq_readObject (h : ¬Nested .element stack src) : parseObject stack src = readObject src := by
  rw [readObject, parseObject, parseObject, parse_eq_read h, read]

/-- A stack with a call for each character suffices. -/
theorem not_nested_of_length (h : src.length < stack) : ¬Nested .element stack src :=
  fun hnested => absurd hnested.le_length (by omega)

theorem read_of_parse {v : Value} (h : parse stack src = .ok v) : read src = .ok v := by
  rcases parse_cases stack src with hover | hsame
  · rw [hover] at h
    cases h
  · rw [← hsame, h]

theorem readObject_of_parseObject {o : Object} (h : parseObject stack src = some o) : readObject src = some o :=
  parseObject_eq_some.mpr (read_of_parse (parseObject_eq_some.mp h))

theorem bind_readObject {β : Type} {f : Object → Option β} {b : β}
    (h : (parseObject stack src).bind f = some b) : (readObject src).bind f = some b := by
  obtain ⟨o, ho, hb⟩ := Option.bind_eq_some_iff.mp h
  rw [readObject_of_parseObject ho]
  exact hb

theorem read_of_spells {depth : Nat} {text : Bytes} {v : Value} (h : Spells depth text v) : read text = .ok v :=
  read_of_parse (h.parse (Nat.le_refl depth))

/-- The server reads back what it has printed. -/
theorem read_serialize {v : Value} (h : v.Plain) : read v.serialize = .ok v := read_of_spells h.spells

theorem readObject_serialize {o : Object} (h : (Value.obj o).Plain) : readObject (serialize o) = some o :=
  parseObject_eq_some.mpr (read_serialize h)

end Room

/-! ## The parser ends within the text -/

/-- `parse` with any fuel for its recursion. -/
def parseWith (stack fuel : Nat) (src : Bytes) : Except Fault Value := do
  let (v, cur) ← parseValue stack fuel (skipSpace (.at src))
  match skipSpace cur with
  | .at [] => .ok v
  | _ => .error .trailingContent

/-- The parser ends with a value or with an exception, and more fuel does not change
how. It never reads behind the terminator, and it returns a value only at the end of
the text. -/
structure Total (stack : Nat) (src : Bytes) : Prop where
  ends : parse stack src ≠ .error .outOfFuel ∧ parse stack src ≠ .error .stackOverflow
  fuel : ∀ fuel, 2 * src.length + 2 ≤ fuel → parseWith stack fuel src = parse stack src
  bounds : parse stack src ≠ .error .outOfBounds
  consumed : ∀ v, parse stack src = .ok v → ∃ cur,
    parseValue stack (2 * src.length + 2) (skipSpace (.at src)) = .ok (v, cur) ∧ skipSpace cur = .at []

section Total

variable {stack : Nat} {src : Bytes}

/-- The only fault that `parse` adds to those of the value is the text behind it. -/
theorem parse_fault {e : Fault} (h : parse stack src = .error e) : e ≠ .outOfBounds ∧ e ≠ .outOfFuel := by
  obtain ⟨text, hskip, -, hlength⟩ := skipSpace_at src
  have hwithin := (within_parse stack (2 * src.length + 2)).1 text (by omega)
  obtain h | ⟨⟨v, cur⟩, -, hend⟩ := bind_eq_error h
  · rw [hskip] at h
    exact hwithin.fault e h
  · dsimp only at hend
    split at hend
    · cases hend
    · cases hend
      decide

theorem parseWith_eq (stack : Nat) {fuel : Nat} {src : Bytes} (h : 2 * src.length + 2 ≤ fuel) :
    parseWith stack fuel src = parse stack src := by
  obtain ⟨text, hskip, -, hlength⟩ := skipSpace_at src
  have hwithin := (within_parse stack (2 * src.length + 2)).1 text (by omega)
  obtain ⟨more, rfl⟩ := Nat.exists_eq_add_of_le h
  rw [parseWith, parse, hskip]
  rcases below_add stack (2 * src.length + 2) more (.at text) with hout | hsame
  · exact absurd rfl (hwithin.fault _ hout).2
  · exact congrArg (· >>= _) hsame.symm

theorem parse_consumed {v : Value} (h : parse stack src = .ok v) :
    ∃ cur, parseValue stack (2 * src.length + 2) (skipSpace (.at src)) = .ok (v, cur) ∧ skipSpace cur = .at [] := by
  obtain ⟨⟨w, cur⟩, hread, hend⟩ := bind_eq_ok h
  dsimp only at hend
  split at hend
  · next hcur =>
    cases hend
    exact ⟨cur, hread, hcur⟩
  · cases hend

/-- The parser is total on the texts that do not open too many values inside one another. -/
theorem parse_total_iff (stack : Nat) (src : Bytes) : Total stack src ↔ ¬Nested .element stack src := by
  constructor
  · exact fun h hnested => h.ends.2 (overflow_iff.mpr hnested)
  · intro h
    refine ⟨⟨fun hfault => (parse_fault hfault).2 rfl, fun hfault => h (overflow_iff.mp hfault)⟩,
      fun fuel hfuel => parseWith_eq stack hfuel, fun hfault => (parse_fault hfault).1 rfl,
      fun v hv => parse_consumed hv⟩

end Total

theorem nested_brackets {n m : Nat} (h : n ≤ m) : Nested .element n (List.replicate m lbracket) := by
  induction n generalizing m with
  | zero => exact .value _
  | succ n ih =>
    obtain ⟨m, rfl⟩ : ∃ k, m = k + 1 := Nat.exists_eq_add_one.mpr (by omega)
    refine Nested.array (w := []) nofun (.element (ih (Nat.le_of_succ_le_succ h))) ?_
    cases m with
    | zero => exact nofun
    | succ m =>
      rw [List.replicate_succ, List.dropWhile_cons_of_neg (by decide)]
      exact (by decide : some lbracket ≠ some rbracket)

/-- So many opening brackets end the process. -/
theorem brackets_overflow : ¬Total 20000 (List.replicate 20000 lbracket) := by
  intro h
  exact h.ends.2 (overflow_iff.mpr (nested_brackets (Nat.le_refl _)))

end LanChat.Json
