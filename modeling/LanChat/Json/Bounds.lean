import LanChat.Json.NullBytes

/-!
# The parser ends within the text

`next` advances without a look at the end of the text, and several callers call
it first and look later. The null character behind the text stops all of them:
no read is behind it, and the recursion ends (`within_parse`).
-/

namespace LanChat.Json

open Lib Ascii

/-! ## Fuel and stack -/

/-- The second result is the first one, unless that is this fault. -/
def Below {α : Type} (e : Fault) (r r' : Except Fault α) : Prop := r = .error e ∨ r = r'

section Below

variable {α β : Type} {e : Fault} {r r' : Except Fault α}

theorem Below.refl (e : Fault) (r : Except Fault α) : Below e r r := .inr rfl

theorem Below.trans {r'' : Except Fault α} (h : Below e r r') (h' : Below e r' r'') : Below e r r'' := by
  rcases h with rfl | rfl
  · exact .inl rfl
  · exact h'

theorem Below.bind {f f' : α → Except Fault β} (h : Below e r r') (hf : ∀ a, Below e (f a) (f' a)) :
    Below e (r >>= f) (r' >>= f') := by
  rcases h with rfl | rfl
  · exact .inl rfl
  · cases r with
    | error e => exact .inr rfl
    | ok a => exact hf a

theorem Below.ite {b : Prop} [Decidable b] {s s' : Except Fault α} (h : Below e r r') (h' : Below e s s') :
    Below e (if b then r else s) (if b then r' else s') := by
  split
  · exact h
  · exact h'

end Below

/-- More fuel does not change a result for which the fuel has been enough. -/
theorem below_succ (stack fuel : Nat) :
    (∀ cur, Below .outOfFuel (parseValue stack fuel cur) (parseValue stack (fuel + 1) cur)) ∧
      (∀ arr cur, Below .outOfFuel (parseElements stack fuel arr cur) (parseElements stack (fuel + 1) arr cur)) ∧
      ∀ obj cur, Below .outOfFuel (parseMembers stack fuel obj cur) (parseMembers stack (fuel + 1) obj cur) := by
  induction fuel generalizing stack with
  | zero => exact ⟨fun _ => .inl rfl, fun _ _ => .inl rfl, fun _ _ => .inl rfl⟩
  | succ fuel ih =>
    refine ⟨fun cur => ?_, fun arr cur => ?_, fun obj cur => ?_⟩
    · cases stack with
      | zero => exact .refl _ _
      | succ stack =>
        obtain ⟨-, ihElements, ihMembers⟩ := ih stack
        unfold parseValue
        refine .ite (.refl _ _) <| .ite (.refl _ _) <| .ite (.refl _ _) <| .ite (.refl _ _) <|
          .ite (.refl _ _) <| .ite ?_ <| .ite ?_ (.refl _ _)
        · exact (Below.refl _ _).bind fun opened => .ite (.refl _ _) (ihElements [] _)
        · exact (Below.refl _ _).bind fun opened => .ite (.refl _ _) (ihMembers [] _)
    · obtain ⟨ihValue, ihElements, -⟩ := ih stack
      unfold parseElements
      refine (ihValue cur).bind fun read => (Below.refl _ _).bind fun behind => ?_
      exact .ite (.refl _ _) <| .ite (.refl _ _) (ihElements _ _)
    · obtain ⟨ihValue, -, ihMembers⟩ := ih stack
      unfold parseMembers
      refine (Below.refl _ _).bind fun key => (Below.refl _ _).bind fun behind => .ite (.refl _ _) ?_
      refine (ihValue _).bind fun read => (Below.refl _ _).bind fun behind => ?_
      exact .ite (.refl _ _) <| .ite (.refl _ _) (ihMembers _ _)

theorem below_add (stack fuel more : Nat) (cur : Cursor) :
    Below .outOfFuel (parseValue stack fuel cur) (parseValue stack (fuel + more) cur) := by
  induction more with
  | zero => exact .refl _ _
  | succ more ih => exact ih.trans ((below_succ stack (fuel + more)).1 cur)

/-- A larger stack does not change a result for which the stack has been large enough. -/
theorem below_stack {stack stack' : Nat} (h : stack ≤ stack') (fuel : Nat) :
    (∀ cur, Below .stackOverflow (parseValue stack fuel cur) (parseValue stack' fuel cur)) ∧
      (∀ arr cur, Below .stackOverflow (parseElements stack fuel arr cur) (parseElements stack' fuel arr cur)) ∧
      ∀ obj cur, Below .stackOverflow (parseMembers stack fuel obj cur) (parseMembers stack' fuel obj cur) := by
  induction fuel generalizing stack stack' with
  | zero => exact ⟨fun _ => .refl _ _, fun _ _ => .refl _ _, fun _ _ => .refl _ _⟩
  | succ fuel ih =>
    refine ⟨fun cur => ?_, fun arr cur => ?_, fun obj cur => ?_⟩
    · cases stack with
      | zero => exact .inl rfl
      | succ stack =>
        obtain ⟨stack', rfl⟩ := Nat.exists_eq_add_of_lt h
        obtain ⟨-, ihElements, ihMembers⟩ := ih (Nat.le_add_right stack stack')
        unfold parseValue
        refine .ite (.refl _ _) <| .ite (.refl _ _) <| .ite (.refl _ _) <| .ite (.refl _ _) <|
          .ite (.refl _ _) <| .ite ?_ <| .ite ?_ (.refl _ _)
        · exact (Below.refl _ _).bind fun opened => .ite (.refl _ _) (ihElements [] _)
        · exact (Below.refl _ _).bind fun opened => .ite (.refl _ _) (ihMembers [] _)
    · obtain ⟨ihValue, ihElements, -⟩ := ih h
      unfold parseElements
      refine (ihValue cur).bind fun read => (Below.refl _ _).bind fun behind => ?_
      exact .ite (.refl _ _) <| .ite (.refl _ _) (ihElements _ _)
    · obtain ⟨ihValue, -, ihMembers⟩ := ih h
      unfold parseMembers
      refine (Below.refl _ _).bind fun key => (Below.refl _ _).bind fun behind => .ite (.refl _ _) ?_
      refine (ihValue _).bind fun read => (Below.refl _ _).bind fun behind => ?_
      exact .ite (.refl _ _) <| .ite (.refl _ _) (ihMembers _ _)

/-! ## Positions -/

/-- The parser does not read behind the terminator and has enough fuel. If it
succeeds it is at a rest of the text that is shorter by `least` or more. -/
structure Within {α : Type} (least : Nat) (text : Bytes) (r : Except Fault (α × Cursor)) : Prop where
  fault : ∀ e, r = .error e → e ≠ .outOfBounds ∧ e ≠ .outOfFuel
  rest : ∀ a cur, r = .ok (a, cur) → ∃ rest, cur = .at rest ∧ rest <:+ text ∧ rest.length + least ≤ text.length

section Within

variable {α β : Type} {k l : Nat} {text rest : Bytes} {r : Except Fault (α × Cursor)}

theorem within_ok (a : α) (hsuffix : rest <:+ text) (h : rest.length + k ≤ text.length) :
    Within k text (.ok (a, Cursor.at rest)) :=
  ⟨nofun, fun _ _ hok => by
    cases hok
    exact ⟨rest, rfl, hsuffix, h⟩⟩

theorem within_error {e : Fault} (h : e ≠ .outOfBounds ∧ e ≠ .outOfFuel) :
    Within k text (.error e : Except Fault (α × Cursor)) :=
  ⟨fun _ herror => by
    cases herror
    exact h, nofun⟩

/-- What is within a rest of the text is within the text. -/
theorem Within.mono (h : Within k rest r) (hsuffix : rest <:+ text) (hl : rest.length + l ≤ text.length + k) :
    Within l text r :=
  ⟨h.fault, fun a cur hok => by
    obtain ⟨rest', rfl, hrest, hlength⟩ := h.rest a cur hok
    exact ⟨rest', rfl, hrest.trans hsuffix, by omega⟩⟩

theorem Within.bind {f : α × Cursor → Except Fault (β × Cursor)} (h : Within k text r)
    (hf : ∀ a rest, rest <:+ text → rest.length + k ≤ text.length → Within l text (f (a, .at rest))) :
    Within l text (r >>= f) := by
  cases r with
  | error e => exact within_error (h.fault e rfl)
  | ok read =>
    obtain ⟨a, cur⟩ := read
    obtain ⟨rest, rfl, hsuffix, hlength⟩ := h.rest a cur rfl
    exact hf a rest hsuffix hlength

theorem Within.map {f : α × Cursor → β × Cursor} (h : Within k text r) (hf : ∀ a cur, (f (a, cur)).2 = cur) :
    Within k text (r.map f) := by
  refine ⟨fun e he => ?_, fun b cur hok => ?_⟩
  · cases r with
    | error e' =>
      cases he
      exact h.fault e rfl
    | ok read => cases he
  · cases r with
    | error e => cases hok
    | ok read =>
      obtain ⟨a, cur'⟩ := read
      have hcur : cur' = cur := (hf a cur').symm.trans (congrArg Prod.snd (Except.ok.inj hok))
      exact hcur ▸ h.rest a cur' rfl

/-- The character that `next` returns is looked at afterwards: behind the text
it is the null character, which is none of those that the parser goes on with. -/
theorem within_next {f : UInt8 × Cursor → Except Fault (β × Cursor)}
    (hend : ∃ e, f (0, .beyond) = .error e ∧ e ≠ .outOfBounds ∧ e ≠ .outOfFuel)
    (hf : ∀ c rest, text = c :: rest → Within l text (f (c, .at rest))) :
    Within l text (next (.at text) >>= f) := by
  cases text with
  | nil =>
    obtain ⟨e, he, hne⟩ := hend
    show Within l [] (f (0, .beyond))
    rw [he]
    exact within_error hne
  | cons c rest => exact hf c rest rfl

theorem skipSpace_at (text : Bytes) :
    ∃ rest, skipSpace (.at text) = .at rest ∧ rest <:+ text ∧ rest.length ≤ text.length :=
  ⟨text.dropWhile isSpace, rfl, List.dropWhile_suffix _, (List.dropWhile_suffix _).length_le⟩

/-! ## Strings, numbers and literals -/

theorem within_stringLoop (text : Bytes) :
    Within 1 text ((stringLoop text).map fun (s, rest) => (s, Cursor.at rest)) := by
  fun_induction stringLoop text with
  | case1 => exact within_error (by decide)
  | case2 rest => exact within_ok [] (List.suffix_cons _ _) (by simp)
  | case3 => exact within_error (by decide)
  | case4 esc rest _ ih =>
    have hread : Within 1 (backslash :: esc :: rest) _ :=
      (ih.map (f := fun read => (unescape esc :: read.1, read.2)) fun _ _ => rfl).mono
        ((List.suffix_cons _ _).trans (List.suffix_cons _ _)) (by simp)
    cases hloop : stringLoop rest with
    | error e =>
      rw [hloop] at hread
      exact hread
    | ok read =>
      rw [hloop] at hread
      exact hread
  | case5 c rest _ _ ih =>
    have hread : Within 1 (c :: rest) _ :=
      (ih.map (f := fun read => (c :: read.1, read.2)) fun _ _ => rfl).mono (List.suffix_cons _ _) (by simp)
    cases hloop : stringLoop rest with
    | error e =>
      rw [hloop] at hread
      exact hread
    | ok read =>
      rw [hloop] at hread
      exact hread

theorem within_parseString (text : Bytes) : Within 1 text (parseString (.at text)) := by
  refine within_next ⟨_, rfl, by decide⟩ fun c rest htext => ?_
  subst htext
  exact (within_stringLoop rest).mono (List.suffix_cons _ _) (by simp)

/-- No literal contains the null character. -/
theorem within_parseLiteral {expected : Bytes} (hexpected : 0 ∉ expected) (result : Value) (text : Bytes) :
    Within expected.length text (parseLiteral expected result (.at text)) := by
  induction expected generalizing text with
  | nil => exact within_ok result (List.suffix_refl _) (Nat.le_refl _)
  | cons p ps ih =>
    have hp : (0 : UInt8) ≠ p := fun heq => hexpected (heq ▸ List.mem_cons_self)
    refine within_next ⟨.expected, if_neg hp, by decide⟩ fun c rest htext => ?_
    subst htext
    dsimp only
    split
    · exact (ih (fun hmem => hexpected (List.mem_cons_of_mem _ hmem)) rest).mono (List.suffix_cons _ _)
        (by simp only [List.length_cons]; omega)
    · exact within_error (by decide)

/-- A number that is refused is so because it is empty or too large. -/
theorem stoll_cases (neg : Bool) (digits : Bytes) :
    stoll neg digits = .error .badNumber ∨ (digits ≠ [] ∧ ∃ i, stoll neg digits = .ok i) := by
  unfold stoll
  generalize (if neg = true then -(natOf digits : Int) else natOf digits) = n
  dsimp only
  split
  · exact .inl rfl
  · next hdigits =>
    split
    · exact .inr ⟨hdigits, _, rfl⟩
    · exact .inl rfl

theorem within_parseNumber (text : Bytes) : Within 1 text (parseNumber (.at text)) := by
  obtain ⟨body, hbody, hsuffix, hlength⟩ : ∃ body,
      body = (if text.head? = some minus then text.tail else text) ∧ body <:+ text ∧ body.length ≤ text.length := by
    refine ⟨_, rfl, ?_, ?_⟩
    · split
      · exact List.tail_suffix text
      · exact List.suffix_refl text
    · split
      · exact (List.tail_suffix text).length_le
      · exact Nat.le_refl _
  have hspan := congrArg List.length (List.takeWhile_append_dropWhile (p := isDigit) (l := body))
  have hrest : body.dropWhile isDigit <:+ text := (List.dropWhile_suffix _).trans hsuffix
  rw [List.length_append] at hspan
  simp only [parseNumber, ← hbody]
  split
  · next hdot =>
    split
    · exact within_error (by decide)
    split
    · exact within_error (by decide)
    · obtain ⟨tail, htail⟩ : ∃ tail, body.dropWhile isDigit = dot :: tail := by
        cases hdrop : body.dropWhile isDigit with
        | nil =>
          rw [hdrop] at hdot
          cases hdot
        | cons c tail =>
          rw [hdrop] at hdot
          cases hdot
          exact ⟨tail, rfl⟩
      have hfraction : (tail.dropWhile isDigit).length ≤ tail.length := (List.dropWhile_suffix _).length_le
      rw [htail] at hspan hrest ⊢
      refine within_ok _ ((List.dropWhile_suffix _).trans ((List.suffix_cons _ _).trans hrest)) ?_
      rw [List.length_cons] at hspan
      show (tail.dropWhile isDigit).length + 1 ≤ text.length
      omega
  · obtain hstoll | ⟨hdigits, i, hstoll⟩ := stoll_cases (decide (text.head? = some minus)) (body.takeWhile isDigit)
    · rw [hstoll]
      exact within_error (by decide)
    · rw [hstoll]
      have hpos := List.length_pos_iff.mpr hdigits
      exact within_ok _ hrest (by omega)

end Within

/-! ## Values -/

/-- Twice the length of the text is fuel enough. -/
theorem within_parse (stack fuel : Nat) :
    (∀ text : Bytes, 2 * text.length + 1 ≤ fuel → Within 1 text (parseValue stack fuel (.at text))) ∧
      (∀ arr (text : Bytes), 2 * text.length + 2 ≤ fuel → Within 1 text (parseElements stack fuel arr (.at text))) ∧
      ∀ obj (text : Bytes), 2 * text.length + 2 ≤ fuel → Within 1 text (parseMembers stack fuel obj (.at text)) := by
  induction fuel generalizing stack with
  | zero =>
    exact ⟨fun _ h => absurd h (by omega), fun _ _ h => absurd h (by omega), fun _ _ h => absurd h (by omega)⟩
  | succ fuel ih =>
    refine ⟨fun text hfuel => ?_, fun arr text hfuel => ?_, fun obj text hfuel => ?_⟩
    · rcases stack with _ | stack
      · exact within_error (by decide)
      obtain ⟨-, ihElements, ihMembers⟩ := ih stack
      rcases text with _ | ⟨c, rest⟩
      · exact within_error (by decide)
      rw [List.length_cons] at hfuel
      have hrest : rest <:+ c :: rest := List.suffix_cons _ _
      obtain ⟨body, hskip, hbody, hlength⟩ := skipSpace_at rest
      have hopened : ∀ r : Except Fault (Value × Cursor), Within 1 body r → Within 1 (c :: rest) r := fun r h =>
        h.mono (hbody.trans hrest) (by rw [List.length_cons]; omega)
      have hclosed : peek (.at body) ≠ 0 → ∀ v : Value,
          Within 1 body (next (.at body) >>= fun closed => .ok (v, closed.2)) := by
        intro hpeek v
        rcases body with _ | ⟨d, tail⟩
        · exact absurd rfl hpeek
        · exact within_ok v (List.suffix_cons _ _) (by simp)
      have hfirst := parseValue_byFirst stack fuel (.at (c :: rest))
      generalize parseValue (stack + 1) (fuel + 1) (.at (c :: rest)) = result at hfirst ⊢
      cases hfirst with
      | null _ =>
        exact (within_parseLiteral (by decide) _ _).mono (List.suffix_refl _) (Nat.add_le_add_left (by decide) _)
      | true _ =>
        exact (within_parseLiteral (by decide) _ _).mono (List.suffix_refl _) (Nat.add_le_add_left (by decide) _)
      | false _ =>
        exact (within_parseLiteral (by decide) _ _).mono (List.suffix_refl _) (Nat.add_le_add_left (by decide) _)
      | string _ => exact (within_parseString _).map fun _ _ => rfl
      | number _ => exact within_parseNumber _
      | array _ =>
        show Within 1 (c :: rest) (if peek (skipSpace (.at rest)) = rbracket then _ else _)
        rw [hskip]
        split
        · next hpeek => exact hopened _ (hclosed (by rw [hpeek]; decide) _)
        · exact hopened _ (ihElements [] body (by omega))
      | object _ =>
        show Within 1 (c :: rest) (if peek (skipSpace (.at rest)) = rbrace then _ else _)
        rw [hskip]
        split
        · next hpeek => exact hopened _ (hclosed (by rw [hpeek]; decide) _)
        · exact hopened _ (ihMembers [] body (by omega))
      | unexpected => exact within_error (by decide)
    · obtain ⟨ihValue, ihElements, -⟩ := ih stack
      unfold parseElements
      refine (ihValue text (by omega)).bind fun v rest hrest hlength => ?_
      obtain ⟨behind, hskip, hbehind, hbehind'⟩ := skipSpace_at rest
      dsimp only
      rw [hskip]
      refine @Within.mono _ 1 _ _ behind _ ?_ (hbehind.trans hrest) (by omega)
      refine within_next ⟨_, rfl, by decide⟩ fun c tail htail => ?_
      subst htail
      rw [List.length_cons] at hbehind'
      dsimp only
      split
      · exact within_ok _ (List.suffix_cons _ _) (by simp)
      split
      · exact within_error (by decide)
      · obtain ⟨next, hskip', hnext, hnext'⟩ := skipSpace_at tail
        rw [hskip']
        exact (ihElements _ next (by omega)).mono (hnext.trans (List.suffix_cons _ _))
          (by rw [List.length_cons]; omega)
    · obtain ⟨ihValue, -, ihMembers⟩ := ih stack
      unfold parseMembers
      obtain ⟨front, hskip, hfront, hlength⟩ := skipSpace_at text
      rw [hskip]
      refine @Within.mono _ 1 _ _ front _ ?_ hfront (by omega)
      refine (within_parseString front).bind fun key rest hrest hkey => ?_
      obtain ⟨behind, hskip, hbehind, hbehind'⟩ := skipSpace_at rest
      dsimp only
      rw [hskip]
      refine @Within.mono _ 1 _ _ behind _ ?_ (hbehind.trans hrest) (by omega)
      refine within_next ⟨_, rfl, by decide⟩ fun c tail htail => ?_
      subst htail
      rw [List.length_cons] at hbehind'
      dsimp only
      split
      · exact within_error (by decide)
      obtain ⟨value, hskip, hvalue, hvalue'⟩ := skipSpace_at tail
      rw [hskip]
      refine @Within.mono _ 1 _ _ value _ ?_ (hvalue.trans (List.suffix_cons _ _))
        (by rw [List.length_cons]; omega)
      refine (ihValue value (by omega)).bind fun v last hlast hread => ?_
      obtain ⟨closing, hskip, hclosing, hclosing'⟩ := skipSpace_at last
      dsimp only
      rw [hskip]
      refine @Within.mono _ 1 _ _ closing _ ?_ (hclosing.trans hlast) (by omega)
      refine within_next ⟨_, rfl, by decide⟩ fun d more hmore => ?_
      subst hmore
      rw [List.length_cons] at hclosing'
      dsimp only
      split
      · exact within_ok _ (List.suffix_cons _ _) (by simp)
      split
      · exact within_error (by decide)
      · exact (ihMembers _ more (by omega)).mono (List.suffix_cons _ _) (by rw [List.length_cons]; omega)

end LanChat.Json
