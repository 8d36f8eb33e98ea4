import Mathlib.Data.List.DropRight
import Mathlib.Data.List.TakeWhile
import LanChat.Lib.Rfc8259
import LanChat.Json.Bounds
import LanChat.Json.RoundTrip

/-!
# The texts that the parser accepts

A grammar of the texts that `parse` accepts, and the tokens of such a text. It
is looser than JSON in its tokens: a key opens with any character, in a string
any byte may stand as it is or behind a backslash, and a number may have leading
zeros or no digits on one side of the point. `accepts_iff`: an object of this
grammar is what `parseObject` accepts.
-/

namespace LanChat.Json

open Lib Ascii Rfc8259

/-- A token whose form the parser does not check in full. -/
inductive Token where
  | key (text : Bytes)
  | string (text : Bytes)
  | number (text : Bytes)
deriving DecidableEq, Repr

/-- The token is one of JSON. -/
def Token.Strict : Token → Prop
  | key text | string text => IsString text
  | number text => IsNumber text

/-- What `parse_string` reads behind the first character: up to the first quote
that has no backslash in front of it. -/
inductive Body : Bytes → Prop where
  | close : Body [dquote]
  | plain (c : UInt8) {t : Bytes} (hquote : c ≠ dquote) (hslash : c ≠ backslash) (h : Body t) : Body (c :: t)
  | escaped (c : UInt8) {t : Bytes} (h : Body t) : Body (backslash :: c :: t)

/-- The digits are a number that fits its type: without a point one of 64 bits,
with a point a `double`. -/
def Fits (sign whole : Bytes) : Option Bytes → Prop
  | none => whole ≠ [] ∧ ∃ i, stoll (sign ≠ []) whole = .ok i
  | some fraction => (sign ≠ [] ∨ whole ≠ []) ∧ ¬(whole = [] ∧ fraction = []) ∧
    ∃ d, stod (sign ≠ []) (natOf (whole ++ fraction)) fraction.length = some d

/-- What `parse_number` reads: a sign, digits, and perhaps a point and digits. -/
def IsLooseNumber (t : Bytes) : Prop :=
  ∃ sign whole fraction, t = sign ++ whole ++ (fraction.elim [] fun ds => dot :: ds) ∧ sign ∈ [[], [minus]] ∧
    (∀ c ∈ whole, isDigit c = true) ∧ (∀ c ∈ fraction.getD [], isDigit c = true) ∧ Fits sign whole fraction

/-- The texts that the parser reads, with their tokens. -/
inductive Reads : Part → Bytes → List Token → Prop where
  | literalNull : Reads .value (lit "null") []
  | literalTrue : Reads .value (lit "true") []
  | literalFalse : Reads .value (lit "false") []
  | number {t : Bytes} (h : IsLooseNumber t) : Reads .value t [.number t]
  | string {t : Bytes} (h : Body t) : Reads .value (dquote :: t) [.string (dquote :: t)]
  | emptyArray {w : Bytes} (hw : ∀ c ∈ w, isSpace c = true) : Reads .value (lbracket :: (w ++ [rbracket])) []
  | array {t : Bytes} {tokens : List Token} (h : Reads .elements t tokens) :
    Reads .value (lbracket :: (t ++ [rbracket])) tokens
  | emptyObject {w : Bytes} (hw : ∀ c ∈ w, isSpace c = true) : Reads .value (lbrace :: (w ++ [rbrace])) []
  /-- A key that opens with a brace would close the object. -/
  | object {t : Bytes} {tokens : List Token} (h : Reads .members t tokens)
    (hopen : (t.dropWhile isSpace).head? ≠ some rbrace) : Reads .value (lbrace :: (t ++ [rbrace])) tokens
  | element {w t w' : Bytes} {tokens : List Token} (hw : ∀ c ∈ w, isSpace c = true) (h : Reads .value t tokens)
    (hw' : ∀ c ∈ w', isSpace c = true) : Reads .element (w ++ (t ++ w')) tokens
  | lastElement {t : Bytes} {tokens : List Token} (h : Reads .element t tokens) : Reads .elements t tokens
  | elements {t ts : Bytes} {tokens more : List Token} (h : Reads .element t tokens) (hs : Reads .elements ts more) :
    Reads .elements (t ++ comma :: ts) (tokens ++ more)
  | lastMember {w k w' t : Bytes} {c : UInt8} {tokens : List Token} (hw : ∀ c ∈ w, isSpace c = true)
    (hc : isSpace c = false) (hk : Body k) (hw' : ∀ c ∈ w', isSpace c = true) (h : Reads .element t tokens) :
    Reads .members (w ++ c :: (k ++ (w' ++ colon :: t))) (.key (c :: k) :: tokens)
  | members {w k w' t ts : Bytes} {c : UInt8} {tokens more : List Token} (hw : ∀ c ∈ w, isSpace c = true)
    (hc : isSpace c = false) (hk : Body k) (hw' : ∀ c ∈ w', isSpace c = true) (h : Reads .element t tokens)
    (hs : Reads .members ts more) :
    Reads .members (w ++ c :: (k ++ (w' ++ colon :: (t ++ comma :: ts)))) (.key (c :: k) :: (tokens ++ more))

/-- The text is that of an object, with spaces around it. -/
def ReadsObject (s : Bytes) (tokens : List Token) : Prop :=
  ∃ w t w', s = w ++ (t ++ w') ∧ (∀ c ∈ w, isSpace c = true) ∧ (∀ c ∈ w', isSpace c = true) ∧
    Reads .value t tokens ∧ t.head? = some lbrace

/-! ## The parser reads only such texts -/

section Soundness

variable {text rest : Bytes} {cur : Cursor} {v : Value}

theorem split_space (text : Bytes) :
    ∃ w, text = w ++ text.dropWhile isSpace ∧ ∀ c ∈ w, isSpace c = true :=
  ⟨text.takeWhile isSpace, (List.takeWhile_append_dropWhile).symm, fun _ hc => List.mem_takeWhile_imp hc⟩

/-- Behind the spaces there is no space. -/
theorem isSpace_of_dropWhile {c : UInt8} (h : text.dropWhile isSpace = c :: rest) : isSpace c = false := by
  have hhead := List.head?_dropWhile_not isSpace text
  rw [h] at hhead
  exact hhead

theorem body_of_stringLoop {s : Bytes} (h : stringLoop text = .ok (s, rest)) :
    ∃ t, text = t ++ rest ∧ Body t := by
  fun_induction stringLoop text generalizing s with
  | case1 => cases h
  | case2 tail =>
    cases h
    exact ⟨[dquote], rfl, .close⟩
  | case3 => cases h
  | case4 esc tail _ ih =>
    obtain ⟨⟨s', rest'⟩, hloop, hpair⟩ := map_eq_ok h
    cases hpair
    obtain ⟨t, rfl, ht⟩ := ih hloop
    exact ⟨_ :: esc :: t, rfl, .escaped esc ht⟩
  | case5 c tail hquote hslash ih =>
    obtain ⟨⟨s', rest'⟩, hloop, hpair⟩ := map_eq_ok h
    cases hpair
    obtain ⟨t, rfl, ht⟩ := ih hloop
    exact ⟨c :: t, rfl, .plain c hquote hslash ht⟩

theorem reads_of_parseString {s : Bytes} (h : parseString (.at text) = .ok (s, cur)) :
    ∃ c t rest, text = c :: (t ++ rest) ∧ cur = .at rest ∧ Body t := by
  obtain ⟨⟨c, mid⟩, hnext, hrest⟩ := bind_eq_ok h
  rcases text with _ | ⟨c', tail⟩
  · cases hnext
    cases hrest
  · cases hnext
    obtain ⟨⟨s', rest⟩, hloop, hpair⟩ := map_eq_ok hrest
    cases hpair
    obtain ⟨t, rfl, ht⟩ := body_of_stringLoop hloop
    exact ⟨c, t, rest, rfl, rfl, ht⟩

theorem reads_of_parseLiteral {expected : Bytes} {result : Value} (hexpected : 0 ∉ expected)
    (h : parseLiteral expected result (.at text) = .ok (v, cur)) :
    ∃ rest, text = expected ++ rest ∧ cur = .at rest ∧ v = result := by
  induction expected generalizing text with
  | nil =>
    cases h
    exact ⟨text, rfl, rfl, rfl⟩
  | cons p ps ih =>
    obtain ⟨⟨c, mid⟩, hnext, hrest⟩ := bind_eq_ok h
    dsimp only at hrest
    split at hrest
    · next hc =>
      rcases text with _ | ⟨c', tail⟩
      · cases hnext
        exact absurd (hc ▸ List.mem_cons_self) hexpected
      · cases hnext
        subst hc
        obtain ⟨rest, rfl, hcur, hv⟩ := ih (fun hmem => hexpected (List.mem_cons_of_mem _ hmem)) hrest
        exact ⟨rest, rfl, hcur, hv⟩
    · cases hrest

/-- A text and the sign that `parse_number` takes off it. -/
theorem split_sign (text : Bytes) :
    ∃ sign body, text = sign ++ body ∧ sign ∈ [[], [minus]] ∧
      body = (if text.head? = some minus then text.tail else text) ∧
      decide (text.head? = some minus) = decide (sign ≠ []) := by
  rcases text with _ | ⟨c, tail⟩
  · exact ⟨[], [], rfl, by simp, rfl, rfl⟩
  rcases eq_or_ne c minus with rfl | hc
  · exact ⟨[minus], tail, rfl, by simp, rfl, rfl⟩
  · exact ⟨[], c :: tail, rfl, by simp, by simp [hc], by simp [hc]⟩

theorem reads_of_parseNumber (hhead : ∃ c, text.head? = some c ∧ (c = minus ∨ isDigit c = true))
    (h : parseNumber (.at text) = .ok (v, cur)) :
    ∃ t rest, text = t ++ rest ∧ cur = .at rest ∧ IsLooseNumber t ∧ ∀ o, v ≠ .obj o := by
  obtain ⟨sign, body, htext, hsign, hbody, hneg⟩ := split_sign text
  have hdigits : ∀ c ∈ body.takeWhile isDigit, isDigit c = true := fun _ hc => List.mem_takeWhile_imp hc
  have hspan : body.takeWhile isDigit ++ body.dropWhile isDigit = body := List.takeWhile_append_dropWhile
  simp only [parseNumber, ← hbody, hneg] at h
  split at h
  · next hdot =>
    obtain ⟨tail, htail⟩ : ∃ tail, body.dropWhile isDigit = dot :: tail := by
      cases hdrop : body.dropWhile isDigit with
      | nil =>
        rw [hdrop] at hdot
        cases hdot
      | cons c tail =>
        rw [hdrop] at hdot
        cases hdot
        exact ⟨tail, rfl⟩
    rw [htail, List.tail_cons] at h
    split at h
    · cases h
    next hsome =>
    split at h
    · cases h
    next d hd =>
    cases h
    refine ⟨sign ++ body.takeWhile isDigit ++ dot :: tail.takeWhile isDigit, tail.dropWhile isDigit, ?_, rfl,
      ⟨sign, body.takeWhile isDigit, some (tail.takeWhile isDigit), rfl, hsign, hdigits,
        fun _ hc => List.mem_takeWhile_imp hc, ?_, hsome, d, hd⟩, fun _ h => by cases h⟩
    · simp only [List.append_assoc, List.cons_append, List.takeWhile_append_dropWhile]
      rw [← htail, hspan, htext]
    · by_contra hnone
      obtain ⟨hnosign, hnowhole⟩ := not_or.mp hnone
      obtain ⟨c, hc, hfirst⟩ := hhead
      rw [htext, not_not.mp hnosign, List.nil_append, ← hspan, not_not.mp hnowhole, List.nil_append, htail] at hc
      cases hc
      exact absurd hfirst (by decide)
  · obtain ⟨i, hi, hpair⟩ := map_eq_ok h
    cases hpair
    have hsome : body.takeWhile isDigit ≠ [] := by
      intro hnil
      rw [hnil, stoll, if_pos rfl] at hi
      cases hi
    refine ⟨sign ++ body.takeWhile isDigit, body.dropWhile isDigit, ?_, rfl,
      ⟨sign, body.takeWhile isDigit, none, by simp, hsign, hdigits, (fun _ h => by cases h), hsome, i, hi⟩,
      fun _ h => by cases h⟩
    rw [List.append_assoc, hspan, htext]

/-- Spaces in front of the first key belong to it. -/
theorem Reads.spaces_members {w t : Bytes} {tokens : List Token} (hw : ∀ c ∈ w, isSpace c = true)
    (h : Reads .members t tokens) : Reads .members (w ++ t) tokens := by
  cases h with
  | lastMember hw₁ hc hk hw' h =>
    rw [← List.append_assoc]
    exact .lastMember (List.forall_mem_append.mpr ⟨hw, hw₁⟩) hc hk hw' h
  | members hw₁ hc hk hw' h hs =>
    rw [← List.append_assoc]
    exact .members (List.forall_mem_append.mpr ⟨hw, hw₁⟩) hc hk hw' h hs

theorem IsLooseNumber.head {t : Bytes} (h : IsLooseNumber t) :
    ∃ c tail, t = c :: tail ∧ (c = minus ∨ isDigit c = true) := by
  obtain ⟨sign, whole, fraction, rfl, hsign, hwhole, -, hfits⟩ := h
  rcases sign with _ | ⟨s, sign⟩
  · rcases whole with _ | ⟨c, whole⟩
    · cases fraction with
      | none => exact absurd rfl hfits.1
      | some ds => exact absurd hfits.1 (by simp)
    · exact ⟨c, _, rfl, .inr (hwhole c List.mem_cons_self)⟩
  · refine ⟨s, _, rfl, .inl ?_⟩
    simp only [List.mem_cons, List.not_mem_nil, or_false, reduceCtorEq, false_or, List.cons.injEq] at hsign
    exact hsign.1

/-- A value begins with a character that is no space and closes no array. -/
theorem Reads.head {t : Bytes} {tokens : List Token} (h : Reads .value t tokens) :
    ∃ c tail, t = c :: tail ∧ isSpace c = false ∧ c ≠ rbracket := by
  cases h with
  | number h =>
    obtain ⟨c, tail, htext, hc⟩ := h.head
    exact ⟨c, tail, htext, (isSpace_number hc).1, (isSpace_number hc).2.1⟩
  | _ => exact ⟨_, _, rfl, by decide, by decide⟩

theorem Reads.ne_nil {t : Bytes} {tokens : List Token} (h : Reads .members t tokens) : t ≠ [] := by
  cases h with
  | _ => simp

/-- Behind the spaces there is the character that closes an array or object. -/
theorem reads_of_closed {c : UInt8} (hc : c ≠ 0) {v v' : Value} (hpeek : peek (skipSpace (.at text)) = c)
    (h : (next (skipSpace (.at text)) >>= fun closed => .ok (v, closed.2)) = .ok (v', cur)) :
    ∃ w rest, text = w ++ c :: rest ∧ cur = .at rest ∧ v' = v ∧ ∀ d ∈ w, isSpace d = true := by
  obtain ⟨w, htext, hw⟩ := split_space text
  have hskip : skipSpace (.at text) = .at (text.dropWhile isSpace) := rfl
  rw [hskip] at hpeek h
  cases hbody : text.dropWhile isSpace with
  | nil =>
    rw [hbody] at hpeek
    exact absurd hpeek.symm hc
  | cons d rest =>
    rw [hbody] at hpeek h htext
    cases h
    have hd : d = c := hpeek
    rw [hd] at htext
    exact ⟨w, rest, htext, rfl, rfl, hw⟩

/-- What `next` returns behind the spaces, if it is looked for. -/
theorem next_skipSpace {mid : Cursor} {c : UInt8} (hc : c ≠ 0) (h : next (skipSpace (.at text)) = .ok (c, mid)) :
    ∃ w rest, text = w ++ c :: rest ∧ mid = .at rest ∧ ∀ d ∈ w, isSpace d = true := by
  obtain ⟨w, htext, hw⟩ := split_space text
  have hskip : skipSpace (.at text) = .at (text.dropWhile isSpace) := rfl
  rw [hskip] at h
  cases hbody : text.dropWhile isSpace with
  | nil =>
    rw [hbody] at h
    cases h
    exact absurd rfl hc
  | cons d rest =>
    rw [hbody] at h htext
    cases h
    exact ⟨w, rest, htext, rfl, hw⟩

/-- The value that has been read is that of a text of the grammar. -/
theorem reads_of_parse (stack fuel : Nat) :
    (∀ (text : Bytes) v cur, parseValue stack fuel (.at text) = .ok (v, cur) → ∃ t rest tokens,
      text = t ++ rest ∧ cur = .at rest ∧ Reads .value t tokens ∧ ((∃ o, v = .obj o) → t.head? = some lbrace)) ∧
    (∀ arr (text : Bytes) v cur, parseElements stack fuel arr (skipSpace (.at text)) = .ok (v, cur) →
      (∀ o, v ≠ .obj o) ∧ ∃ t rest tokens,
        text = t ++ rbracket :: rest ∧ cur = .at rest ∧ Reads .elements t tokens) ∧
    ∀ obj (text : Bytes) v cur, parseMembers stack fuel obj (.at text) = .ok (v, cur) → ∃ t rest tokens,
      text = t ++ rbrace :: rest ∧ cur = .at rest ∧ Reads .members t tokens := by
  induction fuel generalizing stack with
  | zero => exact ⟨(fun _ _ _ h => by cases h), (fun _ _ _ _ h => by cases h), fun _ _ _ _ h => by cases h⟩
  | succ fuel ih =>
    refine ⟨fun text v cur h => ?_, fun arr text v cur h => ?_, fun obj text v cur h => ?_⟩
    · rcases stack with _ | stack
      · cases h
      obtain ⟨-, ihElements, ihMembers⟩ := ih stack
      rcases text with _ | ⟨c, tail⟩
      · cases h
      have hfirst := parseValue_byFirst stack fuel (.at (c :: tail))
      generalize parseValue (stack + 1) (fuel + 1) (.at (c :: tail)) = result at h hfirst
      cases hfirst with
      | null _ =>
        obtain ⟨rest, htext, hcur, rfl⟩ := reads_of_parseLiteral (by decide) h
        exact ⟨_, rest, [], htext, hcur, .literalNull, fun h => by cases h.choose_spec⟩
      | true _ =>
        obtain ⟨rest, htext, hcur, rfl⟩ := reads_of_parseLiteral (by decide) h
        exact ⟨_, rest, [], htext, hcur, .literalTrue, fun h => by cases h.choose_spec⟩
      | false _ =>
        obtain ⟨rest, htext, hcur, rfl⟩ := reads_of_parseLiteral (by decide) h
        exact ⟨_, rest, [], htext, hcur, .literalFalse, fun h => by cases h.choose_spec⟩
      | string hquote =>
        obtain rfl : c = dquote := hquote
        obtain ⟨⟨s, mid⟩, hstring, hpair⟩ := map_eq_ok h
        cases hpair
        obtain ⟨c, t, rest, htext, hcur, ht⟩ := reads_of_parseString hstring
        cases htext
        exact ⟨dquote :: t, rest, _, rfl, hcur, .string ht, fun h => by cases h.choose_spec⟩
      | number hnumber =>
        obtain ⟨t, rest, htext, hcur, ht, hv⟩ := @reads_of_parseNumber (c :: tail) _ _
          ⟨c, rfl, hnumber⟩ h
        exact ⟨t, rest, _, htext, hcur, .number ht, fun h => absurd h (not_exists.mpr hv)⟩
      | array hopen =>
        obtain rfl : c = lbracket := hopen
        change (if peek (skipSpace (.at tail)) = rbracket then _ else _) = _ at h
        split at h
        · next hclose =>
          obtain ⟨w, rest, rfl, hcur, rfl, hw⟩ := reads_of_closed (by decide) hclose h
          exact ⟨lbracket :: (w ++ [rbracket]), rest, [], by simp, hcur, .emptyArray hw,
            fun h => by cases h.choose_spec⟩
        · obtain ⟨hv, t, rest, tokens, rfl, hcur, ht⟩ := ihElements [] tail v cur h
          exact ⟨lbracket :: (t ++ [rbracket]), rest, tokens, by simp, hcur, .array ht,
            fun h => absurd h (not_exists.mpr hv)⟩
      | object hopen =>
        obtain rfl : c = lbrace := hopen
        change (if peek (skipSpace (.at tail)) = rbrace then _ else _) = _ at h
        split at h
        · next hclose =>
          obtain ⟨w, rest, rfl, hcur, rfl, hw⟩ := reads_of_closed (by decide) hclose h
          exact ⟨lbrace :: (w ++ [rbrace]), rest, [], by simp, hcur, .emptyObject hw, fun _ => rfl⟩
        · next hclose =>
          obtain ⟨t, rest, tokens, htext, hcur, ht⟩ := ihMembers [] (tail.dropWhile isSpace) v cur h
          obtain ⟨w, hsplit, hw⟩ := split_space tail
          refine ⟨lbrace :: ((w ++ t) ++ [rbrace]), rest, tokens, ?_, hcur,
            .object (ht.spaces_members hw) ?_, fun _ => rfl⟩
          · rw [hsplit, htext]
            simp
          · obtain ⟨c, t', rfl⟩ : ∃ c t', t = c :: t' := List.exists_cons_of_ne_nil ht.ne_nil
            have hc : isSpace c = false := isSpace_of_dropWhile htext
            rw [List.dropWhile_append_of_pos hw,
              List.dropWhile_cons_of_neg (by rw [hc]; exact Bool.false_ne_true), List.head?_cons]
            have hfirst : peek (skipSpace (.at tail)) = c := by
              show peek (.at (tail.dropWhile isSpace)) = c
              rw [htext]
              rfl
            rw [hfirst] at hclose
            exact fun heq => hclose (Option.some.inj heq)
      | unexpected => cases h
    · obtain ⟨ihValue, ihElements, -⟩ := ih stack
      obtain ⟨⟨w, mid⟩, hvalue, hrest⟩ := bind_eq_ok h
      obtain ⟨sp, hsplit, hsp⟩ := split_space text
      obtain ⟨t, rest, tokens, htext, rfl, ht, -⟩ := ihValue (text.dropWhile isSpace) w mid hvalue
      obtain ⟨⟨c, mid'⟩, hnext, hrest⟩ := bind_eq_ok hrest
      dsimp only at hrest hnext
      split at hrest
      · next hc =>
        cases hrest
        subst hc
        obtain ⟨sp', rest', rfl, rfl, hsp'⟩ := next_skipSpace (by decide) hnext
        refine ⟨(fun _ h => by cases h), sp ++ (t ++ sp'), rest', tokens, ?_, rfl, .lastElement (.element hsp ht hsp')⟩
        rw [hsplit, htext]
        simp
      split at hrest
      · cases hrest
      · next hc =>
        obtain rfl : c = comma := not_not.mp hc
        obtain ⟨sp', rest', rfl, rfl, hsp'⟩ := next_skipSpace (by decide) hnext
        obtain ⟨hv, ts, last, more, rfl, rfl, hts⟩ := ihElements _ rest' v cur hrest
        refine ⟨hv, (sp ++ (t ++ sp')) ++ comma :: ts, last, tokens ++ more, ?_, rfl,
          .elements (.element hsp ht hsp') hts⟩
        rw [hsplit, htext]
        simp
    · obtain ⟨ihValue, -, ihMembers⟩ := ih stack
      unfold parseMembers at h
      obtain ⟨⟨key, mid⟩, hstring, hrest⟩ := bind_eq_ok h
      obtain ⟨sp, hsplit, hsp⟩ := split_space text
      obtain ⟨c, k, rest, htext, rfl, hk⟩ := @reads_of_parseString (text.dropWhile isSpace) _ _ hstring
      have hc : isSpace c = false := isSpace_of_dropWhile htext
      obtain ⟨⟨d, mid'⟩, hcolon, hrest⟩ := bind_eq_ok hrest
      dsimp only at hrest hcolon
      split at hrest
      · cases hrest
      next hd =>
      obtain rfl : d = colon := not_not.mp hd
      obtain ⟨sp', rest', rfl, rfl, hsp'⟩ := next_skipSpace (by decide) hcolon
      obtain ⟨⟨w, behind⟩, hvalue, hrest⟩ := bind_eq_ok hrest
      obtain ⟨spv, hsplitv, hspv⟩ := split_space rest'
      obtain ⟨t, last, tokens, htextv, rfl, ht, -⟩ := ihValue (rest'.dropWhile isSpace) w behind hvalue
      obtain ⟨⟨e, mid''⟩, hnext, hrest⟩ := bind_eq_ok hrest
      dsimp only at hrest hnext
      split at hrest
      · next he =>
        cases hrest
        subst he
        obtain ⟨spe, rest'', rfl, rfl, hspe⟩ := next_skipSpace (by decide) hnext
        refine ⟨sp ++ c :: (k ++ (sp' ++ colon :: (spv ++ (t ++ spe)))), rest'', _, ?_, rfl,
          .lastMember hsp hc hk hsp' (.element hspv ht hspe)⟩
        rw [hsplit, htext, hsplitv, htextv]
        simp
      split at hrest
      · cases hrest
      · next he =>
        obtain rfl : e = comma := not_not.mp he
        obtain ⟨spe, rest'', rfl, rfl, hspe⟩ := next_skipSpace (by decide) hnext
        obtain ⟨ts, final, more, rfl, rfl, hts⟩ := ihMembers _ rest'' v cur hrest
        refine ⟨sp ++ c :: (k ++ (sp' ++ colon :: ((spv ++ (t ++ spe)) ++ comma :: ts))), final, _, ?_, rfl,
          .members hsp hc hk hsp' (.element hspv ht hspe) hts⟩
        rw [hsplit, htext, hsplitv, htextv]
        simp

end Soundness

/-! ## The parser reads all such texts -/

section Completeness

variable {t rest : Bytes} {tokens : List Token}

/-- The text goes on with something that ends a value, if it goes on. -/
def Closes (rest : Bytes) : Prop := ∀ c, rest.head? = some c → isSpace c = false ∧ isDigit c = false ∧ c ≠ dot

theorem closes_nil : Closes [] := nofun

theorem closes_cons {c : UInt8} (rest : Bytes) (h : isSpace c = false ∧ isDigit c = false ∧ c ≠ dot) :
    Closes (c :: rest) := fun _ hd => by
  cases hd
  exact h

theorem isDigit_space {c : UInt8} (h : isSpace c = true) : isDigit c = false ∧ c ≠ dot := by
  simp only [isSpace, Bool.or_eq_true, decide_eq_true_eq] at h
  rcases h with ((rfl | rfl) | rfl) | rfl <;> decide

/-- Spaces and then something that ends a value. -/
theorem Closes.stops {w : Bytes} (hw : ∀ c ∈ w, isSpace c = true) (h : Closes rest) : Stops (w ++ rest) := by
  intro c hc
  rcases w with _ | ⟨d, w⟩
  · exact (h c hc).2
  · cases hc
    exact isDigit_space (hw _ List.mem_cons_self)

theorem Closes.skipSpace {w : Bytes} (hw : ∀ c ∈ w, isSpace c = true) (h : Closes rest) :
    skipSpace (.at (w ++ rest)) = .at rest := by
  rw [Json.skipSpace, List.dropWhile_append_of_pos hw]
  rcases rest with _ | ⟨c, rest⟩
  · rfl
  · rw [List.dropWhile_cons_of_neg (by rw [(h c rfl).1]; exact Bool.false_ne_true)]

theorem skipSpace_spaces {w : Bytes} {c : UInt8} (hw : ∀ c ∈ w, isSpace c = true) (hc : isSpace c = false) :
    skipSpace (.at (w ++ c :: rest)) = .at (c :: rest) := by
  rw [skipSpace, List.dropWhile_append_of_pos hw, List.dropWhile_cons_of_neg (by rw [hc]; exact Bool.false_ne_true)]

theorem Body.stringLoop (h : Body t) (rest : Bytes) : ∃ s, stringLoop (t ++ rest) = .ok (s, rest) := by
  induction h with
  | close => exact ⟨[], by rw [List.singleton_append, Json.stringLoop.eq_def]; rfl⟩
  | plain c hquote hslash _ ih =>
    obtain ⟨s, hs⟩ := ih
    refine ⟨c :: s, ?_⟩
    rw [List.cons_append, Json.stringLoop.eq_def]
    simp only [if_neg hquote, if_neg hslash, hs]
    rfl
  | escaped c _ ih =>
    obtain ⟨s, hs⟩ := ih
    refine ⟨unescape c :: s, ?_⟩
    rw [List.cons_append, List.cons_append, Json.stringLoop.eq_def]
    simp only [(by decide : backslash ≠ dquote), if_false, if_true, hs]
    rfl

theorem Body.parseString (h : Body t) (c : UInt8) (rest : Bytes) :
    ∃ s, parseString (.at (c :: (t ++ rest))) = .ok (s, .at rest) := by
  obtain ⟨s, hs⟩ := h.stringLoop rest
  refine ⟨s, ?_⟩
  simp only [Json.parseString, next, bind, Except.bind, hs, Except.map]

/-- The sign is taken off, and then the digits are read. -/
theorem parseNumber_sign {sign body : Bytes} (hsign : sign ∈ [[], [minus]])
    (hbody : sign = [] → body.head? ≠ some minus) :
    (if (sign ++ body).head? = some minus then (sign ++ body).tail else sign ++ body) = body ∧
      decide ((sign ++ body).head? = some minus) = decide (sign ≠ []) := by
  simp only [List.mem_cons, List.not_mem_nil, or_false] at hsign
  rcases hsign with rfl | rfl
  · rw [List.nil_append, if_neg (hbody rfl)]
    exact ⟨rfl, by simpa using hbody rfl⟩
  · exact ⟨rfl, rfl⟩

theorem span_digits {whole behind : Bytes} (hwhole : ∀ c ∈ whole, isDigit c = true)
    (h : ∀ c, behind.head? = some c → isDigit c = false) :
    (whole ++ behind).takeWhile isDigit = whole ∧ (whole ++ behind).dropWhile isDigit = behind := by
  rw [List.takeWhile_append_of_pos hwhole, List.dropWhile_append_of_pos hwhole]
  rcases behind with _ | ⟨c, behind⟩
  · exact ⟨List.append_nil _, rfl⟩
  · have hc := h c rfl
    exact ⟨by simp [hc], by simp [hc]⟩

theorem IsLooseNumber.parseNumber (h : IsLooseNumber t) (hrest : Stops rest) :
    ∃ v, parseNumber (.at (t ++ rest)) = .ok (v, .at rest) := by
  obtain ⟨sign, whole, fraction, rfl, hsign, hwhole, hfraction, hfits⟩ := h
  have hfirst : ∀ behind : Bytes, sign = [] → whole ≠ [] → (whole ++ behind).head? ≠ some minus := by
    intro behind _ hne
    obtain ⟨c, tail, rfl⟩ := List.exists_cons_of_ne_nil hne
    intro hc
    cases hc
    exact absurd (hwhole minus List.mem_cons_self) (by decide)
  cases fraction with
  | none =>
    obtain ⟨hne, i, hi⟩ := hfits
    obtain ⟨hbody, hneg⟩ := @parseNumber_sign sign (whole ++ rest) hsign fun hnil => hfirst rest hnil hne
    obtain ⟨htake, hdrop⟩ := span_digits hwhole fun c hc => (hrest c hc).1
    have hdot : rest.head? ≠ some dot := fun hd => (hrest dot hd).2 rfl
    refine ⟨.int i, ?_⟩
    simp only [Option.elim_none, List.append_nil, List.append_assoc, Json.parseNumber, hbody, hneg, htake, hdrop,
      hdot, if_false, hi, Except.map]
  | some ds =>
    obtain ⟨hsome, hdigits, d, hd⟩ := hfits
    obtain ⟨hbody, hneg⟩ := @parseNumber_sign sign (whole ++ dot :: (ds ++ rest)) hsign fun hnil =>
      hfirst _ hnil (hsome.resolve_left (not_not.mpr hnil))
    obtain ⟨htake, hdrop⟩ := @span_digits whole (dot :: (ds ++ rest)) hwhole fun c hc => by
      cases hc
      decide
    obtain ⟨htake', hdrop'⟩ := span_digits hfraction fun c hc => (hrest c hc).1
    refine ⟨.float d, ?_⟩
    rw [Option.getD_some] at htake' hdrop'
    simp only [Option.elim_some, List.append_assoc, List.cons_append, Json.parseNumber, hbody, hneg, htake, hdrop,
      List.head?_cons, if_true, List.tail_cons, htake', hdrop', hdigits, if_false, hd]

/-- The parser reads the part of the text and stops behind it. The nesting of a text
is no deeper than its length. -/
def Accepted : Part → Bytes → Prop
  | .value, t => ∀ stack fuel rest, t.length ≤ stack → 2 * t.length ≤ fuel → Stops rest →
    ∃ v, parseValue stack fuel (.at (t ++ rest)) = .ok (v, .at rest) ∧ (t.head? = some lbrace → ∃ o, v = .obj o)
  | .element, t => ∀ stack fuel rest, t.length ≤ stack → 2 * t.length ≤ fuel → Closes rest →
    ∃ v cur, parseValue stack fuel (skipSpace (.at (t ++ rest))) = .ok (v, cur) ∧ skipSpace cur = .at rest
  | .elements, t => ∀ stack fuel arr rest, t.length ≤ stack → 2 * t.length + 2 ≤ fuel →
    ∃ vs, parseElements stack fuel arr (skipSpace (.at (t ++ rbracket :: rest))) = .ok (.arr vs, .at rest)
  | .members, t => ∀ stack fuel obj rest, t.length ≤ stack → 2 * t.length + 2 ≤ fuel →
    ∃ o, parseMembers stack fuel obj (.at (t ++ rbrace :: rest)) = .ok (.obj o, .at rest)

theorem accepted_literal {word : Bytes} {v : Value} (hobj : word.head? ≠ some lbrace) (hlength : 0 < word.length)
    (h : ∀ stack fuel rest, parseValue (stack + 1) (fuel + 1) (.at (word ++ rest)) = .ok (v, .at rest)) :
    Accepted .value word := by
  intro stack fuel rest hstack hfuel _
  obtain ⟨stack, rfl⟩ : ∃ n, stack = n + 1 := Nat.exists_eq_add_one.mpr (by omega)
  obtain ⟨fuel, rfl⟩ : ∃ n, fuel = n + 1 := Nat.exists_eq_add_one.mpr (by omega)
  exact ⟨v, h stack fuel rest, fun hhead => absurd hhead hobj⟩

theorem parseValue_bracket (stack fuel : Nat) (text : Bytes) :
    parseValue (stack + 1) (fuel + 1) (.at (lbracket :: text)) =
      if peek (skipSpace (.at text)) = rbracket then
        next (skipSpace (.at text)) >>= fun closed => .ok (.arr [], closed.2)
      else parseElements stack fuel [] (skipSpace (.at text)) := rfl

theorem parseValue_brace (stack fuel : Nat) (text : Bytes) :
    parseValue (stack + 1) (fuel + 1) (.at (lbrace :: text)) =
      if peek (skipSpace (.at text)) = rbrace then
        next (skipSpace (.at text)) >>= fun closed => .ok (.obj [], closed.2)
      else parseMembers stack fuel [] (skipSpace (.at text)) := rfl

/-- Elements begin with spaces and the character of a value. -/
theorem Reads.head_elements (h : Reads .elements t tokens) :
    ∃ w c tail, t = w ++ c :: tail ∧ (∀ c ∈ w, isSpace c = true) ∧ isSpace c = false ∧ c ≠ rbracket := by
  have helement : ∀ {t tokens}, Reads .element t tokens →
      ∃ w c tail, t = w ++ c :: tail ∧ (∀ c ∈ w, isSpace c = true) ∧ isSpace c = false ∧ c ≠ rbracket := by
    intro t tokens h
    cases h with
    | element hw h hw' =>
      obtain ⟨c, tail, rfl, hc, hne⟩ := h.head
      exact ⟨_, c, _, rfl, hw, hc, hne⟩
  cases h with
  | lastElement h => exact helement h
  | @elements t ts tokens more h hs =>
    obtain ⟨w, c, tail, rfl, hw, hc, hne⟩ := helement h
    exact ⟨w, c, tail ++ comma :: ts, by simp, hw, hc, hne⟩

/-- Members begin with spaces and the first character of a key. -/
theorem Reads.head_members (h : Reads .members t tokens) :
    ∃ w c tail, t = w ++ c :: tail ∧ (∀ c ∈ w, isSpace c = true) ∧ isSpace c = false := by
  cases h with
  | lastMember hw hc => exact ⟨_, _, _, rfl, hw, hc⟩
  | members hw hc => exact ⟨_, _, _, rfl, hw, hc⟩

/-- The loops of the parser skip the spaces in front of a key. -/
theorem parseMembers_skip (stack fuel : Nat) (obj : Object) (text : Bytes) :
    parseMembers stack fuel obj (skipSpace (.at text)) = parseMembers stack fuel obj (.at text) := by
  have hskip : skipSpace (skipSpace (.at text)) = skipSpace (.at text) :=
    congrArg Cursor.at (List.dropWhile_idempotent isSpace text)
  cases fuel with
  | zero => rfl
  | succ fuel =>
    unfold parseMembers
    rw [hskip]

/-- A text of the grammar is read. -/
theorem Reads.accepted {part : Part} (h : Reads part t tokens) : Accepted part t := by
  induction h with
  | literalNull =>
    exact accepted_literal (by decide) (by decide) fun _ _ rest =>
      parseLiteral_append (lit "null") rest .null
  | literalTrue =>
    exact accepted_literal (by decide) (by decide) fun _ _ rest =>
      parseLiteral_append (lit "true") rest (.bool true)
  | literalFalse =>
    exact accepted_literal (by decide) (by decide) fun _ _ rest =>
      parseLiteral_append (lit "false") rest (.bool false)
  | number h =>
    intro stack fuel rest hstack hfuel hrest
    obtain ⟨v, hv⟩ := h.parseNumber hrest
    obtain ⟨c, tail, rfl, hc⟩ := h.head
    obtain ⟨stack, rfl⟩ : ∃ n, stack = n + 1 := Nat.exists_eq_add_one.mpr (by rw [List.length_cons] at hstack; omega)
    obtain ⟨fuel, rfl⟩ : ∃ n, fuel = n + 1 := Nat.exists_eq_add_one.mpr (by rw [List.length_cons] at hfuel; omega)
    refine ⟨v, (parseValue_number stack fuel _ hc).trans hv, fun hhead => ?_⟩
    cases hhead
    exact absurd rfl (isSpace_number hc).2.2
  | string h =>
    intro stack fuel rest hstack hfuel _
    obtain ⟨s, hs⟩ := h.parseString dquote rest
    obtain ⟨stack, rfl⟩ : ∃ n, stack = n + 1 := Nat.exists_eq_add_one.mpr (by rw [List.length_cons] at hstack; omega)
    obtain ⟨fuel, rfl⟩ : ∃ n, fuel = n + 1 := Nat.exists_eq_add_one.mpr (by rw [List.length_cons] at hfuel; omega)
    refine ⟨.str s, ?_, fun h => by cases h⟩
    rw [List.cons_append, parseValue_quote, hs]
    rfl
  | @emptyArray w hw =>
    intro stack fuel rest hstack hfuel _
    obtain ⟨stack, rfl⟩ : ∃ n, stack = n + 1 := Nat.exists_eq_add_one.mpr (by rw [List.length_cons] at hstack; omega)
    obtain ⟨fuel, rfl⟩ : ∃ n, fuel = n + 1 := Nat.exists_eq_add_one.mpr (by rw [List.length_cons] at hfuel; omega)
    refine ⟨.arr [], ?_, fun h => by cases h⟩
    have hskip : skipSpace (.at (w ++ [rbracket] ++ rest)) = .at (rbracket :: rest) := by
      rw [List.append_assoc]
      exact skipSpace_spaces hw (by decide)
    rw [List.cons_append, parseValue_bracket, hskip]
    rfl
  | @array t tokens h ih =>
    intro stack fuel rest hstack hfuel _
    simp only [List.length_cons, List.length_append, List.length_nil] at hstack hfuel
    obtain ⟨stack, rfl⟩ : ∃ n, stack = n + 1 := Nat.exists_eq_add_one.mpr (by omega)
    obtain ⟨fuel, rfl⟩ : ∃ n, fuel = n + 1 := Nat.exists_eq_add_one.mpr (by omega)
    obtain ⟨w, c, tail, htext, hw, hc, hne⟩ := h.head_elements
    obtain ⟨vs, hvs⟩ := ih stack fuel [] rest (by omega) (by omega)
    refine ⟨.arr vs, ?_, fun h => by cases h⟩
    have hpeek : peek (skipSpace (.at (t ++ [rbracket] ++ rest))) ≠ rbracket := by
      rw [htext, List.append_assoc, List.append_assoc, List.cons_append, skipSpace_spaces hw hc]
      exact hne
    rw [List.cons_append, parseValue_bracket, if_neg hpeek, List.append_assoc]
    exact hvs
  | @emptyObject w hw =>
    intro stack fuel rest hstack hfuel _
    obtain ⟨stack, rfl⟩ : ∃ n, stack = n + 1 := Nat.exists_eq_add_one.mpr (by rw [List.length_cons] at hstack; omega)
    obtain ⟨fuel, rfl⟩ : ∃ n, fuel = n + 1 := Nat.exists_eq_add_one.mpr (by rw [List.length_cons] at hfuel; omega)
    refine ⟨.obj [], ?_, fun _ => ⟨[], rfl⟩⟩
    have hskip : skipSpace (.at (w ++ [rbrace] ++ rest)) = .at (rbrace :: rest) := by
      rw [List.append_assoc]
      exact skipSpace_spaces hw (by decide)
    rw [List.cons_append, parseValue_brace, hskip]
    rfl
  | @object t tokens h hopen ih =>
    intro stack fuel rest hstack hfuel _
    simp only [List.length_cons, List.length_append, List.length_nil] at hstack hfuel
    obtain ⟨stack, rfl⟩ : ∃ n, stack = n + 1 := Nat.exists_eq_add_one.mpr (by omega)
    obtain ⟨fuel, rfl⟩ : ∃ n, fuel = n + 1 := Nat.exists_eq_add_one.mpr (by omega)
    obtain ⟨w, c, tail, htext, hw, hc⟩ := h.head_members
    obtain ⟨o, ho⟩ := ih stack fuel [] rest (by omega) (by omega)
    refine ⟨.obj o, ?_, fun _ => ⟨o, rfl⟩⟩
    have hpeek : peek (skipSpace (.at (t ++ [rbrace] ++ rest))) ≠ rbrace := by
      rw [htext, List.dropWhile_append_of_pos hw, List.dropWhile_cons_of_neg (by rw [hc]; exact Bool.false_ne_true),
        List.head?_cons] at hopen
      rw [htext, List.append_assoc, List.append_assoc, List.cons_append, skipSpace_spaces hw hc]
      exact fun heq => hopen (congrArg some heq)
    rw [List.cons_append, parseValue_brace, if_neg hpeek, parseMembers_skip, List.append_assoc]
    exact ho
  | element hw h hw' ih =>
    intro stack fuel rest hstack hfuel hrest
    obtain ⟨c, tail, htext, hc, -⟩ := h.head
    simp only [List.length_append] at hstack hfuel
    obtain ⟨v, hv, -⟩ := ih stack fuel (_ ++ rest) (by omega) (by omega) (hrest.stops hw')
    refine ⟨v, _, ?_, hrest.skipSpace hw'⟩
    rw [List.append_assoc, List.append_assoc]
    rw [← hv, htext, List.cons_append, skipSpace_spaces hw hc]
  | lastElement _ ih =>
    intro stack fuel arr rest hstack hfuel
    obtain ⟨fuel, rfl⟩ : ∃ n, fuel = n + 1 := Nat.exists_eq_add_one.mpr (by omega)
    obtain ⟨v, cur, hv, hcur⟩ := ih stack fuel (rbracket :: rest) (by omega) (by omega) (closes_cons rest (by decide))
    refine ⟨arr ++ [v], ?_⟩
    simp only [parseElements, hv, bind, Except.bind, hcur, next, if_true]
  | @elements t ts tokens more _ _ ih ihs =>
    intro stack fuel arr rest hstack hfuel
    simp only [List.length_append, List.length_cons] at hstack hfuel
    obtain ⟨fuel, rfl⟩ : ∃ n, fuel = n + 1 := Nat.exists_eq_add_one.mpr (by omega)
    obtain ⟨v, cur, hv, hcur⟩ := ih stack fuel (comma :: (ts ++ rbracket :: rest)) (by omega) (by omega)
      (closes_cons _ (by decide))
    obtain ⟨vs, hvs⟩ := ihs stack fuel (arr ++ [v]) rest (by omega) (by omega)
    refine ⟨vs, ?_⟩
    simp only [parseElements, List.append_assoc, List.cons_append, hv, bind, Except.bind, hcur, next,
      (by decide : comma ≠ rbracket), if_false, ne_eq, not_true, hvs]
  | @lastMember w k w' t c tokens hw hc hk hw' _ ih =>
    intro stack fuel obj rest hstack hfuel
    simp only [List.length_append, List.length_cons] at hstack hfuel
    obtain ⟨fuel, rfl⟩ : ∃ n, fuel = n + 1 := Nat.exists_eq_add_one.mpr (by omega)
    obtain ⟨v, cur, hv, hcur⟩ := ih stack fuel (rbrace :: rest) (by omega) (by omega) (closes_cons rest (by decide))
    obtain ⟨key, hkey⟩ := hk.parseString c (w' ++ colon :: (t ++ rbrace :: rest))
    refine ⟨obj.put key v, ?_⟩
    simp only [parseMembers, List.append_assoc, List.cons_append, skipSpace_spaces hw hc, hkey, bind, Except.bind,
      skipSpace_spaces hw' (by decide : isSpace colon = false), next, ne_eq, not_true, if_false, hv, hcur, if_true]
  | @members w k w' t ts c tokens more hw hc hk hw' _ _ ih ihs =>
    intro stack fuel obj rest hstack hfuel
    simp only [List.length_append, List.length_cons] at hstack hfuel
    obtain ⟨fuel, rfl⟩ : ∃ n, fuel = n + 1 := Nat.exists_eq_add_one.mpr (by omega)
    obtain ⟨v, cur, hv, hcur⟩ := ih stack fuel (comma :: (ts ++ rbrace :: rest)) (by omega) (by omega) (closes_cons _ (by decide))
    obtain ⟨key, hkey⟩ := hk.parseString c (w' ++ colon :: (t ++ comma :: (ts ++ rbrace :: rest)))
    obtain ⟨o, ho⟩ := ihs stack fuel (obj.put key v) rest (by omega) (by omega)
    refine ⟨o, ?_⟩
    simp only [parseMembers, List.append_assoc, List.cons_append, skipSpace_spaces hw hc, hkey, bind, Except.bind,
      skipSpace_spaces hw' (by decide : isSpace colon = false), next, ne_eq, not_true, if_false, hv, hcur,
      (by decide : comma ≠ rbrace), ho]

/-- `parseObject` accepts the objects of the grammar, if the stack suffices. -/
theorem accepts_iff (s : Bytes) : (readObject s).isSome ↔ ∃ tokens, ReadsObject s tokens := by
  constructor
  · intro h
    obtain ⟨o, ho⟩ := Option.isSome_iff_exists.mp h
    obtain ⟨⟨v, cur⟩, hvalue, hend⟩ := bind_eq_ok (parseObject_eq_some.mp ho)
    obtain ⟨w, hsplit, hw⟩ := split_space s
    obtain ⟨t, rest, tokens, htext, rfl, ht, hobj⟩ := (reads_of_parse _ _).1 _ v cur hvalue
    dsimp only at hend
    split at hend
    · next hlast =>
      cases hend
      have hrest : ∀ c ∈ rest, isSpace c = true :=
        List.dropWhile_eq_nil_iff.mp (Cursor.at.inj hlast)
      exact ⟨tokens, w, t, rest, by rw [hsplit, htext], hw, hrest, ht, hobj ⟨o, rfl⟩⟩
    · cases hend
  · rintro ⟨tokens, w, t, w', rfl, hw, hw', ht, hbrace⟩
    obtain ⟨c, tail, htext, hc, -⟩ := ht.head
    obtain ⟨v, hv, hobj⟩ := ht.accepted ((w ++ (t ++ w')).length + 1) (2 * (w ++ (t ++ w')).length + 2) w'
      (by simp only [List.length_append]; omega) (by simp only [List.length_append]; omega) (by simpa using closes_nil.stops hw')
    obtain ⟨o, rfl⟩ := hobj hbrace
    have hskip : skipSpace (.at (w ++ (t ++ w'))) = .at (t ++ w') := by
      rw [htext, List.cons_append, skipSpace_spaces hw hc]
    have hend : skipSpace (.at w') = .at [] := by
      have hspaces := closes_nil.skipSpace hw'
      rwa [List.append_nil] at hspaces
    refine Option.isSome_iff_exists.mpr ⟨o, parseObject_eq_some.mpr ?_⟩
    simp only [parse, hskip, hv, bind, Except.bind, hend]

end Completeness

/-! ## Keys -/

theorem sorted_parseMembers {stack fuel : Nat} {obj : Object} {cur cur' : Cursor} {v : Value}
    (hobj : OrdMap.Sorted obj) (h : parseMembers stack fuel obj cur = .ok (v, cur')) : ∃ o, v = .obj o ∧ OrdMap.Sorted o := by
  induction fuel generalizing obj cur with
  | zero => cases h
  | succ fuel ih =>
    unfold parseMembers at h
    obtain ⟨⟨key, _⟩, -, h⟩ := bind_eq_ok h
    obtain ⟨⟨c, _⟩, -, h⟩ := bind_eq_ok h
    dsimp only at h
    split at h
    · cases h
    obtain ⟨⟨w, _⟩, -, h⟩ := bind_eq_ok h
    obtain ⟨⟨d, _⟩, -, h⟩ := bind_eq_ok h
    dsimp only at h
    split at h
    · cases h
      exact ⟨_, rfl, OrdMap.sorted_put hobj⟩
    split at h
    · cases h
    · exact ih (OrdMap.sorted_put hobj) h

/-- The keys of an accepted object are in order, whatever the order in the text is. -/
theorem sorted_parseObject {stack : Nat} {json : Bytes} {o : Object} (h : parseObject stack json = some o) :
    OrdMap.Sorted o := by
  obtain ⟨⟨v, cur⟩, hvalue, hend⟩ := bind_eq_ok (parseObject_eq_some.mp h)
  obtain rfl : v = .obj o := by
    dsimp only at hend
    split at hend
    · exact Except.ok.inj hend
    · cases hend
  obtain ⟨t, rest, tokens, htext, -, -, hhead⟩ := (reads_of_parse _ _).1 (json.dropWhile isSpace) _ _ hvalue
  obtain ⟨u, rfl⟩ := List.head?_eq_some_iff.mp (hhead ⟨o, rfl⟩)
  have hskip : skipSpace (.at json) = .at (lbrace :: (u ++ rest)) := congrArg Cursor.at htext
  rcases stack with _ | stack
  · cases hvalue
  rw [hskip, parseValue_brace] at hvalue
  split at hvalue
  · obtain ⟨_, -, hempty⟩ := bind_eq_ok hvalue
    cases hempty
    exact OrdMap.sorted_nil
  · obtain ⟨o', ho, hsorted⟩ := sorted_parseMembers OrdMap.sorted_nil hvalue
    cases ho
    exact hsorted

end LanChat.Json
