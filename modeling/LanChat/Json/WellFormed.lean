import LanChat.Json.Nesting

/-!
# Which malformed texts are refused

The parser looks at no token in full, and so accepts texts that are no JSON. Two
grammars meet here: what the parser reads (`Reads`) and what JSON is
(`Derives`). They differ in their tokens only: a text that both of them derive
is split the same way by both (`Reads.agrees`), and a text whose tokens are
those of JSON is JSON (`Reads.derives`). `refused_iff`: a text is refused where
it should be exactly if it is not read with a token that is none of JSON, or is
nested too deeply.
-/

namespace LanChat.Json

open Lib Ascii Rfc8259

/-! ## Texts that are split in one way -/

section Splits

variable {w w' u u' : Bytes} {p : UInt8 → Bool}

/-- A text is split in one way into characters that satisfy `p` and the rest. -/
theorem split_unique (hw : ∀ c ∈ w, p c = true) (hw' : ∀ c ∈ w', p c = true)
    (hu : ∀ c, u.head? = some c → p c = false) (hu' : ∀ c, u'.head? = some c → p c = false)
    (h : w ++ u = w' ++ u') : w = w' ∧ u = u' := by
  have htake : ∀ {v : Bytes}, (∀ c, v.head? = some c → p c = false) → v.takeWhile p = [] := by
    intro v hv
    cases v with
    | nil => rfl
    | cons c v => rw [List.takeWhile_cons_of_neg (by rw [hv c rfl]; nofun)]
  have hwu : (w ++ u).takeWhile p = w := by
    rw [List.takeWhile_append_of_pos hw, htake hu, List.append_nil]
  have hwu' : (w' ++ u').takeWhile p = w' := by
    rw [List.takeWhile_append_of_pos hw', htake hu', List.append_nil]
  have heq : w = w' := by rw [← hwu, h, hwu']
  subst heq
  exact ⟨rfl, List.append_cancel_left h⟩

theorem isSpace_iff {c : UInt8} : isSpace c = true ↔ c ∈ ([32, 9, 10, 13] : Bytes) := by
  simp only [isSpace, Bool.or_eq_true, decide_eq_true_eq, List.mem_cons, List.not_mem_nil, or_false, or_assoc]

theorem isSpace_of_spaces (h : IsSpace w) : ∀ c ∈ w, isSpace c = true := fun c hc => isSpace_iff.mpr (h c hc)

theorem spaces_of_isSpace (h : ∀ c ∈ w, isSpace c = true) : IsSpace w := fun c hc => isSpace_iff.mp (h c hc)

theorem isDigit_iff {c : UInt8} : isDigit c = true ↔ Rfc8259.IsDigit c := by
  simp only [Json.isDigit, Bool.and_eq_true, decide_eq_true_eq]
  rfl

/-- A string is closed by its first quote that is not escaped. -/
theorem Body.unique {rest rest' : Bytes} (h : Body w) (h' : Body w') (heq : w ++ rest = w' ++ rest') :
    w = w' ∧ rest = rest' := by
  induction h generalizing w' with
  | close =>
    cases h' with
    | close => exact ⟨rfl, (List.cons.inj heq).2⟩
    | plain c hquote => exact absurd (List.cons.inj heq).1.symm hquote
    | escaped => exact absurd (List.cons.inj heq).1 (by decide)
  | plain c hquote hslash _ ih =>
    cases h' with
    | close => exact absurd (List.cons.inj heq).1 hquote
    | plain d _ _ hd =>
      obtain ⟨rfl, htail⟩ := List.cons.inj heq
      obtain ⟨rfl, hrest⟩ := ih hd htail
      exact ⟨rfl, hrest⟩
    | escaped => exact absurd (List.cons.inj heq).1 hslash
  | escaped c _ ih =>
    cases h' with
    | close => exact absurd (List.cons.inj heq).1 (by decide)
    | plain d _ hslash => exact absurd (List.cons.inj heq).1.symm hslash
    | escaped d hd =>
      obtain ⟨rfl, htail⟩ := List.cons.inj (List.cons.inj heq).2
      obtain ⟨rfl, hrest⟩ := ih hd htail
      exact ⟨rfl, hrest⟩

end Splits

/-! ## The tokens of JSON -/

section Tokens

variable {t : Bytes}

theorem Body.prepend {item : Bytes} (hitem : ∀ c ∈ item, c ≠ dquote ∧ c ≠ backslash) (h : Body t) :
    Body (item ++ t) := by
  induction item with
  | nil => exact h
  | cons c item ih =>
    obtain ⟨hquote, hslash⟩ := hitem c List.mem_cons_self
    exact .plain c hquote hslash (ih fun d hd => hitem d (List.mem_cons_of_mem _ hd))

/-- An item of a string neither closes it nor leaves a backslash open. -/
theorem Body.item {item : Bytes} (hitem : IsItem item) (h : Body t) : Body (item ++ t) := by
  cases hitem with
  | unescaped c _ hquote hslash =>
    refine h.prepend fun b hb => ⟨?_, ?_⟩
    · rintro rfl
      exact hquote (Char.toNat_inj.mp ((mem_utf8EncodeChar (by decide)).mp hb))
    · rintro rfl
      exact hslash (Char.toNat_inj.mp ((mem_utf8EncodeChar (by decide)).mp hb))
  | escaped e => exact .escaped e h
  | hex ds _ hds =>
    refine .escaped 117 (h.prepend fun d hd => ⟨?_, ?_⟩)
    · rintro rfl
      exact absurd (hds _ hd) (by decide)
    · rintro rfl
      exact absurd (hds _ hd) (by decide)

/-- A string of JSON is one for the parser. -/
theorem body_of_isString (h : IsString t) : ∃ u, t = dquote :: u ∧ Body u := by
  obtain ⟨items, rfl, hitems⟩ := h
  refine ⟨items.flatten ++ [34], rfl, ?_⟩
  induction items with
  | nil => exact .close
  | cons item items ih =>
    rw [List.flatten_cons, List.append_assoc]
    exact (ih fun i hi => hitems i (List.mem_cons_of_mem _ hi)).item (hitems item List.mem_cons_self)

/-- The characters of numbers. -/
def isNumeric (c : UInt8) : Bool := isDigit c || c ∈ ([minus, 43, dot, 69, 101] : Bytes)

theorem isNumeric_digit {c : UInt8} (h : isDigit c = true) : isNumeric c = true := by
  rw [isNumeric, h, Bool.true_or]

theorem IsLooseNumber.numeric (h : IsLooseNumber t) : ∀ c ∈ t, isNumeric c = true := by
  obtain ⟨sign, whole, fraction, rfl, hsign, hwhole, hfraction, -⟩ := h
  simp only [List.forall_mem_append]
  refine ⟨⟨?_, fun c hc => isNumeric_digit (hwhole c hc)⟩, ?_⟩
  · simp only [List.mem_cons, List.not_mem_nil, or_false] at hsign
    rcases hsign with rfl | rfl <;> decide +kernel
  · cases fraction with
    | none => exact List.forall_mem_nil _
    | some ds => exact List.forall_mem_cons.mpr ⟨by decide, fun c hc => isNumeric_digit (hfraction c hc)⟩

theorem numeric_of_digits (h : IsDigits t) : ∀ c ∈ t, isNumeric c = true :=
  fun c hc => isNumeric_digit (isDigit_iff.mpr (h.2 c hc))

theorem numeric_of_int (h : IsInt t) : ∀ c ∈ t, isNumeric c = true := by
  rcases h with rfl | ⟨hdigits, -⟩
  · decide +kernel
  · exact numeric_of_digits hdigits

theorem numeric_of_isNumber (h : IsNumber t) : ∀ c ∈ t, isNumeric c = true := by
  obtain ⟨sign, whole, fraction, exponent, rfl, hsign, hwhole, hfraction, hexponent⟩ := h
  simp only [List.mem_cons, List.not_mem_nil, or_false] at hsign
  simp only [List.forall_mem_append]
  refine ⟨⟨⟨?_, numeric_of_int hwhole⟩, ?_⟩, ?_⟩
  · rcases hsign with rfl | rfl <;> decide +kernel
  · rcases hfraction with rfl | ⟨ds, rfl, hds⟩
    · exact List.forall_mem_nil _
    · exact List.forall_mem_cons.mpr ⟨by decide, numeric_of_digits hds⟩
  · rcases hexponent with rfl | ⟨e, sign, ds, rfl, he, hsign, hds⟩
    · exact List.forall_mem_nil _
    simp only [List.mem_cons, List.not_mem_nil, or_false] at he hsign
    refine List.forall_mem_append.mpr ⟨List.forall_mem_cons.mpr ⟨?_, ?_⟩, numeric_of_digits hds⟩
    · rcases he with rfl | rfl <;> decide
    · rcases hsign with rfl | rfl | rfl <;> decide +kernel

theorem head_of_isNumber (h : IsNumber t) : ∃ c tail, t = c :: tail ∧ (c = minus ∨ isDigit c = true) := by
  obtain ⟨sign, whole, fraction, exponent, rfl, hsign, hwhole, -⟩ := h
  simp only [List.mem_cons, List.not_mem_nil, or_false] at hsign
  rcases hsign with rfl | rfl
  · rcases hwhole with rfl | ⟨⟨hne, hdigits⟩, -⟩
    · exact ⟨48, _, rfl, .inr (by decide)⟩
    · obtain ⟨c, tail, rfl⟩ := List.exists_cons_of_ne_nil hne
      exact ⟨c, _, rfl, .inr (isDigit_iff.mpr (hdigits c List.mem_cons_self))⟩
  · exact ⟨45, _, rfl, .inl rfl⟩

end Tokens

/-! ## A text with the tokens of JSON is JSON -/

section Tokens

variable {part : Part} {t : Bytes} {tokens : List Token}

theorem Reads.derives (h : Reads part t tokens) (hstrict : ∀ token ∈ tokens, token.Strict) : Derives part t := by
  induction h with
  | literalNull => exact .null
  | literalTrue => exact .true
  | literalFalse => exact .false
  | number => exact .number (hstrict _ List.mem_cons_self)
  | string => exact .string (hstrict _ List.mem_cons_self)
  | emptyArray hw => exact .emptyArray (spaces_of_isSpace hw)
  | array _ ih => exact .array (ih hstrict)
  | emptyObject hw => exact .emptyObject (spaces_of_isSpace hw)
  | object _ _ ih => exact .object (ih hstrict)
  | element hw _ hw' ih =>
    rw [← List.append_assoc]
    exact .element (spaces_of_isSpace hw) (ih hstrict) (spaces_of_isSpace hw')
  | lastElement _ ih => exact .lastElement (ih hstrict)
  | elements _ _ ih ihs =>
    obtain ⟨hfirst, hrest⟩ := List.forall_mem_append.mp hstrict
    exact .elements (ih hfirst) (ihs hrest)
  | lastMember hw _ _ hw' _ ih =>
    obtain ⟨hkey, hvalue⟩ := List.forall_mem_cons.mp hstrict
    have hmember := Derives.lastMember (spaces_of_isSpace hw) hkey (spaces_of_isSpace hw') (ih hvalue)
    simpa only [List.append_assoc, List.cons_append] using hmember
  | members hw _ _ hw' _ _ ih ihs =>
    obtain ⟨hkey, hvalues⟩ := List.forall_mem_cons.mp hstrict
    obtain ⟨hvalue, hrest⟩ := List.forall_mem_append.mp hvalues
    have hmembers := Derives.members (spaces_of_isSpace hw) hkey (spaces_of_isSpace hw') (ih hvalue) (ihs hrest)
    simpa only [List.append_assoc, List.cons_append] using hmembers

end Tokens

/-! ## Two grammars on one text -/

section Agreement

variable {part : Part} {t t' rest rest' : Bytes} {tokens : List Token}

/-- What a value of JSON is, from its first character. -/
def Shape (t : Bytes) : UInt8 → Prop
  | 110 => t = lit "null"
  | 116 => t = lit "true"
  | 102 => t = lit "false"
  | 34 => IsString t
  | 91 => (∃ w, t = lbracket :: (w ++ [rbracket]) ∧ IsSpace w) ∨
    ∃ ts, t = lbracket :: (ts ++ [rbracket]) ∧ Derives .elements ts
  | 123 => (∃ w, t = lbrace :: (w ++ [rbrace]) ∧ IsSpace w) ∨
    ∃ ts, t = lbrace :: (ts ++ [rbrace]) ∧ Derives .members ts
  | c => IsNumber t ∧ (c = minus ∨ isDigit c = true)

theorem shape_number {c : UInt8} (h : IsNumber t) (hc : c = minus ∨ isDigit c = true) : Shape t c := by
  have hne : ∀ d : UInt8, isDigit d = false → d ≠ minus → c ≠ d := fun _ => ne_of_number hc
  unfold Shape
  split
  · exact absurd rfl (hne 110 (by decide) (by decide))
  · exact absurd rfl (hne 116 (by decide) (by decide))
  · exact absurd rfl (hne 102 (by decide) (by decide))
  · exact absurd rfl (hne 34 (by decide) (by decide))
  · exact absurd rfl (hne 91 (by decide) (by decide))
  · exact absurd rfl (hne 123 (by decide) (by decide))
  · exact ⟨h, hc⟩

theorem shape_of_derives (h : Derives .value t) : ∃ c u, t = c :: u ∧ Shape t c := by
  cases h with
  | null => exact ⟨110, _, rfl, rfl⟩
  | true => exact ⟨116, _, rfl, rfl⟩
  | false => exact ⟨102, _, rfl, rfl⟩
  | number h =>
    obtain ⟨c, u, rfl, hc⟩ := head_of_isNumber h
    exact ⟨c, u, rfl, shape_number h hc⟩
  | string h =>
    obtain ⟨u, rfl, -⟩ := body_of_isString h
    exact ⟨34, u, rfl, h⟩
  | emptyArray hw => exact ⟨91, _, rfl, .inl ⟨_, rfl, hw⟩⟩
  | array h => exact ⟨91, _, rfl, .inr ⟨_, rfl, h⟩⟩
  | emptyObject hw => exact ⟨123, _, rfl, .inl ⟨_, rfl, hw⟩⟩
  | object h => exact ⟨123, _, rfl, .inr ⟨_, rfl, h⟩⟩

/-- The value at the front of a text has the shape that its first character says. -/
theorem shape_of_append {c : UInt8} {u : Bytes} (h : Derives .value t') (heq : c :: u = t' ++ rest') :
    Shape t' c := by
  obtain ⟨d, v, rfl, hshape⟩ := shape_of_derives h
  cases heq
  exact hshape

theorem head_of_value (h : Derives .value t) : ∃ c u, t = c :: u ∧ isSpace c = false ∧ c ≠ rbracket := by
  cases h with
  | number h =>
    obtain ⟨c, u, rfl, hc⟩ := head_of_isNumber h
    exact ⟨c, u, rfl, (isSpace_number hc).1, (isSpace_number hc).2.1⟩
  | string h =>
    obtain ⟨u, rfl, -⟩ := body_of_isString h
    exact ⟨dquote, u, rfl, by decide, by decide⟩
  | _ => exact ⟨_, _, rfl, by decide, by decide⟩

/-- An element is a value between spaces. -/
theorem element_cases (h : Derives .element t) :
    ∃ w v w', t = w ++ (v ++ w') ∧ (∀ c ∈ w, isSpace c = true) ∧ Derives .value v ∧ ∀ c ∈ w', isSpace c = true := by
  cases h with
  | element hw h hw' =>
    exact ⟨_, _, _, List.append_assoc .., isSpace_of_spaces hw, h, isSpace_of_spaces hw'⟩

/-- Elements are an element, and perhaps a comma and more of them. -/
theorem elements_cases (h : Derives .elements t) :
    Derives .element t ∨ ∃ u us, t = u ++ comma :: us ∧ Derives .element u ∧ Derives .elements us := by
  cases h with
  | lastElement h => exact .inl h
  | elements h hs => exact .inr ⟨_, _, rfl, h, hs⟩

/-- Members are a key and an element, and perhaps a comma and more of them. -/
theorem members_cases (h : Derives .members t) :
    ∃ w k w' u, (∀ c ∈ w, isSpace c = true) ∧ Body k ∧ IsString (dquote :: k) ∧ (∀ c ∈ w', isSpace c = true) ∧
      Derives .element u ∧ (t = w ++ dquote :: (k ++ (w' ++ colon :: u)) ∨
        ∃ us, t = w ++ dquote :: (k ++ (w' ++ colon :: (u ++ comma :: us))) ∧ Derives .members us) := by
  cases h with
  | lastMember hw hk hw' h =>
    obtain ⟨k, rfl, hbody⟩ := body_of_isString hk
    exact ⟨_, k, _, _, isSpace_of_spaces hw, hbody, hk, isSpace_of_spaces hw', h, .inl (by
      simp only [List.append_assoc, List.cons_append])⟩
  | members hw hk hw' h hs =>
    obtain ⟨k, rfl, hbody⟩ := body_of_isString hk
    exact ⟨_, k, _, _, isSpace_of_spaces hw, hbody, hk, isSpace_of_spaces hw', h, .inr ⟨_, by
      simp only [List.append_assoc, List.cons_append], hs⟩⟩

theorem head_of_elements (h : Derives .elements t) :
    ∃ w c u, t = w ++ c :: u ∧ (∀ c ∈ w, isSpace c = true) ∧ isSpace c = false ∧ c ≠ rbracket := by
  have helement : ∀ {t}, Derives .element t →
      ∃ w c u, t = w ++ c :: u ∧ (∀ c ∈ w, isSpace c = true) ∧ isSpace c = false ∧ c ≠ rbracket := by
    intro t h
    obtain ⟨w, v, w', rfl, hw, hv, -⟩ := element_cases h
    obtain ⟨c, u, rfl, hc, hne⟩ := head_of_value hv
    exact ⟨w, c, u ++ w', rfl, hw, hc, hne⟩
  rcases elements_cases h with h | ⟨u, us, rfl, h, -⟩
  · exact helement h
  · obtain ⟨w, c, v, rfl, hw, hc, hne⟩ := helement h
    exact ⟨w, c, v ++ comma :: us, by simp, hw, hc, hne⟩

/-- Spaces in front of a text that begins with none belong to no part of it. -/
theorem spaces_unique {w w' u u' : Bytes} {c d : UInt8} (hw : ∀ c ∈ w, isSpace c = true)
    (hw' : ∀ c ∈ w', isSpace c = true) (hc : isSpace c = false) (hd : isSpace d = false)
    (h : w ++ c :: u = w' ++ d :: u') : w = w' ∧ c = d ∧ u = u' := by
  obtain ⟨hspaces, hrest⟩ := split_unique hw hw' (fun _ heq => by cases heq; exact hc) (fun _ heq => by
    cases heq
    exact hd) h
  exact ⟨hspaces, List.cons.inj hrest⟩

/-- Behind a value there is nothing, a space, or a character that goes on or closes. -/
def Ends (rest : Bytes) : Prop := ∀ c, rest.head? = some c → isNumeric c = false

/-- Behind an element there is nothing, or a character that goes on or closes. -/
def Follows (rest : Bytes) : Prop := ∀ c, rest.head? = some c → isNumeric c = false ∧ isSpace c = false

theorem follows_cons {c : UInt8} (rest : Bytes) (h : isNumeric c = false ∧ isSpace c = false) :
    Follows (c :: rest) := fun _ heq => by
  cases heq
  exact h

theorem isNumeric_space {c : UInt8} (h : isSpace c = true) : isNumeric c = false := by
  simp only [isSpace, Bool.or_eq_true, decide_eq_true_eq] at h
  rcases h with ((rfl | rfl) | rfl) | rfl <;> decide

theorem Follows.ends {w : Bytes} (hw : ∀ c ∈ w, isSpace c = true) (h : Follows rest) : Ends (w ++ rest) := by
  intro c hc
  rcases w with _ | ⟨d, w⟩
  · exact (h c hc).1
  · cases hc
    exact isNumeric_space (hw _ List.mem_cons_self)

/-- A part of JSON at the front of the same text is this text, with the same tokens. -/
def Agrees (t : Bytes) (tokens : List Token) : Part → Prop
  | .value => ∀ t' rest rest', Derives .value t' → Ends rest → Ends rest' → t ++ rest = t' ++ rest' →
    t = t' ∧ rest = rest' ∧ ∀ token ∈ tokens, token.Strict
  | .element => ∀ t' rest rest', Derives .element t' → Follows rest → Follows rest' → t ++ rest = t' ++ rest' →
    t = t' ∧ rest = rest' ∧ ∀ token ∈ tokens, token.Strict
  | .elements => ∀ t' rest rest', Derives .elements t' → t ++ rbracket :: rest = t' ++ rbracket :: rest' →
    t = t' ∧ rest = rest' ∧ ∀ token ∈ tokens, token.Strict
  | .members => ∀ t' rest rest', Derives .members t' → t ++ rbrace :: rest = t' ++ rbrace :: rest' →
    t = t' ∧ rest = rest' ∧ ∀ token ∈ tokens, token.Strict

theorem agrees_number (h : IsLooseNumber t) : Agrees t [.number t] .value := by
  intro t' rest rest' h' hrest hrest' heq
  obtain ⟨c, u, rfl, hc⟩ := h.head
  have hnumber : IsNumber t' := by
    have hshape := shape_of_append h' heq
    unfold Shape at hshape
    split at hshape
    all_goals first
      | exact hshape.1
      | exact absurd hc (by decide)
  obtain ⟨rfl, rfl⟩ := split_unique h.numeric (numeric_of_isNumber hnumber) hrest hrest' heq
  exact ⟨rfl, rfl, List.forall_mem_singleton.mpr hnumber⟩

theorem agrees_string (h : Body t) : Agrees (dquote :: t) [.string (dquote :: t)] .value := by
  intro t' rest rest' h' _ _ heq
  have hstring : IsString t' := shape_of_append h' heq
  obtain ⟨u, rfl, hu⟩ := body_of_isString hstring
  obtain ⟨rfl, rfl⟩ := h.unique hu (List.cons.inj heq).2
  exact ⟨rfl, rfl, List.forall_mem_singleton.mpr hstring⟩

theorem agrees_literal {word : Bytes} (h : ∀ t' rest rest', Derives .value t' → word ++ rest = t' ++ rest' → t' = word) :
    Agrees word [] .value := by
  intro t' rest rest' h' _ _ heq
  have hword := h t' rest rest' h' heq
  subst hword
  exact ⟨rfl, List.append_cancel_left heq, List.forall_mem_nil _⟩

/-- A key ends at its closing quote, and a colon behind it leads to its element. -/
theorem member_unique {w w₁ k k₁ w' w₂ u u₁ : Bytes} {c : UInt8} (hw : ∀ c ∈ w, isSpace c = true)
    (hw₁ : ∀ c ∈ w₁, isSpace c = true) (hc : isSpace c = false) (hk : Body k) (hk₁ : Body k₁)
    (hw' : ∀ c ∈ w', isSpace c = true) (hw₂ : ∀ c ∈ w₂, isSpace c = true)
    (h : w ++ c :: (k ++ (w' ++ colon :: u)) = w₁ ++ dquote :: (k₁ ++ (w₂ ++ colon :: u₁))) :
    w = w₁ ∧ c = dquote ∧ k = k₁ ∧ w' = w₂ ∧ u = u₁ := by
  obtain ⟨rfl, rfl, hkey⟩ := spaces_unique hw hw₁ hc (by decide) h
  obtain ⟨rfl, hbehind⟩ := hk.unique hk₁ hkey
  obtain ⟨rfl, -, rfl⟩ := spaces_unique hw' hw₂ (by decide) (by decide) hbehind
  exact ⟨rfl, rfl, rfl, rfl, rfl⟩

/-- Both grammars split a text in the same way. -/
theorem Reads.agrees (h : Reads part t tokens) : Agrees t tokens part := by
  induction h with
  | literalNull => exact agrees_literal fun t' rest rest' h' heq => shape_of_append h' heq
  | literalTrue => exact agrees_literal fun t' rest rest' h' heq => shape_of_append h' heq
  | literalFalse => exact agrees_literal fun t' rest rest' h' heq => shape_of_append h' heq
  | number h => exact agrees_number h
  | string h => exact agrees_string h
  | @emptyArray w hw =>
    intro t' rest rest' h' _ _ heq
    rcases shape_of_append h' heq with ⟨w', rfl, hw'⟩ | ⟨ts, rfl, hts⟩
    · simp only [List.cons_append, List.append_assoc, List.nil_append] at heq
      obtain ⟨rfl, -, rfl⟩ := spaces_unique hw (isSpace_of_spaces hw') (by decide) (by decide) (List.cons.inj heq).2
      exact ⟨rfl, rfl, List.forall_mem_nil _⟩
    · obtain ⟨w', c, u, rfl, hw', hc, hne⟩ := head_of_elements hts
      simp only [List.cons_append, List.append_assoc] at heq
      exact absurd (spaces_unique hw hw' (by decide) hc (List.cons.inj heq).2).2.1.symm hne
  | @array t tokens h ih =>
    intro t' rest rest' h' _ _ heq
    rcases shape_of_append h' heq with ⟨w', rfl, hw'⟩ | ⟨ts, rfl, hts⟩
    · obtain ⟨w, c, u, rfl, hw, hc, hne⟩ := h.head_elements
      simp only [List.cons_append, List.append_assoc] at heq
      exact absurd (spaces_unique hw (isSpace_of_spaces hw') hc (by decide) (List.cons.inj heq).2).2.1 hne
    · simp only [List.cons_append, List.append_assoc, List.nil_append] at heq
      obtain ⟨rfl, rfl, hstrict⟩ := ih ts rest rest' hts (List.cons.inj heq).2
      exact ⟨rfl, rfl, hstrict⟩
  | @emptyObject w hw =>
    intro t' rest rest' h' _ _ heq
    rcases shape_of_append h' heq with ⟨w', rfl, hw'⟩ | ⟨ts, rfl, hts⟩
    · simp only [List.cons_append, List.append_assoc, List.nil_append] at heq
      obtain ⟨rfl, -, rfl⟩ := spaces_unique hw (isSpace_of_spaces hw') (by decide) (by decide) (List.cons.inj heq).2
      exact ⟨rfl, rfl, List.forall_mem_nil _⟩
    · obtain ⟨w', k, w'', u, hw', -, -, -, -, rfl | ⟨us, rfl, -⟩⟩ := members_cases hts <;>
        simp only [List.cons_append, List.append_assoc] at heq <;>
        exact absurd (spaces_unique hw hw' (by decide) (by decide) (List.cons.inj heq).2).2.1 (by decide)
  | @object t tokens h hopen ih =>
    intro t' rest rest' h' _ _ heq
    rcases shape_of_append h' heq with ⟨w', rfl, hw'⟩ | ⟨ts, rfl, hts⟩
    · obtain ⟨w, c, u, rfl, hw, hc⟩ := h.head_members
      simp only [List.cons_append, List.append_assoc] at heq
      obtain ⟨-, rfl, -⟩ := spaces_unique hw (isSpace_of_spaces hw') hc (by decide) (List.cons.inj heq).2
      rw [List.dropWhile_append_of_pos hw, List.dropWhile_cons_of_neg (by rw [hc]; nofun)] at hopen
      exact absurd rfl hopen
    · simp only [List.cons_append, List.append_assoc, List.nil_append] at heq
      obtain ⟨rfl, rfl, hstrict⟩ := ih ts rest rest' hts (List.cons.inj heq).2
      exact ⟨rfl, rfl, hstrict⟩
  | element hw h hw' ih =>
    intro t' rest rest' h' hrest hrest' heq
    obtain ⟨w₁, v, w₂, rfl, hw₁, hv, hw₂⟩ := element_cases h'
    obtain ⟨c, u, rfl, hc, -⟩ := h.head
    obtain ⟨d, u', rfl, hd, -⟩ := head_of_value hv
    simp only [List.append_assoc, List.cons_append] at heq
    obtain ⟨rfl, rfl, hmid⟩ := spaces_unique hw hw₁ hc hd heq
    obtain ⟨hvalue, hspaces, hstrict⟩ := ih _ (_ ++ rest) (w₂ ++ rest') hv (hrest.ends hw') (hrest'.ends hw₂)
      (congrArg (List.cons c) hmid)
    obtain ⟨rfl, rfl⟩ := split_unique hw' hw₂ (fun e he => (hrest e he).2) (fun e he => (hrest' e he).2) hspaces
    cases hvalue
    exact ⟨rfl, rfl, hstrict⟩
  | lastElement _ ih =>
    intro t' rest rest' h' heq
    rcases elements_cases h' with hlast | ⟨u, us, rfl, hu, -⟩
    · obtain ⟨rfl, hrest, hstrict⟩ := ih t' _ _ hlast (follows_cons rest (by decide)) (follows_cons rest' (by decide)) heq
      exact ⟨rfl, (List.cons.inj hrest).2, hstrict⟩
    · rw [List.append_assoc] at heq
      obtain ⟨-, hrest, -⟩ := ih u _ _ hu (follows_cons rest (by decide)) (follows_cons _ (by decide)) heq
      exact absurd (List.cons.inj hrest).1 (by decide)
  | elements _ _ ih ihs =>
    intro t' rest rest' h' heq
    rw [List.append_assoc] at heq
    rcases elements_cases h' with hlast | ⟨u, us, rfl, hu, hus⟩
    · obtain ⟨-, hrest, -⟩ := ih t' _ _ hlast (follows_cons _ (by decide)) (follows_cons rest' (by decide)) heq
      exact absurd (List.cons.inj hrest).1 (by decide)
    · rw [List.append_assoc] at heq
      obtain ⟨rfl, hrest, hfirst⟩ := ih u _ _ hu (follows_cons _ (by decide)) (follows_cons _ (by decide)) heq
      obtain ⟨rfl, rfl, hmore⟩ := ihs us rest rest' hus (List.cons.inj hrest).2
      exact ⟨rfl, rfl, List.forall_mem_append.mpr ⟨hfirst, hmore⟩⟩
  | lastMember hw hc hk hw' _ ih =>
    intro t' rest rest' h' heq
    obtain ⟨w₁, k₁, w₂, u, hw₁, hk₁, hkey, hw₂, hu, rfl | ⟨us, rfl, -⟩⟩ := members_cases h'
    all_goals
      simp only [List.append_assoc, List.cons_append] at heq
      obtain ⟨rfl, rfl, rfl, rfl, hmid⟩ := member_unique hw hw₁ hc hk hk₁ hw' hw₂ heq
    · obtain ⟨rfl, hrest, hstrict⟩ := ih u _ _ hu (follows_cons rest (by decide)) (follows_cons rest' (by decide)) hmid
      exact ⟨rfl, (List.cons.inj hrest).2, List.forall_mem_cons.mpr ⟨hkey, hstrict⟩⟩
    · obtain ⟨-, hrest, -⟩ := ih u _ _ hu (follows_cons rest (by decide)) (follows_cons _ (by decide)) hmid
      exact absurd (List.cons.inj hrest).1 (by decide)
  | members hw hc hk hw' _ _ ih ihs =>
    intro t' rest rest' h' heq
    obtain ⟨w₁, k₁, w₂, u, hw₁, hk₁, hkey, hw₂, hu, rfl | ⟨us, rfl, hus⟩⟩ := members_cases h'
    all_goals
      simp only [List.append_assoc, List.cons_append] at heq
      obtain ⟨rfl, rfl, rfl, rfl, hmid⟩ := member_unique hw hw₁ hc hk hk₁ hw' hw₂ heq
    · obtain ⟨-, hrest, -⟩ := ih u _ _ hu (follows_cons _ (by decide)) (follows_cons rest' (by decide)) hmid
      exact absurd (List.cons.inj hrest).1 (by decide)
    · obtain ⟨rfl, hrest, hfirst⟩ := ih u _ _ hu (follows_cons _ (by decide)) (follows_cons _ (by decide)) hmid
      obtain ⟨rfl, rfl, hmore⟩ := ihs us rest rest' hus (List.cons.inj hrest).2
      exact ⟨rfl, rfl, List.forall_mem_cons.mpr ⟨hkey, List.forall_mem_append.mpr ⟨hfirst, hmore⟩⟩⟩

end Agreement

/-! ## Malformed texts -/

/-- Everything that the text is read as is a text of JSON: keys and strings are
strings of JSON, with quotes around them, and numbers are numbers of JSON. -/
def TokensStrict (s : Bytes) : Prop := ∀ tokens, ReadsObject s tokens → ∀ token ∈ tokens, token.Strict

theorem isText_of_strict {s : Bytes} {tokens : List Token} (h : ReadsObject s tokens)
    (hstrict : ∀ token ∈ tokens, token.Strict) : IsText s := by
  obtain ⟨w, t, w', rfl, hw, hw', ht, -⟩ := h
  rw [← List.append_assoc]
  exact .element (spaces_of_isSpace hw) (ht.derives hstrict) (spaces_of_isSpace hw')

theorem strict_of_isText {s : Bytes} {tokens : List Token} (h : ReadsObject s tokens) (htext : IsText s) :
    ∀ token ∈ tokens, token.Strict := by
  obtain ⟨w, t, w', rfl, hw, hw', ht, -⟩ := h
  have helement := Reads.element hw ht hw'
  exact (helement.agrees _ [] [] htext nofun nofun rfl).2.2

/-- A malformed text is refused exactly if it is not read with a token that is
none of JSON, or is nested too deeply for the stack. -/
theorem refused_iff (stack : Nat) (s : Bytes) :
    (¬IsText s → parseObject stack s = none) ↔ Nested .element stack s ∨ TokensStrict s := by
  constructor
  · intro h
    by_cases hnested : Nested .element stack s
    · exact .inl hnested
    refine .inr fun tokens hreads => strict_of_isText hreads ?_
    by_contra hmalformed
    have hsome := (accepts_iff s).mpr ⟨tokens, hreads⟩
    rw [← parseObject_eq_readObject hnested, h hmalformed] at hsome
    cases hsome
  · intro h hmalformed
    by_contra haccepted
    obtain ⟨o, ho⟩ := Option.ne_none_iff_exists'.mp haccepted
    obtain ⟨tokens, hreads⟩ := (accepts_iff s).mp (Option.isSome_iff_exists.mpr ⟨o, readObject_of_parseObject ho⟩)
    rcases h with hnested | hstrict
    · rw [parseObject, overflow_iff.mpr hnested] at ho
      cases ho
    · exact hmalformed (isText_of_strict hreads (hstrict tokens hreads))

/-- An object whose key has no quote in front. -/
def unquotedKey : Bytes := lit "\x7bxid\":1\x7d"

theorem unquotedKey_reads : ReadsObject unquotedKey [.key (lit "xid\""), .number [49]] := by
  have hnumber : IsLooseNumber [49] :=
    ⟨[], [49], none, rfl, by simp, by decide +kernel, (fun _ h => by cases h), by decide, 1, by simp [stoll, natOf]⟩
  have hbody : Body (lit "id\"") := .plain 105 (by decide) (by decide) (.plain 100 (by decide) (by decide) .close)
  have hmember := @Reads.lastMember [] _ [] _ 120 _ (List.forall_mem_nil _) (by decide) hbody (List.forall_mem_nil _)
    (@Reads.element [] _ [] _ (List.forall_mem_nil _) (.number hnumber) (List.forall_mem_nil _))
  exact ⟨[], unquotedKey, [], by decide +kernel, List.forall_mem_nil _, List.forall_mem_nil _, .object hmember (by decide +kernel), by decide +kernel⟩

/-- A text that is no JSON is accepted. -/
theorem malformed_accepted : ¬∀ s, ¬IsText s → parseObject 20000 s = none := by
  intro h
  have hmalformed : ¬IsText unquotedKey := by
    intro htext
    obtain ⟨u, hkey, -⟩ := body_of_isString (strict_of_isText unquotedKey_reads htext _ List.mem_cons_self)
    cases hkey
  have haccepted := (accepts_iff unquotedKey).mpr ⟨_, unquotedKey_reads⟩
  have hroom : ¬Nested .element 20000 unquotedKey := not_nested_of_length (by decide +kernel)
  rw [← parseObject_eq_readObject hroom, h unquotedKey hmalformed] at haccepted
  cases haccepted

end LanChat.Json
