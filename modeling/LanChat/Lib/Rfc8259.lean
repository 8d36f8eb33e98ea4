import Mathlib.Data.List.Basic

/-!
# JSON texts

The grammar of RFC 8259 on the bytes of a text, with characters encoded in
UTF-8. It is the grammar that a conforming reader accepts. No text of the
grammar has a control character other than tab, line feed and carriage return
in it, inside a string or outside (`Derives.allowed`).
-/

namespace LanChat.Lib

/-- The UTF-8 encoding of a text. -/
def utf8 (cs : List Char) : List UInt8 := cs.flatMap String.utf8EncodeChar

/-- The bytes are the encoding of some text. -/
def IsUtf8 (s : List UInt8) : Prop := ∃ cs, s = utf8 cs

section Utf8

variable {b : UInt8} {c : Char} {cs : List Char}

@[simp] theorem utf8_nil : utf8 [] = [] := rfl

@[simp] theorem utf8_cons (c : Char) (cs : List Char) : utf8 (c :: cs) = String.utf8EncodeChar c ++ utf8 cs :=
  rfl

theorem utf8EncodeChar_ascii (h : c.toNat < 128) : String.utf8EncodeChar c = [UInt8.ofNat c.toNat] := by
  have hval : c.val.toNat ≤ 127 := Nat.lt_succ_iff.mp h
  simp only [String.utf8EncodeChar, hval, if_true]
  rfl

theorem ofNat_high {n : Nat} (hlow : 128 ≤ n) (hhigh : n < 256) : 128 ≤ UInt8.ofNat n := by
  rw [UInt8.le_iff_toNat_le, UInt8.toNat_ofNat_of_lt' hhigh]
  exact hlow

/-- Beyond ASCII every byte of a character has its highest bit set. -/
theorem high_of_mem_utf8EncodeChar (h : 128 ≤ c.toNat) (hb : b ∈ String.utf8EncodeChar c) : 128 ≤ b := by
  have hval : ¬c.val.toNat ≤ 127 := Nat.not_le.mpr h
  have htop : c.val.toNat < 1114112 := by
    rcases c.valid with hlow | ⟨_, hhigh⟩
    · exact Nat.lt_trans hlow (by decide)
    · exact hhigh
  simp only [String.utf8EncodeChar, hval, if_false] at hb
  split at hb
  · simp only [List.mem_cons, List.not_mem_nil, or_false] at hb
    rcases hb with rfl | rfl <;> exact ofNat_high (by omega) (by omega)
  split at hb
  · simp only [List.mem_cons, List.not_mem_nil, or_false] at hb
    rcases hb with rfl | rfl | rfl <;> exact ofNat_high (by omega) (by omega)
  · simp only [List.mem_cons, List.not_mem_nil, or_false] at hb
    rcases hb with rfl | rfl | rfl | rfl <;> exact ofNat_high (by omega) (by omega)

theorem mem_utf8EncodeChar (hb : b < 128) : b ∈ String.utf8EncodeChar c ↔ c.toNat = b.toNat := by
  rcases Nat.lt_or_ge c.toNat 128 with hc | hc
  · rw [utf8EncodeChar_ascii hc, List.mem_singleton, ← UInt8.toNat_inj, UInt8.toNat_ofNat_of_lt' (Nat.lt_trans hc (by decide))]
    exact eq_comm
  · have hlow : b.toNat < 128 := UInt8.lt_iff_toNat_lt.mp hb
    refine iff_of_false (fun hmem => ?_) (by omega)
    exact UInt8.not_lt.mpr (high_of_mem_utf8EncodeChar hc hmem) hb

/-- A byte of ASCII in the encoding is a character of the text. -/
theorem mem_utf8 (hb : b < 128) : b ∈ utf8 cs ↔ ∃ c ∈ cs, c.toNat = b.toNat := by
  simp only [utf8, List.mem_flatMap, mem_utf8EncodeChar hb]

end Utf8

namespace Rfc8259

/-- A byte that is no control character, or one that may stand between tokens. -/
def Allowed (b : UInt8) : Prop := 32 ≤ b ∨ b = 9 ∨ b = 10 ∨ b = 13

instance : DecidablePred Allowed := fun b => inferInstanceAs (Decidable (32 ≤ b ∨ b = 9 ∨ b = 10 ∨ b = 13))

def IsSpace (t : List UInt8) : Prop := ∀ b ∈ t, b ∈ [32, 9, 10, 13]

def IsDigit (b : UInt8) : Prop := 48 ≤ b ∧ b ≤ 57

def IsHex (b : UInt8) : Prop := IsDigit b ∨ (65 ≤ b ∧ b ≤ 70) ∨ (97 ≤ b ∧ b ≤ 102)

instance : DecidablePred IsDigit := fun b => inferInstanceAs (Decidable (48 ≤ b ∧ b ≤ 57))

instance : DecidablePred IsHex :=
  fun b => inferInstanceAs (Decidable (IsDigit b ∨ (65 ≤ b ∧ b ≤ 70) ∨ (97 ≤ b ∧ b ≤ 102)))

/-- One or more digits. -/
def IsDigits (t : List UInt8) : Prop := t ≠ [] ∧ ∀ b ∈ t, IsDigit b

/-- `int = zero / ( digit1-9 *DIGIT )` -/
def IsInt (t : List UInt8) : Prop := t = [48] ∨ (IsDigits t ∧ t.head? ≠ some 48)

/-- `frac = decimal-point 1*DIGIT` -/
def IsFraction (t : List UInt8) : Prop := ∃ ds, t = 46 :: ds ∧ IsDigits ds

/-- `exp = e [ minus / plus ] 1*DIGIT` -/
def IsExponent (t : List UInt8) : Prop :=
  ∃ e sign ds, t = e :: sign ++ ds ∧ e ∈ [69, 101] ∧ sign ∈ [[], [45], [43]] ∧ IsDigits ds

/-- `number = [ minus ] int [ frac ] [ exp ]` -/
def IsNumber (t : List UInt8) : Prop :=
  ∃ sign whole fraction exponent, t = sign ++ whole ++ fraction ++ exponent ∧ sign ∈ [[], [45]] ∧
    IsInt whole ∧ (fraction = [] ∨ IsFraction fraction) ∧ (exponent = [] ∨ IsExponent exponent)

/-- `char`: a character as it is, or an escape. -/
inductive IsItem : List UInt8 → Prop where
  | unescaped (c : Char) (hcontrol : 32 ≤ c.toNat) (hquote : c ≠ '"') (hslash : c ≠ '\\') :
    IsItem (String.utf8EncodeChar c)
  | escaped (e : UInt8) (h : e ∈ [34, 92, 47, 98, 102, 110, 114, 116]) : IsItem [92, e]
  | hex (ds : List UInt8) (hlength : ds.length = 4) (h : ∀ d ∈ ds, IsHex d) : IsItem (92 :: 117 :: ds)

/-- `string = quotation-mark *char quotation-mark` -/
def IsString (t : List UInt8) : Prop :=
  ∃ items : List (List UInt8), t = 34 :: items.flatten ++ [34] ∧ ∀ item ∈ items, IsItem item

/-- What a derivation is of: a value, an element (a value between spaces), or
what stands between the brackets of a nonempty array or object. -/
inductive Part where
  | value
  | element
  | elements
  | members
deriving DecidableEq, Repr

/-- The texts of each part. -/
inductive Derives : Part → List UInt8 → Prop where
  | null : Derives .value [110, 117, 108, 108]
  | true : Derives .value [116, 114, 117, 101]
  | false : Derives .value [102, 97, 108, 115, 101]
  | number {t : List UInt8} (h : IsNumber t) : Derives .value t
  | string {t : List UInt8} (h : IsString t) : Derives .value t
  | emptyArray {w : List UInt8} (hw : IsSpace w) : Derives .value (91 :: w ++ [93])
  | array {t : List UInt8} (h : Derives .elements t) : Derives .value (91 :: t ++ [93])
  | emptyObject {w : List UInt8} (hw : IsSpace w) : Derives .value (123 :: w ++ [125])
  | object {t : List UInt8} (h : Derives .members t) : Derives .value (123 :: t ++ [125])
  | element {w t w' : List UInt8} (hw : IsSpace w) (h : Derives .value t) (hw' : IsSpace w') :
    Derives .element (w ++ t ++ w')
  | lastElement {t : List UInt8} (h : Derives .element t) : Derives .elements t
  | elements {t ts : List UInt8} (h : Derives .element t) (hs : Derives .elements ts) :
    Derives .elements (t ++ 44 :: ts)
  | lastMember {w k w' t : List UInt8} (hw : IsSpace w) (hk : IsString k) (hw' : IsSpace w')
    (h : Derives .element t) : Derives .members (w ++ k ++ w' ++ 58 :: t)
  | members {w k w' t ts : List UInt8} (hw : IsSpace w) (hk : IsString k) (hw' : IsSpace w')
    (h : Derives .element t) (hs : Derives .members ts) :
    Derives .members (w ++ k ++ w' ++ 58 :: t ++ 44 :: ts)

/-- `JSON-text = ws value ws` -/
def IsText (t : List UInt8) : Prop := Derives .element t

section Allowed

variable {t : List UInt8}

theorem IsSpace.allowed (h : IsSpace t) : ∀ b ∈ t, Allowed b := by
  intro b hb
  have hspace := h b hb
  simp only [List.mem_cons, List.not_mem_nil, or_false] at hspace
  rcases hspace with rfl | rfl | rfl | rfl <;> decide

theorem IsDigits.allowed (h : IsDigits t) : ∀ b ∈ t, Allowed b :=
  fun b hb => .inl (UInt8.le_trans (by decide) (h.2 b hb).1)

theorem IsInt.allowed (h : IsInt t) : ∀ b ∈ t, Allowed b := by
  rcases h with rfl | ⟨hdigits, _⟩
  · decide +kernel
  · exact hdigits.allowed

theorem IsFraction.allowed (h : IsFraction t) : ∀ b ∈ t, Allowed b := by
  obtain ⟨ds, rfl, hds⟩ := h
  exact List.forall_mem_cons.mpr ⟨by decide, hds.allowed⟩

theorem IsExponent.allowed (h : IsExponent t) : ∀ b ∈ t, Allowed b := by
  obtain ⟨e, sign, ds, rfl, he, hsign, hds⟩ := h
  simp only [List.mem_cons, List.not_mem_nil, or_false] at he hsign
  refine List.forall_mem_append.mpr ⟨List.forall_mem_cons.mpr ⟨?_, ?_⟩, hds.allowed⟩
  · rcases he with rfl | rfl <;> decide
  · rcases hsign with rfl | rfl | rfl <;> decide +kernel

theorem IsNumber.allowed (h : IsNumber t) : ∀ b ∈ t, Allowed b := by
  obtain ⟨sign, whole, fraction, exponent, rfl, hsign, hwhole, hfraction, hexponent⟩ := h
  simp only [List.mem_cons, List.not_mem_nil, or_false] at hsign
  simp only [List.forall_mem_append]
  refine ⟨⟨⟨?_, hwhole.allowed⟩, ?_⟩, ?_⟩
  · rcases hsign with rfl | rfl <;> decide +kernel
  · rcases hfraction with rfl | hfraction
    · exact List.forall_mem_nil _
    · exact hfraction.allowed
  · rcases hexponent with rfl | hexponent
    · exact List.forall_mem_nil _
    · exact hexponent.allowed

theorem IsItem.allowed (h : IsItem t) : ∀ b ∈ t, Allowed b := by
  cases h with
  | unescaped c hcontrol hquote hslash =>
    intro b hb
    rcases Nat.lt_or_ge c.toNat 128 with hc | hc
    · rw [utf8EncodeChar_ascii hc, List.mem_singleton] at hb
      left
      rw [hb, UInt8.le_iff_toNat_le, UInt8.toNat_ofNat_of_lt' (Nat.lt_trans hc (by decide))]
      exact hcontrol
    · exact .inl (UInt8.le_trans (by decide) (high_of_mem_utf8EncodeChar hc hb))
  | escaped e h =>
    simp only [List.mem_cons, List.not_mem_nil, or_false] at h
    rcases h with rfl | rfl | rfl | rfl | rfl | rfl | rfl | rfl <;> decide +kernel
  | hex ds hlength h =>
    refine List.forall_mem_cons.mpr ⟨by decide, List.forall_mem_cons.mpr ⟨by decide, ?_⟩⟩
    intro d hd
    left
    rcases h d hd with hlow | hlow | hlow <;> exact UInt8.le_trans (by decide) hlow.1

theorem IsString.allowed (h : IsString t) : ∀ b ∈ t, Allowed b := by
  obtain ⟨items, rfl, hitems⟩ := h
  refine List.forall_mem_append.mpr ⟨List.forall_mem_cons.mpr ⟨by decide, ?_⟩, by decide +kernel⟩
  intro b hb
  obtain ⟨item, hitem, hb⟩ := List.mem_flatten.mp hb
  exact (hitems item hitem).allowed b hb

/-- No text has a control character in it, other than those between tokens. -/
theorem Derives.allowed {part : Part} (h : Derives part t) : ∀ b ∈ t, Allowed b := by
  induction h with
  | null | true | false => decide +kernel
  | number h => exact h.allowed
  | string h => exact h.allowed
  | emptyArray hw | emptyObject hw =>
    exact List.forall_mem_append.mpr ⟨List.forall_mem_cons.mpr ⟨by decide, hw.allowed⟩, by decide +kernel⟩
  | array _ ih | object _ ih =>
    exact List.forall_mem_append.mpr ⟨List.forall_mem_cons.mpr ⟨by decide, ih⟩, by decide +kernel⟩
  | element hw _ hw' ih =>
    simp only [List.forall_mem_append]
    exact ⟨⟨hw.allowed, ih⟩, hw'.allowed⟩
  | lastElement _ ih => exact ih
  | elements _ _ ih ihs =>
    exact List.forall_mem_append.mpr ⟨ih, List.forall_mem_cons.mpr ⟨by decide, ihs⟩⟩
  | lastMember hw hk hw' _ ih =>
    simp only [List.forall_mem_append]
    exact ⟨⟨⟨hw.allowed, hk.allowed⟩, hw'.allowed⟩, List.forall_mem_cons.mpr ⟨by decide, ih⟩⟩
  | members hw hk hw' _ _ ih ihs =>
    simp only [List.forall_mem_append]
    exact ⟨⟨⟨⟨hw.allowed, hk.allowed⟩, hw'.allowed⟩, List.forall_mem_cons.mpr ⟨by decide, ih⟩⟩,
      List.forall_mem_cons.mpr ⟨by decide, ihs⟩⟩

end Allowed

/-! ## Texts without spaces -/

section Building

variable {k t ts : List UInt8}

theorem isSpace_nil : IsSpace [] := nofun

theorem Derives.alone (h : Derives .value t) : Derives .element t := by
  have helement := Derives.element isSpace_nil h isSpace_nil
  rwa [List.nil_append, List.append_nil] at helement

theorem Derives.memberAlone (hk : IsString k) (h : Derives .value t) : Derives .members (k ++ 58 :: t) := by
  have hmember := Derives.lastMember isSpace_nil hk isSpace_nil h.alone
  rwa [List.nil_append, List.append_nil] at hmember

theorem Derives.memberFirst (hk : IsString k) (h : Derives .value t) (hs : Derives .members ts) :
    Derives .members (k ++ 58 :: t ++ 44 :: ts) := by
  have hmembers := Derives.members isSpace_nil hk isSpace_nil h.alone hs
  rwa [List.nil_append, List.append_nil] at hmembers

end Building

end Rfc8259

end LanChat.Lib
