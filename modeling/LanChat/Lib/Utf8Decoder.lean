import Mathlib.Algebra.GroupWithZero.Nat
import LanChat.Lib.Pieces
import LanChat.Lib.Rfc8259

/-!
# A decoder of UTF-8

The decoder of the Encoding Standard, byte by byte: what is not the encoding of
a character becomes U+FFFD. Of a well-formed text it makes the text (`read_utf8`).
-/

namespace LanChat.Lib

/-- The state of the decoder. Inside a character, `needed` bytes are still to
come, and the next of them lies between `lower` and `upper`. -/
structure Utf8Decoder where
  code : Nat
  needed : Nat
  lower : Nat
  upper : Nat

namespace Utf8Decoder

/-- Between two characters. -/
def start : Utf8Decoder := ⟨0, 0, 0x80, 0xBF⟩

def replacement : Char := Char.ofNat 0xFFFD

/-- The first byte of a character. -/
def first (b : UInt8) : Utf8Decoder × List Char :=
  let n := b.toNat
  if n ≤ 0x7F then (start, [Char.ofNat n])
  else if 0xC2 ≤ n ∧ n ≤ 0xDF then (⟨n % 32, 1, 0x80, 0xBF⟩, [])
  else if 0xE0 ≤ n ∧ n ≤ 0xEF then
    (⟨n % 16, 2, if n = 0xE0 then 0xA0 else 0x80, if n = 0xED then 0x9F else 0xBF⟩, [])
  else if 0xF0 ≤ n ∧ n ≤ 0xF4 then
    (⟨n % 8, 3, if n = 0xF0 then 0x90 else 0x80, if n = 0xF4 then 0x8F else 0xBF⟩, [])
  else (start, [replacement])

def step (d : Utf8Decoder) (b : UInt8) : Utf8Decoder × List Char :=
  if d.needed = 0 then first b
  else if d.lower ≤ b.toNat ∧ b.toNat ≤ d.upper then
    let code := d.code * 64 + b.toNat % 64
    if d.needed = 1 then (start, [Char.ofNat code]) else (⟨code, d.needed - 1, 0x80, 0xBF⟩, [])
  -- the character breaks off, and the byte may begin the next one
  else ((first b).1, replacement :: (first b).2)

/-- The bytes of a piece. -/
def read : Utf8Decoder → List UInt8 → Utf8Decoder × List Char := readEach step

theorem seamless_read : Seamless (fun _ => True) read := seamless_readEach step

/-! ## Well-formed texts -/

section Wellformed

variable {n v : Nat} {d : Utf8Decoder}

theorem first_ofNat (hn : n < 256) : first (UInt8.ofNat n) =
    if n ≤ 0x7F then (start, [Char.ofNat n])
    else if 0xC2 ≤ n ∧ n ≤ 0xDF then (⟨n % 32, 1, 0x80, 0xBF⟩, [])
    else if 0xE0 ≤ n ∧ n ≤ 0xEF then
      (⟨n % 16, 2, if n = 0xE0 then 0xA0 else 0x80, if n = 0xED then 0x9F else 0xBF⟩, [])
    else if 0xF0 ≤ n ∧ n ≤ 0xF4 then
      (⟨n % 8, 3, if n = 0xF0 then 0x90 else 0x80, if n = 0xF4 then 0x8F else 0xBF⟩, [])
    else (start, [replacement]) := by
  rw [first, UInt8.toNat_ofNat_of_lt' hn]

/-- A byte inside a character that does not complete it. -/
theorem step_continues (hneeded : 1 < d.needed) (hlow : d.lower ≤ n) (hhigh : n ≤ d.upper) (hn : n < 256)
    (hcode : d.code * 64 + n % 64 = v) : step d (UInt8.ofNat n) = (⟨v, d.needed - 1, 0x80, 0xBF⟩, []) := by
  have hpos : d.needed ≠ 0 := by omega
  have hmore : d.needed ≠ 1 := by omega
  simp only [step, UInt8.toNat_ofNat_of_lt' hn, hpos, hmore, hlow, hhigh, hcode, if_false, and_self, if_true]

/-- The last byte of a character. -/
theorem step_completes (hneeded : d.needed = 1) (hlow : d.lower ≤ n) (hhigh : n ≤ d.upper) (hn : n < 256)
    (hcode : d.code * 64 + n % 64 = v) : step d (UInt8.ofNat n) = (start, [Char.ofNat v]) := by
  simp only [step, UInt8.toNat_ofNat_of_lt' hn, hneeded, hlow, hhigh, hcode, Nat.one_ne_zero, if_false, and_self, if_true]

theorem step_start (b : UInt8) : step start b = first b := rfl

end Wellformed

/-- Of the encoding of a character it makes the character. -/
theorem read_utf8EncodeChar (c : Char) : read start (String.utf8EncodeChar c) = (start, [c]) := by
  have hvalid : c.val.toNat < 0xD800 ∨ (0xDFFF < c.val.toNat ∧ c.val.toNat < 0x110000) := c.valid
  have hchar : Char.ofNat c.val.toNat = c := Char.ofNat_toNat c
  generalize hv : c.val.toNat = v at *
  have hlast : step ⟨v / 64, 1, 0x80, 0xBF⟩ (UInt8.ofNat (v % 64 + 0x80)) = (start, [c]) := by
    rw [← hchar]
    exact step_completes rfl (by simp) (by simp only; omega) (by omega) (by simp only; omega)
  simp only [String.utf8EncodeChar, hv]
  split
  next h1 =>
    have hfirst : first (UInt8.ofNat v) = (start, [c]) := by rw [first_ofNat (by omega), if_pos h1, hchar]
    simp only [read, readEach, step_start, hfirst, List.append_nil]
  split
  next h1 h2 =>
    have hfirst : first (UInt8.ofNat (v / 64 % 32 + 0xc0)) = (⟨v / 64, 1, 0x80, 0xBF⟩, []) := by
      rw [first_ofNat (by omega), if_neg (by omega), if_pos (by omega)]
      have hcode : (v / 64 % 32 + 0xc0) % 32 = v / 64 := by omega
      rw [hcode]
    simp only [read, readEach, step_start, hfirst, hlast, List.append_nil, List.nil_append]
  split
  next h1 h2 h3 =>
    have hfirst : first (UInt8.ofNat (v / 4096 % 16 + 0xe0)) =
        (⟨v / 4096, 2, if v / 4096 = 0 then 0xA0 else 0x80, if v / 4096 = 13 then 0x9F else 0xBF⟩, []) := by
      rw [first_ofNat (by omega), if_neg (by omega), if_neg (by omega), if_pos (by omega)]
      have hcode : (v / 4096 % 16 + 0xe0) % 16 = v / 4096 := by omega
      have hlow : v / 4096 % 16 + 0xe0 = 0xE0 ↔ v / 4096 = 0 := by omega
      have hhigh : v / 4096 % 16 + 0xe0 = 0xED ↔ v / 4096 = 13 := by omega
      simp only [hcode, hlow, hhigh]
    have hsecond : step ⟨v / 4096, 2, if v / 4096 = 0 then 0xA0 else 0x80, if v / 4096 = 13 then 0x9F else 0xBF⟩
        (UInt8.ofNat (v / 64 % 64 + 0x80)) = (⟨v / 64, 1, 0x80, 0xBF⟩, []) := by
      exact step_continues (by simp) (by simp only; split <;> omega) (by simp only; split <;> omega) (by omega)
        (by simp only; omega)
    simp only [read, readEach, step_start, hfirst, hsecond, hlast, List.append_nil, List.nil_append]
  next h1 h2 h3 =>
    have hfirst : first (UInt8.ofNat (v / 262144 % 8 + 0xf0)) =
        (⟨v / 262144, 3, if v / 262144 = 0 then 0x90 else 0x80, if v / 262144 = 4 then 0x8F else 0xBF⟩, []) := by
      rw [first_ofNat (by omega), if_neg (by omega), if_neg (by omega), if_neg (by omega), if_pos (by omega)]
      have hcode : (v / 262144 % 8 + 0xf0) % 8 = v / 262144 := by omega
      have hlow : v / 262144 % 8 + 0xf0 = 0xF0 ↔ v / 262144 = 0 := by omega
      have hhigh : v / 262144 % 8 + 0xf0 = 0xF4 ↔ v / 262144 = 4 := by omega
      simp only [hcode, hlow, hhigh]
    have hsecond : step
        ⟨v / 262144, 3, if v / 262144 = 0 then 0x90 else 0x80, if v / 262144 = 4 then 0x8F else 0xBF⟩
        (UInt8.ofNat (v / 4096 % 64 + 0x80)) = (⟨v / 4096, 2, 0x80, 0xBF⟩, []) := by
      exact step_continues (by simp) (by simp only; split <;> omega) (by simp only; split <;> omega) (by omega)
        (by simp only; omega)
    have hthird : step ⟨v / 4096, 2, 0x80, 0xBF⟩ (UInt8.ofNat (v / 64 % 64 + 0x80)) =
        (⟨v / 64, 1, 0x80, 0xBF⟩, []) := by
      exact step_continues (by simp) (by simp) (by simp only; omega) (by omega) (by simp only; omega)
    simp only [read, readEach, step_start, hfirst, hsecond, hthird, hlast, List.append_nil, List.nil_append]

theorem read_utf8 (cs : List Char) : read start (utf8 cs) = (start, cs) := by
  induction cs with
  | nil => rfl
  | cons c cs ih => rw [utf8_cons, seamless_read.append _ _ _ trivial, read_utf8EncodeChar, ih]; rfl

/-! ## Characters of ASCII -/

/-- Inside a character the code point will lie beyond ASCII. -/
def Beyond (d : Utf8Decoder) : Prop :=
  d.needed = 0 ∨ (0x80 ≤ d.lower ∧ d.upper ≤ 0xBF ∧ 128 ≤ (d.code * 64 + (d.lower - 0x80)) * 64 ^ (d.needed - 1))

section Ascii

variable {d : Utf8Decoder} {b : UInt8} {c : Char} {bytes : List UInt8}

theorem toNat_ofNat_eq {n : Nat} (hpos : 0 < (Char.ofNat n).toNat) : (Char.ofNat n).toNat = n := by
  by_cases hvalid : n.isValidChar
  · have hchar : Char.ofNat n = Char.ofNatAux n hvalid := dif_pos hvalid
    rw [hchar]
    rfl
  · have hchar : Char.ofNat n = ⟨0, .inl (by decide)⟩ := dif_neg hvalid
    rw [hchar] at hpos
    exact absurd hpos (Nat.lt_irrefl 0)

theorem beyond_first (b : UInt8) : Beyond (first b).1 := by
  simp only [first]
  split
  · exact .inl rfl
  split
  · exact .inr ⟨by simp, by simp, by simp only; omega⟩
  split
  · refine .inr ⟨by simp only; split <;> omega, by simp only; split <;> omega, ?_⟩
    simp only
    split <;> omega
  split
  · refine .inr ⟨by simp only; split <;> omega, by simp only; split <;> omega, ?_⟩
    simp only
    split <;> omega
  · exact .inl rfl

theorem mem_first (hpos : 0 < c.toNat) (hascii : c.toNat < 128) (hmem : c ∈ (first b).2) : b = UInt8.ofNat c.toNat := by
  simp only [first] at hmem
  split at hmem
  · obtain rfl := List.mem_singleton.mp hmem
    rw [toNat_ofNat_eq hpos, UInt8.ofNat_toNat]
  split at hmem
  · exact absurd hmem List.not_mem_nil
  split at hmem
  · exact absurd hmem List.not_mem_nil
  split at hmem
  · exact absurd hmem List.not_mem_nil
  · obtain rfl := List.mem_singleton.mp hmem
    exact absurd hascii (by decide)

theorem beyond_step (hd : Beyond d) (b : UInt8) : Beyond (step d b).1 := by
  unfold step
  split
  · exact beyond_first b
  next hneeded =>
  split
  next hrange =>
    obtain ⟨hlower, hupper, hcode⟩ := hd.resolve_left hneeded
    split
    · exact .inl rfl
    next hmore =>
      refine .inr ⟨by simp, by simp, ?_⟩
      have hpow : 64 ^ (d.needed - 1) = 64 * 64 ^ (d.needed - 1 - 1) := by
        rw [← Nat.pow_succ']
        congr 1
        omega
      have hgrows : d.code * 64 + (d.lower - 0x80) ≤ d.code * 64 + b.toNat % 64 := by omega
      calc 128 ≤ (d.code * 64 + (d.lower - 0x80)) * 64 ^ (d.needed - 1) := hcode
        _ ≤ (d.code * 64 + b.toNat % 64) * 64 ^ (d.needed - 1) := Nat.mul_le_mul_right _ hgrows
        _ = ((d.code * 64 + b.toNat % 64) * 64 + (0x80 - 0x80)) * 64 ^ (d.needed - 1 - 1) := by
          rw [hpow, Nat.sub_self, Nat.add_zero, Nat.mul_assoc]
  · exact beyond_first b

theorem mem_step (hd : Beyond d) (hpos : 0 < c.toNat) (hascii : c.toNat < 128) (hmem : c ∈ (step d b).2) :
    b = UInt8.ofNat c.toNat := by
  unfold step at hmem
  split at hmem
  · exact mem_first hpos hascii hmem
  next hneeded =>
  split at hmem
  next hrange =>
    obtain ⟨hlower, hupper, hcode⟩ := hd.resolve_left hneeded
    split at hmem
    next hlast =>
      obtain rfl := List.mem_singleton.mp hmem
      rw [hlast, Nat.sub_self, Nat.pow_zero, Nat.mul_one] at hcode
      rw [toNat_ofNat_eq hpos] at hascii
      omega
    · exact absurd hmem List.not_mem_nil
  · rcases List.mem_cons.mp hmem with rfl | hmem
    · exact absurd hascii (by decide)
    · exact mem_first hpos hascii hmem

/-- A character of ASCII comes from a byte of its own. -/
theorem mem_read (hd : Beyond d) (hpos : 0 < c.toNat) (hascii : c.toNat < 128) (hmem : c ∈ (read d bytes).2) :
    UInt8.ofNat c.toNat ∈ bytes := by
  induction bytes generalizing d with
  | nil => exact absurd hmem List.not_mem_nil
  | cons b bytes ih =>
    rcases List.mem_append.mp hmem with hmem | hmem
    · exact mem_step hd hpos hascii hmem ▸ List.mem_cons_self
    · exact List.mem_cons_of_mem _ (ih (beyond_step hd b) hmem)

end Ascii

end Utf8Decoder

end LanChat.Lib
