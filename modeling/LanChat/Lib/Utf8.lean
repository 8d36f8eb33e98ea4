import LanChat.Lib.Rfc8259

/-!
# Pieces of UTF-8

A byte of ASCII is never inside the encoding of another character, so a text may
be cut at each such byte (`isUtf8_cut`).
-/

namespace LanChat.Lib

variable {b : UInt8} {s t : List UInt8}

theorem isUtf8_nil : IsUtf8 [] := ⟨[], rfl⟩

theorem IsUtf8.append (hs : IsUtf8 s) (ht : IsUtf8 t) : IsUtf8 (s ++ t) := by
  obtain ⟨cs, rfl⟩ := hs
  obtain ⟨ds, rfl⟩ := ht
  exact ⟨cs ++ ds, List.flatMap_append.symm⟩

theorem isUtf8_singleton (h : b < 128) : IsUtf8 [b] := by
  have hvalid : b.toNat.isValidChar := .inl (Nat.lt_trans b.toNat_lt (by decide))
  have hchar : (Char.ofNat b.toNat).toNat = b.toNat := by
    rw [Char.ofNat, dif_pos hvalid]
    rfl
  have hlow : (Char.ofNat b.toNat).toNat < 128 := by
    rw [hchar]
    exact UInt8.lt_iff_toNat_lt.mp h
  refine ⟨[Char.ofNat b.toNat], ?_⟩
  rw [utf8_cons, utf8_nil, List.append_nil, utf8EncodeChar_ascii hlow, hchar, UInt8.ofNat_toNat]

theorem isUtf8_of_ascii (h : ∀ b ∈ s, b < 128) : IsUtf8 s := by
  induction s with
  | nil => exact isUtf8_nil
  | cons b s ih =>
    exact (isUtf8_singleton (h b List.mem_cons_self)).append (ih fun c hc => h c (List.mem_cons_of_mem _ hc))

/-- A text is cut at a byte of ASCII. -/
theorem isUtf8_cut (h : b < 128) : IsUtf8 (s ++ b :: t) ↔ IsUtf8 s ∧ IsUtf8 t := by
  constructor
  · rintro ⟨cs, hcs⟩
    induction cs generalizing s with
    | nil => simp at hcs
    | cons c cs ih =>
      rw [utf8_cons] at hcs
      rcases List.append_eq_append_iff.mp hcs with ⟨part, henc, hrest⟩ | ⟨part, rfl, hrest⟩
      · cases part with
        | nil =>
          rw [List.append_nil] at henc
          obtain ⟨-, ht⟩ := @ih [] hrest
          exact ⟨henc ▸ ⟨[c], by simp⟩, ht⟩
        | cons b' part =>
          rw [List.cons_append, List.cons.injEq] at hrest
          obtain ⟨rfl, rfl⟩ := hrest
          have hmem : b ∈ String.utf8EncodeChar c := henc ▸ List.mem_append_right _ List.mem_cons_self
          have hc := (mem_utf8EncodeChar h).mp hmem
          rw [utf8EncodeChar_ascii (hc ▸ UInt8.lt_iff_toNat_lt.mp h), hc, UInt8.ofNat_toNat] at henc
          cases s with
          | nil =>
            cases henc
            exact ⟨isUtf8_nil, cs, rfl⟩
          | cons b'' s =>
            have hlength := congrArg List.length henc
            simp at hlength
      · obtain ⟨hpart, ht⟩ := ih hrest.symm
        exact ⟨IsUtf8.append ⟨[c], by simp⟩ hpart, ht⟩
  · rintro ⟨hs, ht⟩
    exact hs.append ((isUtf8_singleton h).append ht)

theorem isUtf8_cons (h : b < 128) : IsUtf8 (b :: t) ↔ IsUtf8 t := by
  rw [← List.nil_append (b :: t), isUtf8_cut h]
  exact and_iff_right isUtf8_nil

theorem isUtf8_concat (h : b < 128) : IsUtf8 (s ++ [b]) ↔ IsUtf8 s := by
  rw [isUtf8_cut h]
  exact and_iff_left isUtf8_nil

theorem isUtf8_ascii_append (h : ∀ b ∈ s, b < 128) : IsUtf8 (s ++ t) ↔ IsUtf8 t := by
  induction s with
  | nil => exact Iff.rfl
  | cons b s ih =>
    rw [List.cons_append, isUtf8_cons (h b List.mem_cons_self), ih fun c hc => h c (List.mem_cons_of_mem _ hc)]

/-- The test of the standard library. -/
theorem validateUTF8_iff : (ByteArray.mk s.toArray).validateUTF8 = true ↔ IsUtf8 s := by
  rw [ByteArray.validateUTF8_eq_true_iff]
  constructor
  · rintro ⟨cs, hcs⟩
    refine ⟨cs, ?_⟩
    have hdata := congrArg (fun b : ByteArray => b.data.toList) hcs
    simpa [List.utf8Encode, utf8] using hdata
  · rintro ⟨cs, rfl⟩
    refine ⟨cs, ?_⟩
    simp [List.utf8Encode, utf8, ByteArray.ext_iff]

/-- A text of ASCII is decided byte by byte, any other by the test of the standard library. -/
instance : DecidablePred IsUtf8 := fun s =>
  if h : s.all (· < 128) then
    .isTrue (isUtf8_of_ascii fun b hb => of_decide_eq_true (List.all_eq_true.mp h b hb))
  else decidable_of_iff _ validateUTF8_iff

end LanChat.Lib
