import Mathlib.Data.List.Forall2

/-!
# Lists whose items evolve in place

A list evolves into another one when its items keep their places and each one
becomes what a relation says. Items may be added behind them, and a list that
was not read as a whole may lose its end.
-/

namespace LanChat.Lib

/-- The first `n` items have become the first ones of `l'`, as `R` says. If the list
is `whole`, these are all of its items, and unless it `grows`, they are all of `l'`. -/
def Evolves {α : Type} (whole grows : Prop) (R : α → α → Prop) (l l' : List α) : Prop :=
  ∃ n kept added, (whole → l.length ≤ n) ∧ (added ≠ [] → grows) ∧ List.Forall₂ R (l.take n) kept ∧
    l' = kept ++ added

section Evolves

variable {α : Type} {whole whole' grows : Prop} {R S T : α → α → Prop} {l l₁ l₂ : List α}

theorem forall₂_comp (h : List.Forall₂ R l l₁) (h' : List.Forall₂ S l₁ l₂)
    (hT : ∀ {a b c}, R a b → S b c → T a c) : List.Forall₂ T l l₂ := by
  induction h generalizing l₂ with
  | nil =>
    cases h'
    exact .nil
  | cons hhead _ ih =>
    cases h' with
    | cons hhead' htail' => exact .cons (hT hhead hhead') (ih htail')

theorem evolves_of_forall₂ (h : List.Forall₂ R l l₁) : Evolves whole grows R l l₁ :=
  ⟨l.length, l₁, [], fun _ => Nat.le_refl _, (absurd rfl ·), by rwa [List.take_length], (List.append_nil _).symm⟩

theorem evolves_refl (hR : ∀ a, R a a) (l : List α) : Evolves whole grows R l l :=
  evolves_of_forall₂ (List.forall₂_same.mpr fun a _ => hR a)

theorem evolves_append (hgrows : grows) (hR : ∀ a, R a a) (l added : List α) :
    Evolves whole grows R l (l ++ added) :=
  ⟨l.length, l, added, fun _ => Nat.le_refl _, fun _ => hgrows,
    by rw [List.take_length]; exact List.forall₂_same.mpr fun a _ => hR a, rfl⟩

/-- The end of the list is lost. -/
theorem evolves_take (hpart : ¬whole) (hR : ∀ a, R a a) (l : List α) (n : Nat) :
    Evolves whole grows R l (l.take n) :=
  ⟨n, l.take n, [], fun h => absurd h hpart, (absurd rfl ·), List.forall₂_same.mpr fun a _ => hR a,
    (List.append_nil _).symm⟩

theorem Evolves.trans {G : Prop} (h : Evolves whole grows R l l₁) (h' : Evolves whole' G S l₁ l₂)
    (hwhole : whole → whole') (hgrow : grows → G) (hT : ∀ {a b c}, R a b → S b c → T a c) :
    Evolves whole G T l l₂ := by
  obtain ⟨n, kept, added, hn, hgrows, hkept, rfl⟩ := h
  obtain ⟨k, kept', added', hk, hgrows', hkept', rfl⟩ := h'
  rw [List.take_append] at hkept'
  have hsplit := (List.forall₂_take_append _ _ _ hkept'.flip).flip
  have hrest := (List.forall₂_drop_append _ _ _ hkept'.flip).flip
  set m := (kept.take k).length
  refine ⟨min k n, kept'.take m, kept'.drop m ++ added', fun hw => Nat.le_min.mpr ⟨?_, hn hw⟩, fun hne => ?_, ?_, ?_⟩
  · have hall : (l.take n).length = kept.length := hkept.length_eq
    rw [List.take_of_length_le (hn hw)] at hall
    have hle := hk (hwhole hw)
    rw [List.length_append] at hle
    omega
  · rcases eq_or_ne added' [] with rfl | hadded
    · rw [List.append_nil] at hne
      refine hgrow (hgrows fun hnil => hne ?_)
      rw [hnil, List.take_nil] at hrest
      exact List.forall₂_nil_left_iff.mp hrest
    · exact hgrows' hadded
  · rw [← List.take_take]
    exact forall₂_comp (List.forall₂_take k hkept) hsplit hT
  · rw [← List.append_assoc, List.take_append_drop]

/-- The first item that meets `p` has become of the first one that does. -/
theorem find?_forall₂ {p : α → Bool} (h : List.Forall₂ R l l₁) (hp : ∀ a b, R a b → p b = p a) {b : α}
    (hb : l₁.find? p = some b) : ∃ a, l.find? p = some a ∧ R a b := by
  induction h with
  | nil => cases hb
  | @cons a b' _ _ hhead _ ih =>
    rw [List.find?_cons, hp a b' hhead] at hb
    rw [List.find?_cons]
    cases hpa : p a with
    | false =>
      rw [hpa] at hb
      exact ih hb
    | true =>
      rw [hpa] at hb
      cases hb
      exact ⟨a, rfl, hhead⟩

/-- The first item that meets `p`, when none has been added. -/
theorem Evolves.find?_eq_some {p : α → Bool} (h : Evolves whole False R l l₁) (hp : ∀ a b, R a b → p b = p a) {b : α}
    (hb : l₁.find? p = some b) : ∃ a, l.find? p = some a ∧ R a b := by
  obtain ⟨n, kept, added, -, hadded, hkept, rfl⟩ := h
  obtain rfl : added = [] := not_not.mp hadded
  rw [List.append_nil] at hb
  obtain ⟨a, ha, hab⟩ := find?_forall₂ hkept hp hb
  refine ⟨a, ?_, hab⟩
  have hall : (l.take n ++ l.drop n).find? p = _ := List.find?_append
  rw [List.take_append_drop, ha] at hall
  exact hall

/-- The first item that meets `p`, when the list is read as a whole. -/
theorem Evolves.find?_of_whole {p : α → Bool} (h : Evolves whole grows R l l₁) (hwhole : whole)
    (hp : ∀ a b, R a b → p b = p a) {a : α} (ha : l.find? p = some a) : ∃ b, l₁.find? p = some b ∧ R a b := by
  obtain ⟨n, kept, added, hn, -, hkept, rfl⟩ := h
  rw [List.take_of_length_le (hn hwhole)] at hkept
  have hp' : ∀ a b, R b a → p b = p a := fun a b hab => (hp b a hab).symm
  obtain ⟨b, hb, hab⟩ := find?_forall₂ hkept.flip hp' ha
  exact ⟨b, by rw [List.find?_append, hb, Option.some_or], hab⟩

end Evolves

end LanChat.Lib
