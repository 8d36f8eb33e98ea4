import Mathlib.Algebra.GroupWithZero.Nat
import Mathlib.Data.List.Basic
import Mathlib.Tactic.Common

/-!
# Ordered maps as association lists

`std::map` as the list of its entries in key order. `put` is the assignment
`m[k] = v`; it keeps the keys strictly increasing, so two maps with the same
entries are the same list.
-/

namespace LanChat.Lib

/-- The entries of an ordered map, in key order. -/
abbrev OrdMap (κ α : Type) := List (κ × α)

namespace OrdMap

variable {κ α : Type} [Ord κ]

def find? (m : OrdMap κ α) (k : κ) : Option α :=
  match m with
  | [] => none
  | (k', v) :: rest => if compare k k' = .eq then some v else find? rest k

def put (m : OrdMap κ α) (k : κ) (v : α) : OrdMap κ α :=
  match m with
  | [] => [(k, v)]
  | (k', v') :: rest =>
    match compare k k' with
    | .lt => (k, v) :: (k', v') :: rest
    | .eq => (k, v) :: rest
    | .gt => (k', v') :: put rest k v

/-- The keys are strictly increasing. -/
def Sorted (m : OrdMap κ α) : Prop := m.Pairwise fun a b => compare a.1 b.1 = .lt

@[simp] theorem find?_nil (k : κ) : find? ([] : OrdMap κ α) k = none := rfl

@[simp] theorem sorted_nil : Sorted ([] : OrdMap κ α) := List.Pairwise.nil

section Lawful

variable {m : OrdMap κ α} {k k' : κ} {v : α}

theorem find?_put_self [Std.LawfulEqOrd κ] : find? (put m k v) k = some v := by
  induction m with
  | nil => simp [put, find?]
  | cons entry rest ih =>
    obtain ⟨key, val⟩ := entry
    cases h : compare k key with
    | lt => simp [put, h, find?]
    | eq => simp [put, h, find?]
    | gt => simp [put, h, find?, ih]

theorem find?_put_of_ne [Std.LawfulEqOrd κ] (hne : k' ≠ k) : find? (put m k v) k' = find? m k' := by
  induction m with
  | nil => simp [put, find?, hne]
  | cons entry rest ih =>
    obtain ⟨key, val⟩ := entry
    cases h : compare k key with
    | lt => simp [put, h, find?, hne]
    | eq =>
      obtain rfl := Std.LawfulEqOrd.eq_of_compare h
      simp [put, find?, hne]
    | gt => simp [put, h, find?, ih]

@[simp] theorem find?_put [Std.LawfulEqOrd κ] [DecidableEq κ] :
    find? (put m k v) k' = if k' = k then some v else find? m k' := by
  split
  · next h => rw [h, find?_put_self]
  · next h => exact find?_put_of_ne h

theorem mem_put {entry : κ × α} (h : entry ∈ put m k v) : entry = (k, v) ∨ entry ∈ m := by
  induction m with
  | nil => simpa [put] using h
  | cons head rest ih =>
    obtain ⟨key, val⟩ := head
    cases hc : compare k key with
    | lt => simpa [put, hc] using h
    | eq =>
      simp only [put, hc, List.mem_cons] at h ⊢
      exact h.imp_right .inr
    | gt =>
      simp only [put, hc, List.mem_cons] at h ⊢
      rcases h with h | h
      · exact .inr (.inl h)
      · exact (ih h).imp_right .inr

theorem sorted_put [Std.TransOrd κ] [Std.LawfulEqOrd κ] (h : Sorted m) : Sorted (put m k v) := by
  induction m with
  | nil => simp [put, Sorted]
  | cons head rest ih =>
    obtain ⟨key, val⟩ := head
    obtain ⟨hhead, hrest⟩ := List.pairwise_cons.mp h
    cases hc : compare k key with
    | lt =>
      simp only [put, hc]
      refine List.pairwise_cons.mpr ⟨fun b hb => ?_, h⟩
      rcases List.mem_cons.mp hb with rfl | hb
      · exact hc
      · exact Std.TransCmp.lt_trans hc (hhead b hb)
    | eq =>
      obtain rfl := Std.LawfulEqOrd.eq_of_compare hc
      simp only [put, hc]
      exact List.pairwise_cons.mpr ⟨hhead, hrest⟩
    | gt =>
      simp only [put, hc]
      refine List.pairwise_cons.mpr ⟨fun b hb => ?_, ih hrest⟩
      rcases mem_put hb with rfl | hb
      · exact Std.OrientedCmp.lt_of_gt hc
      · exact hhead b hb

theorem mem_of_find? [Std.LawfulEqOrd κ] (h : find? m k = some v) : (k, v) ∈ m := by
  induction m with
  | nil => simp at h
  | cons head rest ih =>
    obtain ⟨key, val⟩ := head
    unfold find? at h
    split at h
    · next hc =>
      cases h
      obtain rfl := Std.LawfulEqOrd.eq_of_compare hc
      exact List.mem_cons_self
    · exact List.mem_cons_of_mem _ (ih h)

/-- Assigning what is there changes nothing. -/
theorem put_of_find? [Std.LawfulEqOrd κ] [Std.TransOrd κ] (h : Sorted m) (hv : find? m k = some v) :
    put m k v = m := by
  induction m with
  | nil => cases hv
  | cons head rest ih =>
    obtain ⟨key, val⟩ := head
    obtain ⟨hhead, hrest⟩ := List.pairwise_cons.mp h
    unfold find? at hv
    split at hv
    · next hc =>
      cases hv
      obtain rfl := Std.LawfulEqOrd.eq_of_compare hc
      simp [put]
    · have hgt : compare k key = .gt := Std.OrientedCmp.gt_of_lt (hhead (k, v) (mem_of_find? hv))
      simp only [put, hgt, ih hrest hv]

/-- A key above every key of the map goes to the end. -/
theorem put_append [Std.TransOrd κ] (h : ∀ entry ∈ m, compare entry.1 k = .lt) : put m k v = m ++ [(k, v)] := by
  induction m with
  | nil => rfl
  | cons head rest ih =>
    obtain ⟨key, val⟩ := head
    have hgt : compare k key = .gt := Std.OrientedCmp.gt_of_lt (h _ List.mem_cons_self)
    simp only [put, hgt, List.cons_append]
    rw [ih fun entry he => h entry (List.mem_cons_of_mem _ he)]

/-- A key that is not in the map is added to its entries. -/
theorem put_perm [Std.LawfulEqOrd κ] (h : ∀ entry ∈ m, entry.1 ≠ k) : (put m k v).Perm ((k, v) :: m) := by
  induction m with
  | nil => exact .refl _
  | cons head rest ih =>
    obtain ⟨key, val⟩ := head
    cases hc : compare k key with
    | lt =>
      simp only [put, hc]
      exact .refl _
    | eq => exact absurd (Std.LawfulEqOrd.eq_of_compare hc).symm (h _ List.mem_cons_self)
    | gt =>
      simp only [put, hc]
      exact ((ih fun entry he => h entry (List.mem_cons_of_mem _ he)).cons _).trans (.swap ..)

/-- What is looked up is not among larger keys. -/
theorem find?_eq_none_of_lt (h : ∀ entry ∈ m, compare k entry.1 = .lt) : find? m k = none := by
  induction m with
  | nil => rfl
  | cons head rest ih =>
    unfold find?
    rw [h head List.mem_cons_self]
    exact ih fun entry he => h entry (List.mem_cons_of_mem _ he)

/-- An assignment takes the old entry out of a sum over the entries, and puts the new one in. -/
theorem sum_put [Std.TransOrd κ] [Std.LawfulEqOrd κ] (g : κ × α → Nat) (h : Sorted m) :
    ((put m k v).map g).sum + ((find? m k).map fun old => g (k, old)).getD 0 = (m.map g).sum + g (k, v) := by
  induction m with
  | nil => simp [put]
  | cons head rest ih =>
    obtain ⟨key, val⟩ := head
    obtain ⟨hhead, hrest⟩ := List.pairwise_cons.mp h
    cases hc : compare k key with
    | lt =>
      have hnone : find? ((key, val) :: rest) k = none := by
        refine find?_eq_none_of_lt (List.forall_mem_cons.mpr ⟨hc, fun entry he => ?_⟩)
        exact Std.TransCmp.lt_trans hc (hhead entry he)
      rw [hnone]
      simp only [put, hc, List.map_cons, List.sum_cons, Option.map_none, Option.getD_none]
      omega
    | eq =>
      obtain rfl := Std.LawfulEqOrd.eq_of_compare hc
      simp only [put, hc, find?, if_true, List.map_cons, List.sum_cons, Option.map_some, Option.getD_some]
      omega
    | gt =>
      have hsum := ih hrest
      simp only [put, hc, find?, reduceCtorEq, if_false, List.map_cons, List.sum_cons]
      omega

end Lawful

end OrdMap

end LanChat.Lib
