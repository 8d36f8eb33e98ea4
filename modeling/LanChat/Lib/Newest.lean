import Mathlib.Data.List.DropRight
import Mathlib.Data.List.Sort

/-!
# The end of a sorted list

A list that is in the order of a key is sorted by this key again, by a sort
that need not be stable, and cut down to its last `n` elements. What remains is
known if no two of the last `n + 1` elements have the same key, and only then
(`rtake_sorted_iff`).

A list that is taken away from its end, `n` elements at a time, comes in its
own order only if the first `n` are all of it (`batches_eq_iff`).
-/

namespace LanChat.Lib

variable {α κ τ : Type} [LinearOrder κ] {key : α → κ} {tag : α → τ} {xs ys : List α} {n : Nat}

theorem map_rtake (f : α → τ) (xs : List α) (n : Nat) : (xs.rtake n).map f = (xs.map f).rtake n := by
  rw [List.rtake, List.rtake, List.map_drop, List.length_map]

theorem rtake_of_length_le (h : xs.length ≤ n) : xs.rtake n = xs := by
  rw [List.rtake, Nat.sub_eq_zero_of_le h, List.drop_zero]

/-- From the end, the last elements are those of the whole list. -/
theorem getElem?_reverse_rtake {i : Nat} (h : i < n) : (xs.rtake n).reverse[i]? = xs.reverse[i]? := by
  rw [List.rtake_eq_reverse_take_reverse, List.reverse_reverse, List.getElem?_take_of_lt h]

/-- What is above the end of a sorted list is above all of it. -/
theorem forall_lt_of_rtake {k : κ} (hxs : xs.Pairwise fun a b => key a ≤ key b)
    (h : ∀ a ∈ xs.rtake (n + 1), key a < k) : ∀ a ∈ xs, key a < k := by
  rcases xs.eq_nil_or_concat with rfl | ⟨init, last, rfl⟩
  · exact nofun
  rw [List.concat_eq_append] at hxs h ⊢
  rw [List.rtake_concat_succ] at h
  have hlast : key last < k := h last (List.mem_append_right _ List.mem_cons_self)
  intro a ha
  rcases List.mem_append.mp ha with ha | ha
  · exact lt_of_le_of_lt ((List.pairwise_append.mp hxs).2.2 a ha last List.mem_cons_self) hlast
  · rw [List.mem_singleton.mp ha]
    exact hlast

/-- Where the end of a sorted list has no ties, every way to sort the list ends like it. -/
theorem rtake_eq_of_strict (hxs : xs.Pairwise fun a b => key a ≤ key b)
    (hys : ys.Pairwise fun a b => key a ≤ key b) (hperm : ys.Perm xs)
    (hstrict : (xs.rtake (n + 1)).Pairwise fun a b => key a < key b) : ys.rtake n = xs.rtake n := by
  induction n generalizing xs ys with
  | zero => rw [List.rtake_zero, List.rtake_zero]
  | succ n ih =>
    rcases xs.eq_nil_or_concat with rfl | ⟨init, x, rfl⟩
    · rw [hperm.eq_nil]
    rcases ys.eq_nil_or_concat with rfl | ⟨init', y, rfl⟩
    · rw [hperm.symm.eq_nil]
    simp only [List.concat_eq_append, List.rtake_concat_succ] at *
    obtain ⟨hinit, -, hx⟩ := List.pairwise_append.mp hxs
    obtain ⟨hinit', -, hy⟩ := List.pairwise_append.mp hys
    obtain ⟨hend, -, habove⟩ := List.pairwise_append.mp hstrict
    have hmax : ∀ a ∈ init, key a < key x :=
      forall_lt_of_rtake hinit fun a ha => habove a ha x List.mem_cons_self
    have hlast : y = x := by
      have hmem : y ∈ init ++ [x] := hperm.mem_iff.mp (List.mem_append_right _ List.mem_cons_self)
      have hmem' : x ∈ init' ++ [y] := hperm.mem_iff.mpr (List.mem_append_right _ List.mem_cons_self)
      rcases List.mem_append.mp hmem with hinit | hsame
      · rcases List.mem_append.mp hmem' with hinit' | hsame
        · exact absurd (hmax y hinit) (not_lt.mpr (hy x hinit' y List.mem_cons_self))
        · exact (List.mem_singleton.mp hsame).symm
      · exact List.mem_singleton.mp hsame
    subst hlast
    rw [ih hinit hinit' ((List.perm_append_right_iff _).mp hperm) hend]

/-- Two neighbours with one key may be exchanged. -/
theorem sorted_swap {before after : List α} {x y : α} (htie : key x = key y)
    (h : (before ++ x :: y :: after).Pairwise fun a b => key a ≤ key b) :
    (before ++ y :: x :: after).Pairwise fun a b => key a ≤ key b := by
  have hkeys : (before ++ y :: x :: after).map key = (before ++ x :: y :: after).map key := by
    simp [htie]
  rw [← List.pairwise_map (f := key) (R := (· ≤ ·))] at h ⊢
  rwa [hkeys]

/-- Two neighbours near the end that may be exchanged have different keys. -/
theorem lt_of_rtake_eq {before after : List α} {x y : α} (hafter : after.length < n)
    (hxs : (before ++ x :: y :: after).Pairwise fun a b => key a ≤ key b)
    (htags : ((before ++ x :: y :: after).map tag).Nodup)
    (h : ∀ ys : List α, ys.Perm (before ++ x :: y :: after) → (ys.Pairwise fun a b => key a ≤ key b) →
      (ys.rtake n).map tag = ((before ++ x :: y :: after).rtake n).map tag) : key x < key y := by
  have hle : key x ≤ key y :=
    (List.pairwise_cons.mp (List.pairwise_append.mp hxs).2.1).1 y List.mem_cons_self
  refine lt_of_le_of_ne hle fun htie => ?_
  have hswap := h (before ++ y :: x :: after) ((List.Perm.swap x y after).append_left before)
    (sorted_swap htie hxs)
  have hat : ∀ a b : α, ((before ++ a :: b :: after).rtake n).reverse[after.length]? = some b := by
    intro a b
    rw [getElem?_reverse_rtake hafter]
    simp
  have htag := congrArg (fun tags => tags.reverse[after.length]?) hswap
  simp only [← List.map_reverse, List.getElem?_map, hat, Option.map_some, Option.some.injEq] at htag
  rw [List.map_append, List.map_cons, List.map_cons] at htags
  have hdistinct := List.rel_of_pairwise_cons (List.nodup_append.mp htags).2.1 (List.mem_cons_self (a := tag y))
  exact hdistinct htag

/-- Every way to sort a sorted list ends like it exactly if its end has no ties. -/
theorem rtake_sorted_iff (hxs : xs.Pairwise fun a b => key a ≤ key b) (htags : (xs.map tag).Nodup) :
    (∀ ys : List α, ys.Perm xs → (ys.Pairwise fun a b => key a ≤ key b) →
        (ys.rtake n).map tag = (xs.rtake n).map tag) ↔
      (xs.rtake (n + 1)).Pairwise fun a b => key a < key b := by
  refine ⟨fun h => ?_, fun h ys hperm hys => by rw [rtake_eq_of_strict hxs hys hperm h]⟩
  have : IsTrans α fun a b => key a < key b := ⟨fun _ _ _ => lt_trans⟩
  refine List.isChain_iff_pairwise.mp (List.isChain_iff_getElem.mpr fun i hi => ?_)
  obtain ⟨d, hd⟩ : ∃ d, d = xs.length - (n + 1) := ⟨_, rfl⟩
  have hend : xs.rtake (n + 1) = xs.drop d := by rw [hd, List.rtake]
  simp only [hend, List.getElem_drop] at hi ⊢
  rw [List.length_drop] at hi
  have hsplit : xs = xs.take (d + i) ++ xs[d + i] :: xs[d + (i + 1)] :: xs.drop (d + (i + 1) + 1) := by
    rw [← List.drop_eq_getElem_cons, ← Nat.add_assoc, ← List.drop_eq_getElem_cons, List.take_append_drop]
  refine @lt_of_rtake_eq α κ τ _ key tag n (xs.take (d + i)) (xs.drop (d + (i + 1) + 1)) _ _ ?_ ?_ ?_ ?_
  · rw [List.length_drop]
    omega
  · rwa [← hsplit]
  · rwa [← hsplit]
  · rwa [← hsplit]

/-! ## Taking a list away from its end -/

/-- The first `k` batches of `n` elements, each from the end of what is left. -/
def batches (n : Nat) : Nat → List α → List α
  | 0, _ => []
  | k + 1, xs => xs.rtake n ++ batches n k (xs.rdrop n)

theorem batches_nil (n k : Nat) : batches n k ([] : List α) = [] := by
  induction k with
  | zero => rfl
  | succ k ih => rw [batches, List.rtake_nil, List.rdrop_nil, ih, List.append_nil]

/-- What is left when the end is taken away. -/
theorem filter_not_mem_rtake [DecidableEq α] (h : xs.Nodup) (n : Nat) :
    xs.filter (fun a => a ∉ xs.rtake n) = xs.rdrop n := by
  have hsplit : xs.rdrop n ++ xs.rtake n = xs := List.take_append_drop _ _
  obtain ⟨-, -, hapart⟩ := List.nodup_append.mp (hsplit.symm ▸ h)
  have hkeep : (xs.rdrop n).filter (fun a => a ∉ xs.rtake n) = xs.rdrop n :=
    List.filter_eq_self.mpr fun a ha => decide_eq_true fun hmem => hapart a ha a hmem rfl
  have hdrop : (xs.rtake n).filter (fun a => a ∉ xs.rtake n) = [] :=
    List.filter_eq_nil_iff.mpr fun a ha => by simpa using ha
  calc xs.filter (fun a => a ∉ xs.rtake n)
      = (xs.rdrop n ++ xs.rtake n).filter (fun a => a ∉ xs.rtake n) := by rw [hsplit]
    _ = xs.rdrop n := by rw [List.filter_append, hkeep, hdrop, List.append_nil]

/-- Enough batches give the list in its own order exactly if one is enough. -/
theorem batches_eq_iff {k : Nat} (h : xs.Nodup) (henough : xs.length ≤ k * n) :
    batches n k xs = xs ↔ xs.length ≤ n := by
  cases k with
  | zero =>
    rw [Nat.zero_mul, Nat.le_zero, List.length_eq_zero_iff] at henough
    rw [henough]
    exact ⟨fun _ => Nat.zero_le n, fun _ => rfl⟩
  | succ k =>
    rw [batches]
    constructor
    · intro heq
      by_contra hlong
      have hlong := Nat.not_le.mp hlong
      obtain ⟨first, rest, rfl⟩ : ∃ first rest, xs = first :: rest :=
        List.exists_cons_of_ne_nil (List.length_pos_iff.mp (Nat.zero_lt_of_lt hlong))
      have hend : (first :: rest).rtake n = rest.drop (rest.length - n) := by
        rw [List.rtake, show (first :: rest).length - n = (rest.length - n) + 1 by simp at hlong ⊢; omega]
        rfl
      rcases n with _ | n
      · rw [Nat.mul_zero, Nat.le_zero] at henough
        cases henough
      have hbatch : (rest.drop (rest.length - (n + 1))).length = n + 1 := by
        rw [List.length_cons] at hlong
        rw [List.length_drop]
        omega
      obtain ⟨a, as, ha⟩ := List.exists_cons_of_length_eq_add_one hbatch
      rw [hend, ha, List.cons_append, List.cons.injEq] at heq
      have hmem : first ∈ rest := List.mem_of_mem_drop (by rw [ha, ← heq.1]; exact List.mem_cons_self)
      exact (List.nodup_cons.mp h).1 hmem
    · intro hshort
      rw [rtake_of_length_le hshort, List.rdrop, Nat.sub_eq_zero_of_le hshort, List.take_zero, batches_nil,
        List.append_nil]

end LanChat.Lib
