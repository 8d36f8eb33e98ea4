import Mathlib.Data.List.Sort

/-!
# Merging lists by a key

A list is taken into another one as into a map that keeps the order of
insertion: a value replaces the one with its key where that stands, and is put
at the end if there is none. The values are then sorted, by a stable sort.

What is taken in keeps its own order in the sorted list exactly if, of two values
that the sort does not tell apart, the later one was not there before without the
earlier one in front of it (`sublist_merge_iff`).
-/

namespace LanChat.Lib

variable {α κ τ : Type}

/-! ## Order of two elements -/

section Before

variable {l l' : List α} {a b : α}

/-- Two elements of a list are in one order or in the other. -/
theorem pair_sublist_total (ha : a ∈ l) (hb : b ∈ l) (hne : a ≠ b) : [a, b].Sublist l ∨ [b, a].Sublist l := by
  induction l with
  | nil => cases ha
  | cons c l ih =>
    rcases List.mem_cons.mp ha with rfl | hal
    · have hbl : b ∈ l := (List.mem_cons.mp hb).resolve_left (Ne.symm hne)
      exact .inl ((List.singleton_sublist.mpr hbl).cons_cons a)
    rcases List.mem_cons.mp hb with rfl | hbl
    · exact .inr ((List.singleton_sublist.mpr hal).cons_cons b)
    · exact (ih hal hbl).imp (·.cons c) (·.cons c)

/-- Without repetitions, not in both. -/
theorem pair_sublist_asymm (hl : l.Nodup) (h : [a, b].Sublist l) : ¬[b, a].Sublist l := by
  intro h'
  have hne : a ≠ b := List.pairwise_iff_forall_sublist.mp hl h
  induction l with
  | nil => cases h
  | cons c l ih =>
    obtain ⟨hc, hl⟩ := List.nodup_cons.mp hl
    cases h with
    | cons _ h =>
      cases h' with
      | cons _ h' => exact ih hl h h'
      | cons_cons _ h' => exact hc (h.subset (List.mem_cons_of_mem a List.mem_cons_self))
    | cons_cons _ h =>
      cases h' with
      | cons _ h' => exact hc (h'.subset (List.mem_cons_of_mem b List.mem_cons_self))
      | cons_cons _ h' => exact hne rfl

/-- A part of a list is in its order as soon as every two elements are. -/
theorem sublist_iff_pairs (hl : l.Nodup) (hl' : l'.Nodup) (hsub : l' ⊆ l) :
    l'.Sublist l ↔ l'.Pairwise fun a b => [a, b].Sublist l := by
  refine ⟨fun h => List.pairwise_iff_forall_sublist.mpr fun hpair => hpair.trans h, fun h => ?_⟩
  have : Std.Antisymm fun a b : α => [a, b].Sublist l :=
    ⟨fun a b hab hba => absurd hba (pair_sublist_asymm hl hab)⟩
  exact List.sublist_of_subperm_of_pairwise (List.subperm_of_subset hl' hsub) h
    (List.pairwise_iff_forall_sublist.mpr fun hpair => hpair)

theorem pair_sublist_left (h : [a, b].Sublist (l ++ l')) (hb : b ∉ l') : [a, b].Sublist l := by
  obtain ⟨s, s', hsplit, hs, hs'⟩ := List.sublist_append_iff.mp h
  rcases s'.eq_nil_or_concat with rfl | ⟨init, last, rfl⟩
  · rw [List.append_nil] at hsplit
    rwa [hsplit]
  · rw [List.concat_eq_append] at hsplit hs'
    have hlast : b = last := by
      have := congrArg List.getLast? hsplit
      simpa using this
    rw [hlast] at hb
    exact absurd (hs'.subset (List.mem_append_right _ List.mem_cons_self)) hb

/-- Elements with different keys are in the order of their keys. -/
theorem pair_sublist_map {key : α → κ} (hl : (l.map key).Nodup) (ha : a ∈ l) (hb : b ∈ l) :
    [key a, key b].Sublist (l.map key) ↔ [a, b].Sublist l := by
  refine ⟨fun h => ?_, fun h => h.map key⟩
  obtain ⟨s, hs, hkeys⟩ := List.sublist_map_iff.mp h
  obtain ⟨a', rest, rfl, ha', hrest⟩ := List.map_eq_cons_iff.mp hkeys.symm
  obtain ⟨b', rest, rfl, hb', hnil⟩ := List.map_eq_cons_iff.mp hrest
  rw [List.map_eq_nil_iff] at hnil
  have hinj := List.inj_on_of_nodup_map hl
  rw [hinj (hs.subset List.mem_cons_self) ha ha',
    hinj (hs.subset (List.mem_cons_of_mem _ List.mem_cons_self)) hb hb', hnil] at hs
  exact hs

/-- A stable sort keeps two elements in their order unless their keys are in the other one. -/
theorem pair_sublist_mergeSort_iff [LinearOrder τ] {time : α → τ} (hl : l.Nodup) (ha : a ∈ l) (hb : b ∈ l)
    (hle : time a ≤ time b) (hne : a ≠ b) :
    [a, b].Sublist (l.mergeSort fun a b => time a ≤ time b) ↔ (time a = time b → [a, b].Sublist l) := by
  have htrans : ∀ a b c : α, decide (time a ≤ time b) = true → decide (time b ≤ time c) = true →
      decide (time a ≤ time c) = true := fun a b c hab hbc =>
    decide_eq_true (le_trans (of_decide_eq_true hab) (of_decide_eq_true hbc))
  have htotal : ∀ a b : α, (decide (time a ≤ time b) || decide (time b ≤ time a)) = true := fun a b => by
    simpa using le_total (time a) (time b)
  have hsorted := List.pairwise_mergeSort htrans htotal l
  have hperm := List.mergeSort_perm l fun a b => time a ≤ time b
  constructor
  · intro h heq
    refine (pair_sublist_total ha hb hne).resolve_right fun hback => ?_
    have hback := List.pair_sublist_mergeSort htrans htotal (decide_eq_true heq.ge) hback
    exact pair_sublist_asymm (hperm.nodup_iff.mpr hl) h hback
  · intro h
    rcases hle.eq_or_lt with heq | hlt
    · exact List.pair_sublist_mergeSort htrans htotal (decide_eq_true hle) (h heq)
    · refine (pair_sublist_total (hperm.mem_iff.mpr ha) (hperm.mem_iff.mpr hb) hne).resolve_right fun hback => ?_
      have := of_decide_eq_true (List.pairwise_iff_forall_sublist.mp hsorted hback)
      exact absurd hlt (not_lt.mpr this)

end Before

/-! ## Taking values in -/

variable [DecidableEq κ] {key : α → κ} {a b : α} {l values : List α}

/-- The value replaces the one with its key, or is the last one. -/
def setBy (key : α → κ) (a : α) : List α → List α
  | [] => [a]
  | b :: l => if key b = key a then a :: l else b :: setBy key a l

/-- All values, one after the other. -/
def setAll (key : α → κ) (values l : List α) : List α := values.foldl (fun l a => setBy key a l) l

theorem map_setBy (key : α → κ) (a : α) (l : List α) :
    (setBy key a l).map key = if key a ∈ l.map key then l.map key else l.map key ++ [key a] := by
  induction l with
  | nil => rfl
  | cons b l ih =>
    rw [setBy]
    split
    · next hsame => rw [List.map_cons, List.map_cons, ← hsame, if_pos List.mem_cons_self]
    · next hother =>
      have hmem : key a ∈ (b :: l).map key ↔ key a ∈ l.map key := by
        rw [List.map_cons, List.mem_cons]
        exact or_iff_right (Ne.symm hother)
      simp only [List.map_cons, ih, List.map_cons ▸ hmem]
      split <;> rfl

theorem nodup_setBy (h : (l.map key).Nodup) : ((setBy key a l).map key).Nodup := by
  rw [map_setBy]
  split
  · exact h
  · next hnew =>
    rw [← List.concat_eq_append]
    exact h.concat hnew

theorem mem_setBy (h : (l.map key).Nodup) : b ∈ setBy key a l ↔ b = a ∨ b ∈ l ∧ key b ≠ key a := by
  induction l with
  | nil => simp [setBy]
  | cons c l ih =>
    rw [List.map_cons, List.nodup_cons] at h
    rw [setBy]
    split
    · next hsame =>
      have hrest : ∀ b ∈ l, key b ≠ key a := fun b hb hkey =>
        h.1 (hsame.trans hkey.symm ▸ List.mem_map_of_mem hb)
      rw [List.mem_cons, List.mem_cons]
      constructor
      · exact fun hb => hb.imp_right fun hb => ⟨.inr hb, hrest b hb⟩
      · rintro (rfl | ⟨rfl | hb, hkey⟩)
        · exact .inl rfl
        · exact absurd hsame hkey
        · exact .inr hb
    · next hother =>
      rw [List.mem_cons, ih h.2, List.mem_cons]
      constructor
      · rintro (rfl | rfl | ⟨hb, hkey⟩)
        · exact .inr ⟨.inl rfl, hother⟩
        · exact .inl rfl
        · exact .inr ⟨.inr hb, hkey⟩
      · rintro (rfl | ⟨rfl | hb, hkey⟩)
        · exact .inr (.inl rfl)
        · exact .inl rfl
        · exact .inr (.inr ⟨hb, hkey⟩)

theorem nodup_setAll (h : (l.map key).Nodup) : ((setAll key values l).map key).Nodup := by
  induction values generalizing l with
  | nil => exact h
  | cons a values ih => exact ih (nodup_setBy h)

/-- New keys come behind the old ones. -/
theorem map_setAll (hvalues : (values.map key).Nodup) :
    (setAll key values l).map key = l.map key ++ (values.map key).filter fun k => k ∉ l.map key := by
  induction values generalizing l with
  | nil => exact (List.append_nil _).symm
  | cons a values ih =>
    rw [List.map_cons, List.nodup_cons] at hvalues
    rw [setAll, List.foldl_cons]
    change (setAll key values (setBy key a l)).map key = _
    rw [ih hvalues.2, map_setBy, List.map_cons]
    split
    · next hold => rw [List.filter_cons_of_neg (by simpa using hold)]
    · next hnew =>
      rw [List.filter_cons_of_pos (by simpa using hnew), List.append_assoc, List.singleton_append]
      congr 2
      refine List.filter_congr fun k hk => decide_eq_decide.mpr ?_
      have hne : k ≠ key a := fun h => hvalues.1 (h ▸ hk)
      rw [List.mem_append, List.mem_singleton, or_iff_left hne]

/-- Nothing is lost but what is replaced. -/
theorem mem_setAll (hvalues : (values.map key).Nodup) (h : (l.map key).Nodup) :
    b ∈ setAll key values l ↔ b ∈ values ∨ b ∈ l ∧ key b ∉ values.map key := by
  induction values generalizing l with
  | nil => simp [setAll]
  | cons a values ih =>
    rw [List.map_cons, List.nodup_cons] at hvalues
    rw [setAll, List.foldl_cons]
    change b ∈ setAll key values (setBy key a l) ↔ _
    rw [ih hvalues.2 (nodup_setBy h), mem_setBy h, List.map_cons, List.mem_cons, List.mem_cons, not_or]
    constructor
    · rintro (hb | ⟨rfl | ⟨hb, hkey⟩, hnot⟩)
      · exact .inl (.inr hb)
      · exact .inl (.inl rfl)
      · exact .inr ⟨hb, hkey, hnot⟩
    · rintro ((rfl | hb) | ⟨hb, hkey, hnot⟩)
      · exact .inr ⟨.inl rfl, hvalues.1⟩
      · exact .inl hb
      · exact .inr ⟨.inr ⟨hb, hkey⟩, hnot⟩

/-- A map that is made from values with different keys has these values. -/
theorem setAll_nil (hvalues : (values.map key).Nodup) : setAll key values [] = values := by
  suffices h : ∀ l : List α, ((l ++ values).map key).Nodup → setAll key values l = l ++ values from h [] hvalues
  clear hvalues
  induction values with
  | nil => exact fun l _ => (List.append_nil l).symm
  | cons a values ih =>
    intro l hkeys
    have hnew : ∀ b ∈ l, key b ≠ key a := by
      rw [List.map_append, List.map_cons] at hkeys
      exact fun b hb => (List.nodup_append.mp hkeys).2.2 _ (List.mem_map_of_mem hb) _ List.mem_cons_self
    have hlast : setBy key a l = l ++ [a] := by
      clear hkeys
      induction l with
      | nil => rfl
      | cons b l ih =>
        rw [setBy, if_neg (hnew b List.mem_cons_self), ih fun b hb => hnew b (List.mem_cons_of_mem _ hb)]
        rfl
    rw [List.append_cons] at hkeys ⊢
    rw [setAll, List.foldl_cons, hlast]
    exact ih (l ++ [a]) hkeys

/-! ## Merging -/

variable [LinearOrder τ] {time : α → τ}

/-- What is merged, in the order of `time`. -/
def merge (key : α → κ) (time : α → τ) (values l : List α) : List α :=
  (setAll key values l).mergeSort fun a b => time a ≤ time b

theorem nodup_merge (h : (l.map key).Nodup) : ((merge key time values l).map key).Nodup :=
  (((List.mergeSort_perm _ _).map key).nodup_iff).mpr (nodup_setAll h)

theorem mem_merge (hvalues : (values.map key).Nodup) (h : (l.map key).Nodup) :
    b ∈ merge key time values l ↔ b ∈ values ∨ b ∈ l ∧ key b ∉ values.map key := by
  rw [merge, List.mem_mergeSort, mem_setAll hvalues h]

/-- Two values that are taken in are in their order if the later one is new, or if
both have been there in this order. -/
theorem pair_sublist_setAll (hvalues : (values.map key).Nodup) (h : (l.map key).Nodup)
    (hpair : [a, b].Sublist values) :
    [a, b].Sublist (setAll key values l) ↔ (key b ∈ l.map key → [key a, key b].Sublist (l.map key)) := by
  have ha : a ∈ values := hpair.subset List.mem_cons_self
  have hb : b ∈ values := hpair.subset (List.mem_cons_of_mem _ List.mem_cons_self)
  rw [← pair_sublist_map (nodup_setAll h) ((mem_setAll hvalues h).mpr (.inl ha)) ((mem_setAll hvalues h).mpr (.inl hb)),
    map_setAll hvalues]
  constructor
  · intro hall hold
    exact pair_sublist_left hall fun hnew => of_decide_eq_true (List.mem_filter.mp hnew).2 hold
  · intro hold
    rcases em (key b ∈ l.map key) with hbl | hbl
    · exact (hold hbl).trans (List.sublist_append_left _ _)
    rcases em (key a ∈ l.map key) with hal | hal
    · have hnew : key b ∈ (values.map key).filter fun k => k ∉ l.map key :=
        List.mem_filter.mpr ⟨List.mem_map_of_mem hb, decide_eq_true hbl⟩
      exact (List.singleton_sublist.mpr hal).append (List.singleton_sublist.mpr hnew)
    · have hkeys := (hpair.map key).filter fun k => decide (k ∉ l.map key)
      have hboth : ([key a, key b].filter fun k => decide (k ∉ l.map key)) = [key a, key b] :=
        List.filter_eq_self.mpr (by simp only [List.forall_mem_cons]; simp [hal, hbl])
      rw [List.map_cons, List.map_cons, List.map_nil, hboth] at hkeys
      exact hkeys.trans (List.sublist_append_right _ _)

/-- When the values keep their order. -/
theorem sublist_merge_iff (hvalues : (values.map key).Nodup) (h : (l.map key).Nodup)
    (hsorted : values.Pairwise fun a b => time a ≤ time b) :
    values.Sublist (merge key time values l) ↔
      values.Pairwise fun a b => time a = time b → key b ∈ l.map key → [key a, key b].Sublist (l.map key) := by
  have hall : (setAll key values l).Nodup := (nodup_setAll h).of_map key
  rw [sublist_iff_pairs ((nodup_merge h).of_map key) (hvalues.of_map key) fun a ha => (mem_merge hvalues h).mpr (.inl ha),
    List.pairwise_iff_forall_sublist, List.pairwise_iff_forall_sublist]
  refine forall_congr' fun a => forall_congr' fun b => forall_congr' fun hpair => ?_
  have ha := (mem_setAll hvalues h).mpr (.inl (hpair.subset List.mem_cons_self))
  have hb := (mem_setAll hvalues h).mpr (.inl (hpair.subset (List.mem_cons_of_mem _ List.mem_cons_self)))
  rw [merge, pair_sublist_mergeSort_iff hall ha hb (List.pairwise_iff_forall_sublist.mp hsorted hpair)
      (List.pairwise_iff_forall_sublist.mp (hvalues.of_map key) hpair), pair_sublist_setAll hvalues h hpair]

end LanChat.Lib
