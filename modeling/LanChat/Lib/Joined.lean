import Mathlib.Data.List.Dedup
import Mathlib.Data.List.Infix
import Mathlib.Data.List.Perm.Basic

/-!
# Sets of texts joined by a separator

A set of texts is kept as one text, joined by a separator, and a new text is
added unless it occurs somewhere in what is there. What is read back is the set
exactly if the texts are separate (`entries_joined_iff`): none contains the
separator, and a new one occurs in none of those before it.
-/

namespace LanChat.Lib

variable {α : Type*} [DecidableEq α] (sep : α)

/-- Adds an entry to a joined text. -/
def addEntry (text entry : List α) : List α :=
  if entry <:+: text then text else if text = [] then entry else text ++ sep :: entry

/-- The text after the entries have been added in order. -/
def joined (items : List (List α)) : List α := items.foldl (addEntry sep) []

/-- The entries that are read back. -/
def entries (text : List α) : List (List α) := (text.splitOn sep).filter fun entry => entry ≠ []

/-- The entry may be added after these. -/
def Fits (before : List (List α)) (entry : List α) : Prop :=
  sep ∉ entry ∧ (entry ∈ before ∨ ∀ other ∈ before, ¬entry <:+: other)

/-- Each entry may be added after those before it. -/
def Separate (items : List (List α)) : Prop :=
  ∀ before entry, before ++ [entry] <+: items → Fits sep before entry

variable {sep} {text entry other : List α} {items : List (List α)}

theorem joined_concat (items : List (List α)) (entry : List α) :
    joined sep (items ++ [entry]) = addEntry sep (joined sep items) entry := by
  rw [joined, List.foldl_append]
  rfl

theorem addEntry_eq_self (h : entry <:+: text) : addEntry sep text entry = text := by
  rw [addEntry, if_pos h]

/-! ## Separate texts -/

omit [DecidableEq α] in
theorem separate_nil : Separate sep ([] : List (List α)) := fun before entry h => by
  simp at h

omit [DecidableEq α] in
theorem separate_concat :
    Separate sep (items ++ [entry]) ↔ Separate sep items ∧ Fits sep items entry := by
  constructor
  · intro h
    refine ⟨fun before other hbefore => ?_, h items entry List.prefix_rfl⟩
    exact h before other (hbefore.trans (List.prefix_append _ _))
  · rintro ⟨hitems, hentry⟩ before other hbefore
    rcases List.prefix_concat_iff.mp hbefore with heq | hbefore
    · obtain ⟨rfl, hlast⟩ := List.append_inj' heq rfl
      obtain rfl := List.singleton_inj.mp hlast
      exact hentry
    · exact hitems before other hbefore

instance (before : List (List α)) (entry : List α) : Decidable (Fits sep before entry) :=
  inferInstanceAs (Decidable (sep ∉ entry ∧ (entry ∈ before ∨ ∀ other ∈ before, ¬entry <:+: other)))

omit [DecidableEq α] in
theorem separate_iff_take :
    Separate sep items ↔ ∀ i : Fin items.length, Fits sep (items.take i) items[i] := by
  constructor
  · intro h i
    refine h _ _ ?_
    rw [Fin.getElem_fin, List.take_append_getElem i.isLt]
    exact List.take_prefix _ _
  · rintro h before entry ⟨rest, rfl⟩
    have hlength : before.length < (before ++ [entry] ++ rest).length := by simp
    simpa using h ⟨before.length, hlength⟩

instance : Decidable (Separate sep items) := decidable_of_iff _ separate_iff_take.symm

/-! ## Occurrences in a joined text -/

omit [DecidableEq α] in
/-- A text without the separator occurs on one side of it. -/
theorem infix_around (hsep : sep ∉ entry) :
    entry <:+: text ++ sep :: other ↔ entry <:+: text ∨ entry <:+: other := by
  constructor
  · intro h
    rcases List.infix_append_iff.mp h with hleft | hright | ⟨left, right, rfl, hleft, hright⟩
    · exact .inl hleft
    · rcases List.infix_cons_iff.mp hright with hprefix | hright
      · cases entry with
        | nil => exact .inl List.nil_infix
        | cons c entry =>
          obtain ⟨rfl, -⟩ := List.cons_prefix_cons.mp hprefix
          exact absurd List.mem_cons_self hsep
      · exact .inr hright
    · cases right with
      | nil =>
        rw [List.append_nil]
        exact .inl hleft.isInfix
      | cons c right =>
        obtain ⟨rfl, -⟩ := List.cons_prefix_cons.mp hright
        exact absurd (List.mem_append_right _ List.mem_cons_self) hsep
  · rintro (h | h)
    · exact h.trans (List.prefix_append _ _).isInfix
    · exact h.trans ((List.suffix_cons sep other).trans (List.suffix_append _ _)).isInfix

/-- What has been added occurs in the text. -/
theorem infix_joined (h : entry ∈ items) : entry <:+: joined sep items := by
  induction items using List.reverseRecOn with
  | nil => cases h
  | append_singleton items last ih =>
    rw [joined_concat, addEntry]
    rcases List.mem_append.mp h with h | h
    · have hbefore := ih h
      split
      · exact hbefore
      · split
        · next hnil =>
          rw [hnil] at hbefore
          rw [List.eq_nil_of_infix_nil hbefore]
          exact List.nil_infix
        · exact hbefore.trans (List.prefix_append _ _).isInfix
    · obtain rfl := List.mem_singleton.mp h
      split
      · next hin => exact hin
      · split
        · exact List.infix_rfl
        · exact ((List.suffix_cons sep entry).trans (List.suffix_append _ _)).isInfix

/-- A text without the separator that occurs in the joined text occurs in one
of those that have been added. -/
theorem exists_of_infix_joined (hne : entry ≠ []) (hsep : sep ∉ entry)
    (h : entry <:+: joined sep items) : ∃ item ∈ items, entry <:+: item := by
  induction items using List.reverseRecOn with
  | nil => exact absurd (List.eq_nil_of_infix_nil h) hne
  | append_singleton items last ih =>
    have hlast : entry <:+: last → ∃ item ∈ items ++ [last], entry <:+: item := fun h =>
      ⟨last, List.mem_append_right _ (List.mem_singleton_self _), h⟩
    have hbefore : entry <:+: joined sep items → ∃ item ∈ items ++ [last], entry <:+: item := by
      intro h
      obtain ⟨item, hitem, hin⟩ := ih h
      exact ⟨item, List.mem_append_left _ hitem, hin⟩
    rw [joined_concat, addEntry] at h
    split at h
    · exact hbefore h
    · split at h
      · exact hlast h
      · exact (infix_around hsep |>.mp h).elim hbefore hlast

/-! ## Reading the entries -/

theorem entries_nil : entries sep ([] : List α) = [] := by
  simp [entries]

theorem entries_append (text other : List α) :
    entries sep (text ++ sep :: other) = entries sep text ++ entries sep other := by
  rw [entries, List.splitOn_append_cons_self, List.filter_append, entries, entries]

theorem entries_single (hne : entry ≠ []) (hsep : sep ∉ entry) : entries sep entry = [entry] := by
  rw [entries, List.splitOn_eq_singleton hsep]
  simp [hne]

/-- An entry does not contain the separator. -/
theorem notMem_of_mem_entries (h : entry ∈ entries sep text) : sep ∉ entry := by
  have hpart := (List.mem_filter.mp h).1
  clear h
  induction text generalizing entry with
  | nil =>
    rw [List.splitOn_nil, List.mem_singleton] at hpart
    rw [hpart]
    exact List.not_mem_nil
  | cons c text ih =>
    rw [List.splitOn_cons_eq_if_modifyHead] at hpart
    split at hpart
    · rcases List.mem_cons.mp hpart with rfl | hpart
      · exact List.not_mem_nil
      · exact ih hpart
    · next hc =>
      obtain ⟨first, rest, hsplit⟩ := List.exists_cons_of_ne_nil (List.splitOn_ne_nil sep text)
      rw [hsplit, List.modifyHead_cons] at hpart
      rcases List.mem_cons.mp hpart with rfl | hpart
      · refine List.not_mem_cons_of_ne_of_not_mem ?_ (ih (hsplit ▸ List.mem_cons_self))
        exact fun heq => hc (by simp [heq])
      · exact ih (hsplit ▸ List.mem_cons_of_mem _ hpart)

/-- A new entry is read behind the others. -/
theorem entries_addEntry (hne : entry ≠ []) (hsep : sep ∉ entry) (hnew : ¬entry <:+: text) :
    entries sep (addEntry sep text entry) = entries sep text ++ [entry] := by
  rw [addEntry, if_neg hnew]
  split
  · next hnil => rw [hnil, entries_nil, entries_single hne hsep, List.nil_append]
  · rw [entries_append, entries_single hne hsep]

/-- Of texts without the separator only those that have been added are read. -/
theorem mem_of_mem_entries_joined (hne : ∀ item ∈ items, item ≠ [])
    (hsep : ∀ item ∈ items, sep ∉ item) (h : entry ∈ entries sep (joined sep items)) :
    entry ∈ items := by
  induction items using List.reverseRecOn with
  | nil =>
    rw [joined, List.foldl_nil, entries_nil] at h
    exact h
  | append_singleton items last ih =>
    have hlast : last ∈ items ++ [last] := List.mem_append_right _ (List.mem_singleton_self _)
    have ih := ih (fun item hitem => hne item (List.mem_append_left _ hitem)) fun item hitem =>
      hsep item (List.mem_append_left _ hitem)
    rw [joined_concat] at h
    by_cases hin : last <:+: joined sep items
    · rw [addEntry_eq_self hin] at h
      exact List.mem_append_left _ (ih h)
    · rw [entries_addEntry (hne last hlast) (hsep last hlast) hin] at h
      rcases List.mem_append.mp h with h | h
      · exact List.mem_append_left _ (ih h)
      · exact List.mem_append_right _ h

theorem dedup_concat_of_mem (h : entry ∈ items) :
    (items ++ [entry]).dedup.Perm items.dedup := by
  rw [List.perm_ext_iff_of_nodup (List.nodup_dedup _) (List.nodup_dedup _)]
  intro other
  simp only [List.mem_dedup, List.mem_append, List.mem_singleton, or_iff_left_iff_imp]
  rintro rfl
  exact h

theorem dedup_concat_of_notMem (h : entry ∉ items) :
    (items ++ [entry]).dedup.Perm (items.dedup ++ [entry]) := by
  have hnodup : (items.dedup ++ [entry]).Nodup := by
    rw [List.nodup_append]
    refine ⟨List.nodup_dedup _, List.nodup_singleton _, ?_⟩
    rintro a ha b hb rfl
    obtain rfl := List.mem_singleton.mp hb
    exact h (List.mem_dedup.mp ha)
  rw [List.perm_ext_iff_of_nodup (List.nodup_dedup _) hnodup]
  simp

/-- The entries that are read are the texts that have been added, each once,
exactly if each text fitted when it was added. -/
theorem entries_joined_iff (hne : ∀ item ∈ items, item ≠ []) :
    (entries sep (joined sep items)).Perm items.dedup ↔ Separate sep items := by
  induction items using List.reverseRecOn with
  | nil => simp [joined, entries_nil, separate_nil]
  | append_singleton items last ih =>
    have hlast : last ≠ [] := hne last (by simp)
    have ih := ih fun item hitem => hne item (List.mem_append_left _ hitem)
    rw [separate_concat, joined_concat, ← ih]
    constructor
    · intro hread
      have hsep : sep ∉ last := notMem_of_mem_entries (hread.mem_iff.mpr (by simp))
      by_cases hin : last <:+: joined sep items
      · rw [addEntry_eq_self hin] at hread
        have hmem : last ∈ items := by
          refine mem_of_mem_entries_joined (fun item hitem => hne item (List.mem_append_left _ hitem))
            (fun item hitem => ?_) (hread.mem_iff.mpr (by simp))
          exact notMem_of_mem_entries (hread.mem_iff.mpr (by simp [hitem]))
        exact ⟨hread.trans (dedup_concat_of_mem hmem), hsep, .inl hmem⟩
      · have hnew : last ∉ items := fun hmem => hin (infix_joined hmem)
        rw [entries_addEntry hlast hsep hin] at hread
        have hbefore := (List.perm_append_right_iff _).mp (hread.trans (dedup_concat_of_notMem hnew))
        refine ⟨hbefore, hsep, .inr fun other hother hover => hin (hover.trans (infix_joined hother))⟩
    · rintro ⟨hread, hsep, hfits⟩
      by_cases hmem : last ∈ items
      · rw [addEntry_eq_self (infix_joined hmem)]
        exact hread.trans (dedup_concat_of_mem hmem).symm
      · have hin : ¬last <:+: joined sep items := by
          intro hin
          obtain ⟨other, hother, hover⟩ := exists_of_infix_joined hlast hsep hin
          exact hfits.elim hmem fun h => h other hother hover
        rw [entries_addEntry hlast hsep hin]
        exact (hread.append_right _).trans (dedup_concat_of_notMem hmem).symm

end LanChat.Lib
