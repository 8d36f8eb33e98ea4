import Mathlib.Data.List.Basic

/-!
# A letter that is written as others

A text is respelled by writing a letter `c` as `n` times a letter `d`, which may
be in the text already. Two texts are respelled alike just if their other letters
are the same and the runs of `c` and `d` between these weigh the same
(`respell_eq_iff`). This is a relation between the texts; nothing is respelled
for it.

With two letters for one, a text is the shortest of those that are respelled alike
if no `d` stands beside a `c` or a `d`, and no other one is as short
(`Tight.shortest_unique`).
-/

namespace LanChat.Lib.Respelling

variable {α : Type}

section Runs

variable {d a a' : α} {w w' : Nat} {text text' : List α}

/-- The run in front of a letter and what is behind it can be told from the whole. -/
theorem replicate_letter_inj (ha : a ≠ d) (ha' : a' ≠ d)
    (h : List.replicate w d ++ a :: text = List.replicate w' d ++ a' :: text') : w = w' ∧ a = a' ∧ text = text' := by
  induction w generalizing w' with
  | zero =>
    cases w' with
    | zero => exact ⟨rfl, List.cons.inj h⟩
    | succ w' => exact absurd (List.cons.inj h).1 ha
  | succ w ih =>
    cases w' with
    | zero => exact absurd (List.cons.inj h).1.symm ha'
    | succ w' =>
      obtain ⟨hw, hrest⟩ := ih (List.cons.inj h).2
      exact ⟨congrArg Nat.succ hw, hrest⟩

theorem replicate_ne_letter (ha : a ≠ d) : List.replicate w d ≠ List.replicate w' d ++ a :: text := fun h =>
  ha (List.eq_of_mem_replicate (h ▸ List.mem_append_right _ List.mem_cons_self))

end Runs

variable [DecidableEq α]

section Definitions

variable (c d : α) (n : Nat)

/-- Every `c` is written as `n` times `d`. -/
def respell (text : List α) : List α := text.flatMap fun a => if a = c then List.replicate n d else [a]

def IsRun (run : List α) : Prop := ∀ a ∈ run, a = c ∨ a = d

/-- In a run a `c` weighs `n`, and a `d` one. -/
def weight : List α → Nat
  | [] => 0
  | a :: run => (if a = c then n else 1) + weight run

/-- Letter by letter the same, with runs of one weight between the letters. -/
inductive Alike : List α → List α → Prop where
  | run {run run' : List α} (hrun : IsRun c d run) (hrun' : IsRun c d run')
    (hweight : weight c n run = weight c n run') : Alike run run'
  | letter {run run' text text' : List α} {a : α} (hrun : IsRun c d run) (hrun' : IsRun c d run')
    (hweight : weight c n run = weight c n run') (hc : a ≠ c) (hd : a ≠ d) (hrest : Alike text text') :
    Alike (run ++ a :: text) (run' ++ a :: text')

/-- No `d` stands beside a `c` or a `d`. -/
def Tight (text : List α) : Prop := ∀ pair ∈ [[d, d], [c, d], [d, c]], ¬pair <:+: text

end Definitions

variable {c d a : α} {n : Nat} {run text text' : List α}

theorem respell_append (text text' : List α) :
    respell c d n (text ++ text') = respell c d n text ++ respell c d n text' :=
  List.flatMap_append

theorem respell_self (text : List α) : respell c d n (c :: text) = List.replicate n d ++ respell c d n text := by
  rw [respell, List.flatMap_cons, if_pos rfl, respell]

theorem respell_letter (hc : a ≠ c) (text : List α) : respell c d n (a :: text) = a :: respell c d n text := by
  rw [respell, List.flatMap_cons, if_neg hc, List.singleton_append, respell]

theorem respell_of_notMem (hc : c ∉ text) : respell c d n text = text := by
  induction text with
  | nil => rfl
  | cons a text ih =>
    rw [respell_letter (List.ne_of_not_mem_cons hc).symm, ih (List.not_mem_of_not_mem_cons hc)]

theorem length_le_respell (hn : 0 < n) (text : List α) : text.length ≤ (respell c d n text).length := by
  induction text with
  | nil => exact Nat.le_refl 0
  | cons a text ih =>
    by_cases ha : a = c
    · rw [ha, respell_self, List.length_append, List.length_replicate, List.length_cons, Nat.add_comm]
      exact Nat.add_le_add hn ih
    · rw [respell_letter ha]
      exact Nat.succ_le_succ ih

/-- Of a run only the weight is left. -/
theorem respell_run (hrun : IsRun c d run) : respell c d n run = List.replicate (weight c n run) d := by
  induction run with
  | nil => rfl
  | cons a run ih =>
    obtain ⟨ha, hrun⟩ := List.forall_mem_cons.mp hrun
    by_cases hc : a = c
    · subst hc
      rw [respell_self, ih hrun, weight, if_pos rfl, List.replicate_append_replicate]
    · obtain rfl : a = d := ha.resolve_left hc
      rw [respell_letter hc, ih hrun, weight, if_neg hc, Nat.add_comm, List.replicate_succ]

/-- A text is a run, or a run and a letter behind it. -/
theorem run_or_letter (c d : α) (text : List α) :
    IsRun c d text ∨ ∃ run a rest, text = run ++ a :: rest ∧ IsRun c d run ∧ a ≠ c ∧ a ≠ d := by
  induction text with
  | nil => exact .inl (List.forall_mem_nil _)
  | cons b text ih =>
    by_cases hb : b = c ∨ b = d
    · rcases ih with hrun | ⟨run, a, rest, rfl, hrun, hletter⟩
      · exact .inl (List.forall_mem_cons.mpr ⟨hb, hrun⟩)
      · exact .inr ⟨b :: run, a, rest, rfl, List.forall_mem_cons.mpr ⟨hb, hrun⟩, hletter⟩
    · exact .inr ⟨[], b, text, rfl, List.forall_mem_nil _, not_or.mp hb⟩

theorem Alike.respell_eq (h : Alike c d n text text') : respell c d n text = respell c d n text' := by
  induction h with
  | run hrun hrun' hweight => rw [respell_run hrun, respell_run hrun', hweight]
  | letter hrun hrun' hweight hc _ _ ih =>
    rw [respell_append, respell_append, respell_run hrun, respell_run hrun', hweight, respell_letter hc,
      respell_letter hc, ih]

theorem alike_of_respell_eq (h : respell c d n text = respell c d n text') : Alike c d n text text' := by
  induction hlength : text.length using Nat.strongRecOn generalizing text text' with
  | _ length ih =>
    have hcut : ∀ {run a rest}, IsRun c d run → a ≠ c →
        respell c d n (run ++ a :: rest) = List.replicate (weight c n run) d ++ a :: respell c d n rest :=
      fun hrun hc => by rw [respell_append, respell_run hrun, respell_letter hc]
    rcases run_or_letter c d text with hrun | ⟨run, a, rest, rfl, hrun, hc, hd⟩ <;>
      rcases run_or_letter c d text' with hrun' | ⟨run', a', rest', rfl, hrun', hc', hd'⟩
    · rw [respell_run hrun, respell_run hrun'] at h
      exact .run hrun hrun' (List.replicate_left_inj.mp h)
    · rw [respell_run hrun, hcut hrun' hc'] at h
      exact absurd h (replicate_ne_letter hd')
    · rw [respell_run hrun', hcut hrun hc] at h
      exact absurd h.symm (replicate_ne_letter hd)
    · rw [hcut hrun hc, hcut hrun' hc'] at h
      obtain ⟨hweight, rfl, hrest⟩ := replicate_letter_inj hd hd' h
      exact .letter hrun hrun' hweight hc hd (ih rest.length (by simp [← hlength]; omega) hrest rfl)

theorem respell_eq_iff : respell c d n text = respell c d n text' ↔ Alike c d n text text' :=
  ⟨alike_of_respell_eq, Alike.respell_eq⟩

/-! ## The shortest text -/

variable {b : α}

omit [DecidableEq α] in
theorem Tight.tail (h : Tight c d (a :: text)) : Tight c d text := fun pair hpair hwithin =>
  h pair hpair (hwithin.trans (List.suffix_cons a text).isInfix)

theorem respell_cons_ne_nil : respell c d 2 (a :: text) ≠ [] := by
  by_cases ha : a = c
  · rw [ha, respell_self]
    exact List.cons_ne_nil _ _
  · rw [respell_letter ha]
    exact List.cons_ne_nil _ _

/-- The first letters are the same, or one is a `c` where the other is a `d`. -/
theorem respell_cons_cases (h : respell c d 2 (a :: text) = respell c d 2 (b :: text')) :
    (a = b ∧ respell c d 2 text = respell c d 2 text') ∨
    (a = c ∧ b = d ∧ d :: respell c d 2 text = respell c d 2 text') ∨
    a = d ∧ b = c ∧ respell c d 2 text = d :: respell c d 2 text' := by
  by_cases ha : a = c <;> by_cases hb : b = c
  · subst ha hb
    rw [respell_self, respell_self] at h
    exact .inl ⟨rfl, List.append_cancel_left h⟩
  · subst ha
    rw [respell_self, respell_letter hb] at h
    exact .inr (.inl ⟨rfl, (List.cons.inj h).1.symm, (List.cons.inj h).2⟩)
  · subst hb
    rw [respell_self, respell_letter ha] at h
    exact .inr (.inr ⟨(List.cons.inj h).1, rfl, (List.cons.inj h).2⟩)
  · rw [respell_letter ha, respell_letter hb] at h
    exact .inl (List.cons.inj h)

theorem cons_of_respell (h : respell c d 2 text = d :: text') : ∃ a rest, text = a :: rest ∧ (a = c ∨ a = d) := by
  cases text with
  | nil => cases h
  | cons a rest =>
    refine ⟨a, rest, rfl, ?_⟩
    by_cases ha : a = c
    · exact .inl ha
    · rw [respell_letter ha] at h
      exact .inr (List.cons.inj h).1

omit [DecidableEq α] in
theorem Tight.behind_self (h : Tight c d (c :: text)) : text.head? ≠ some d := by
  cases text with
  | nil => nofun
  | cons b text =>
    rintro ⟨⟩
    exact h [c, d] (by simp) ⟨[], text, rfl⟩

theorem Tight.behind_other (h : Tight c d (d :: text)) (text' : List α) : respell c d 2 text ≠ d :: text' := by
  intro heq
  obtain ⟨b, rest, rfl, rfl | rfl⟩ := cons_of_respell heq
  · exact h [d, b] (by simp) ⟨[], rest, rfl⟩
  · exact h [b, b] (by simp) ⟨[], rest, rfl⟩

/-- The second part is for a text that stands behind half a `c`. -/
theorem Tight.shortest (hcd : c ≠ d) (htight : Tight c d text) :
    (∀ text', respell c d 2 text = respell c d 2 text' → text.length ≤ text'.length) ∧
    (text.head? ≠ some d → ∀ text', d :: respell c d 2 text = respell c d 2 text' → text.length < text'.length) := by
  induction text with
  | nil =>
    refine ⟨fun _ _ => Nat.zero_le _, fun _ text' h => List.length_pos_iff.mpr ?_⟩
    rintro rfl
    cases h
  | cons a text ih =>
    obtain ⟨ih, ihBehind⟩ := ih htight.tail
    have hshortest : ∀ text', respell c d 2 (a :: text) = respell c d 2 text' → (a :: text).length ≤ text'.length := by
      intro text' h
      cases text' with
      | nil => exact absurd h respell_cons_ne_nil
      | cons b text' =>
        rcases respell_cons_cases h with ⟨-, hrest⟩ | ⟨rfl, rfl, hrest⟩ | ⟨rfl, rfl, hrest⟩
        · exact Nat.succ_le_succ (ih text' hrest)
        · exact Nat.succ_le_succ (Nat.le_of_lt (ihBehind htight.behind_self text' hrest))
        · exact absurd hrest (htight.behind_other _)
    refine ⟨hshortest, fun hhead text' h => ?_⟩
    rw [← respell_letter hcd.symm] at h
    cases text' with
    | nil => exact absurd h respell_cons_ne_nil
    | cons b text' =>
      rcases respell_cons_cases h with ⟨-, hrest⟩ | ⟨hdc, -, -⟩ | ⟨-, rfl, hrest⟩
      · exact Nat.lt_succ_of_le (hshortest text' hrest)
      · exact absurd hdc.symm hcd
      · obtain ⟨e, rest, heq, he⟩ := cons_of_respell hrest
        cases heq
        obtain rfl : a = b := he.resolve_right fun hd => hhead (congrArg some hd)
        rw [respell_self] at hrest
        exact Nat.succ_lt_succ (ihBehind htight.behind_self text' (List.cons.inj hrest).2)

theorem Tight.shortest_unique (hcd : c ≠ d) (htight : Tight c d text) (h : respell c d 2 text = respell c d 2 text')
    (hlength : text'.length ≤ text.length) : text' = text := by
  induction text generalizing text' with
  | nil => exact List.eq_nil_of_length_eq_zero (Nat.le_zero.mp hlength)
  | cons a text ih =>
    cases text' with
    | nil => exact absurd h respell_cons_ne_nil
    | cons b text' =>
      have hrests : text'.length ≤ text.length := Nat.le_of_succ_le_succ hlength
      rcases respell_cons_cases h with ⟨rfl, hrest⟩ | ⟨rfl, rfl, hrest⟩ | ⟨rfl, rfl, hrest⟩
      · rw [ih htight.tail hrest hrests]
      · exact absurd ((htight.tail.shortest hcd).2 htight.behind_self text' hrest) (Nat.not_lt.mpr hrests)
      · exact absurd hrest (htight.behind_other _)

end LanChat.Lib.Respelling
