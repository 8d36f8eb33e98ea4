import Mathlib.Data.List.Induction

/-!
# A value with a spare copy

A value is kept in a primary place that may fail to answer, and in a spare one
that always does. A write that fails goes to the spare place, and one that
succeeds empties it. A value is removed from both places, but the removal is
complete only if the primary place has answered. A read takes what the place has
that answers.

What is read is what was written last under a condition on the writes and their
success alone (`reads_last_iff`).
-/

namespace LanChat.Lib.Fallback

variable {α : Type}

structure Cell (α : Type) where
  primary : Option α
  spare : Option α

/-- A write or a removal; `ok` says whether the primary place answers. -/
inductive Op (α : Type) where
  | write (v : α) (ok : Bool)
  | clear (ok : Bool)

namespace Op

/-- What is there afterwards. -/
def value : Op α → Option α
  | write v _ => some v
  | clear _ => none

/-- The primary place has answered. -/
def succeeds : Op α → Bool
  | write _ ok => ok
  | clear ok => ok

/-- The caller is told that it has been done. -/
def completes : Op α → Bool
  | write .. => true
  | clear ok => ok

end Op

/-- The last operation of a kind. -/
def last (p : Op α → Bool) (ops : List (Op α)) : Option (Op α) := ops.reverse.find? p

theorem last_concat (p : Op α → Bool) (ops : List (Op α)) (op : Op α) :
    last p (ops ++ [op]) = if p op then some op else last p ops := by
  rw [last, List.reverse_concat, List.find?_cons]
  cases p op <;> rfl

namespace Cell

def step (c : Cell α) : Op α → Cell α
  | .write v true => ⟨some v, none⟩
  | .write v false => ⟨c.primary, some v⟩
  | .clear true => ⟨none, none⟩
  | .clear false => ⟨c.primary, none⟩

/-- What is read if the primary place answers, or if it does not. -/
def read (c : Cell α) : Bool → Option α
  | true => c.primary
  | false => c.spare

/-- What is read afterwards is what was written last: the last operation that the primary
place has answered has left the same as the last one that was completed; or the read
goes to the spare place, and the last operation was a write that failed. `blank` stands
for no value. -/
def UpToDate (blank : α) (c : Cell α) (ops : List (Op α)) (ok : Bool) : Prop :=
  ∀ op, last Op.completes ops = some op →
    match ok with
    | true => ((last Op.succeeds ops).elim c.primary Op.value).getD blank = op.value.getD blank
    | false => op.value.getD blank = blank ∨ ∃ v, ops.getLast? = some (.write v false)

variable {blank : α} {c : Cell α} {ops : List (Op α)}

theorem primary_foldl (c : Cell α) (ops : List (Op α)) :
    (ops.foldl step c).primary = (last Op.succeeds ops).elim c.primary Op.value := by
  induction ops using List.reverseRecOn with
  | nil => rfl
  | append_singleton ops op ih =>
    rw [List.foldl_append, List.foldl_cons, List.foldl_nil, last_concat]
    obtain ⟨v, ok⟩ | ok := op
    · cases ok with
      | true => rfl
      | false => exact ih
    · cases ok with
      | true => rfl
      | false => exact ih

/-- The spare place holds something only if the last operation was a write that failed. -/
theorem spare_step (c : Cell α) (op : Op α) :
    (∃ v, op = .write v false ∧ (c.step op).spare = some v) ∨
      (∀ v, op ≠ .write v false) ∧ (c.step op).spare = none := by
  obtain ⟨v, ok⟩ | ok := op
  · cases ok with
    | true => exact .inr ⟨fun _ => by simp, rfl⟩
    | false => exact .inl ⟨v, rfl, rfl⟩
  · cases ok <;> exact .inr ⟨fun _ => by simp, rfl⟩

theorem reads_last_iff (blank : α) (c : Cell α) (ops : List (Op α)) (ok : Bool) :
    (∀ op, last Op.completes ops = some op → ((ops.foldl step c).read ok).getD blank = op.value.getD blank) ↔
      c.UpToDate blank ops ok := by
  refine forall_congr' fun op => forall_congr' fun hlast => ?_
  cases ok with
  | true => rw [read, primary_foldl]
  | false =>
    rw [read]
    rcases ops.eq_nil_or_concat with rfl | ⟨before, final, rfl⟩
    · cases hlast
    rw [List.concat_eq_append] at hlast ⊢
    rw [last_concat] at hlast
    simp only [List.foldl_append, List.foldl_cons, List.foldl_nil, List.getLast?_concat, Option.some.injEq]
    obtain ⟨v, rfl, hspare⟩ | ⟨hother, hspare⟩ := (before.foldl step c).spare_step final
    · cases hlast
      rw [hspare]
      exact ⟨fun _ => .inr ⟨v, rfl⟩, fun _ => rfl⟩
    · rw [hspare]
      constructor
      · exact fun h => .inl h.symm
      · rintro (h | ⟨v, hv⟩)
        · exact h.symm
        · exact absurd hv (hother v)

end Cell

end LanChat.Lib.Fallback
