import Mathlib.Data.List.Basic
import Mathlib.Algebra.GroupWithZero.Nat
import Mathlib.Tactic.Common

/-!
# Streams of frames

A stream is the concatenation of frames, and a receiver sees it in pieces. What
it has seen of the stream is a number of complete frames and the beginning of
the next one (`exists_cut`).

* `stream`: the concatenation.
* `completed`, `remainder`: the frames in the first `n` elements of a stream,
  and how many elements are left over.
-/

namespace LanChat.Lib.Framing

variable {α β : Type} (wire : β → List α)

/-- The concatenation of the frames. -/
def stream (frames : List β) : List α := frames.flatMap wire

/-- The frames that are complete in the first `n` elements of the stream. -/
def completed : List β → Nat → List β
  | [], _ => []
  | b :: bs, n => if (wire b).length ≤ n then b :: completed bs (n - (wire b).length) else []

/-- The elements among the first `n` that belong to an incomplete frame. -/
def remainder : List β → Nat → Nat
  | [], n => n
  | b :: bs, n => if (wire b).length ≤ n then remainder bs (n - (wire b).length) else n

/-- The frames that the elements from the `n`-th up to the `m`-th complete. -/
def completedBetween (frames : List β) (n m : Nat) : List β :=
  (completed wire frames m).drop (completed wire frames n).length

/-- The first of the frames is longer than `n`. -/
def Longer (frames : List β) (n : Nat) : Prop := ∀ b bs, frames = b :: bs → n < (wire b).length

/-- The list consists of the frames `done` and a beginning `part` of the frames `later`. -/
structure Cut (todo : List β) (seen unseen : List α) (done later : List β) (part : List α) :
    Prop where
  frames : todo = done ++ later
  seen_eq : seen = stream wire done ++ part
  rest : part ++ unseen = stream wire later
  short : Longer wire later part.length

variable {wire} {todo done later : List β} {seen unseen part : List α}

@[simp] theorem stream_nil : stream wire [] = [] := rfl

@[simp] theorem stream_cons (b : β) (bs : List β) : stream wire (b :: bs) = wire b ++ stream wire bs := rfl

@[simp] theorem stream_append (bs cs : List β) :
    stream wire (bs ++ cs) = stream wire bs ++ stream wire cs := by
  simp [stream]

/-- Whatever has been seen of a stream is some frames and the beginning of the next. -/
theorem exists_cut (h : seen ++ unseen = stream wire todo) :
    ∃ done later part, Cut wire todo seen unseen done later part := by
  induction todo generalizing seen with
  | nil =>
    obtain ⟨rfl, rfl⟩ := List.append_eq_nil_iff.mp h
    exact ⟨[], [], [], rfl, rfl, rfl, nofun⟩
  | cons b bs ih =>
    rcases Nat.lt_or_ge seen.length (wire b).length with hlt | hge
    · refine ⟨[], b :: bs, seen, rfl, rfl, h, fun b' bs' heq => ?_⟩
      cases heq
      exact hlt
    · obtain ⟨seen', rfl⟩ : ∃ seen', seen = wire b ++ seen' := by
        have hprefix : wire b <+: seen :=
          List.prefix_of_prefix_length_le ⟨stream wire bs, rfl⟩ ⟨unseen, h⟩ hge
        obtain ⟨seen', hseen⟩ := hprefix
        exact ⟨seen', hseen.symm⟩
      rw [stream_cons, List.append_assoc] at h
      obtain ⟨done, later, part, hcut⟩ := ih (List.append_cancel_left h)
      refine ⟨b :: done, later, part, ?_, ?_, hcut.rest, hcut.short⟩
      · rw [hcut.frames, List.cons_append]
      · rw [hcut.seen_eq, stream_cons, List.append_assoc]

theorem completed_append (n : Nat) :
    completed wire (done ++ later) ((stream wire done).length + n) = done ++ completed wire later n := by
  induction done with
  | nil => simp
  | cons b bs ih =>
    have hle : (wire b).length ≤ (wire b).length + (stream wire bs).length + n := by omega
    have hsub : (wire b).length + (stream wire bs).length + n - (wire b).length =
        (stream wire bs).length + n := by omega
    simp only [List.cons_append, completed, stream_cons, List.length_append, hle, if_true, hsub, ih]

theorem remainder_append (n : Nat) :
    remainder wire (done ++ later) ((stream wire done).length + n) = remainder wire later n := by
  induction done with
  | nil => simp
  | cons b bs ih =>
    have hle : (wire b).length ≤ (wire b).length + (stream wire bs).length + n := by omega
    have hsub : (wire b).length + (stream wire bs).length + n - (wire b).length =
        (stream wire bs).length + n := by omega
    simp only [List.cons_append, remainder, stream_cons, List.length_append, hle, if_true, hsub, ih]

/-- A whole stream. -/
theorem completed_stream (frames : List β) : completed wire frames (stream wire frames).length = frames := by
  simpa [completed] using @completed_append _ _ wire frames [] 0

theorem remainder_stream (frames : List β) : remainder wire frames (stream wire frames).length = 0 := by
  simpa [remainder] using @remainder_append _ _ wire frames [] 0

theorem isPrefix_completed (frames : List β) (n : Nat) : completed wire frames n <+: frames := by
  induction frames generalizing n with
  | nil => exact List.nil_prefix
  | cons b bs ih =>
    unfold completed
    split
    · exact List.prefix_cons_inj b |>.mpr (ih _)
    · exact List.nil_prefix

theorem Longer.completed_eq {n : Nat} (h : Longer wire later n) : completed wire later n = [] := by
  cases later with
  | nil => rfl
  | cons b bs => simp [completed, Nat.not_le.mpr (h b bs rfl)]

theorem Longer.remainder_eq {n : Nat} (h : Longer wire later n) : remainder wire later n = n := by
  cases later with
  | nil => rfl
  | cons b bs => simp [remainder, Nat.not_le.mpr (h b bs rfl)]

namespace Cut

variable (h : Cut wire todo seen unseen done later part)

include h

theorem length_seen : seen.length = (stream wire done).length + part.length := by
  rw [h.seen_eq, List.length_append]

theorem completed_eq : completed wire todo seen.length = done := by
  rw [h.frames, h.length_seen, completed_append, h.short.completed_eq, List.append_nil]

theorem remainder_eq : remainder wire todo seen.length = part.length := by
  rw [h.frames, h.length_seen, remainder_append, h.short.remainder_eq]

/-- Further elements complete further frames. -/
theorem completed_add (n : Nat) :
    completed wire todo (seen.length + n) = done ++ completed wire later (part.length + n) := by
  rw [h.frames, h.length_seen, Nat.add_assoc, completed_append]

theorem remainder_add (n : Nat) :
    remainder wire todo (seen.length + n) = remainder wire later (part.length + n) := by
  rw [h.frames, h.length_seen, Nat.add_assoc, remainder_append]

theorem completedBetween_add (n m : Nat) :
    completedBetween wire todo (seen.length + n) (seen.length + m) =
      completedBetween wire later (part.length + n) (part.length + m) := by
  simp only [completedBetween, h.completed_add, List.length_append, ← List.drop_drop,
    List.drop_left]

end Cut

/-! ## Pieces of a given length -/

/-- The list cut into pieces of these lengths. -/
def pieces : List Nat → List α → List (List α)
  | [], _ => []
  | n :: ns, xs => xs.take n :: pieces ns (xs.drop n)

theorem take_pieces (k : Nat) (ns : List Nat) (xs : List α) :
    (pieces ns xs).take k = pieces (ns.take k) xs := by
  induction ns generalizing k xs with
  | nil => simp [pieces]
  | cons n ns ih =>
    cases k with
    | zero => rfl
    | succ k => simp [pieces, ih]

theorem flatten_pieces (ns : List Nat) (xs : List α) : (pieces ns xs).flatten = xs.take ns.sum := by
  induction ns generalizing xs with
  | nil => simp [pieces]
  | cons n ns ih => rw [pieces, List.flatten_cons, ih, List.sum_cons, List.take_add]

theorem length_of_mem_pieces {ns : List Nat} {xs piece : List α} (hlen : ns.sum ≤ xs.length)
    (h : piece ∈ pieces ns xs) : piece.length ∈ ns := by
  induction ns generalizing xs with
  | nil => cases h
  | cons n ns ih =>
    rw [List.sum_cons] at hlen
    rcases List.mem_cons.mp h with rfl | h
    · rw [List.length_take, Nat.min_eq_left (by omega)]
      exact List.mem_cons_self
    · exact List.mem_cons_of_mem _ (ih (by rw [List.length_drop]; omega) h)

end LanChat.Lib.Framing
