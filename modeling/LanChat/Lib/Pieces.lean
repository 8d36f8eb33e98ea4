import Mathlib.Data.List.Basic
import Mathlib.Tactic.Common

/-!
# Streams that come in pieces

A reader takes one piece of a stream after the other, hands on what it has read
and keeps what it needs for the next piece. Where it makes no difference to a
reader how the stream is cut (`Seamless`), it makes none to two of them one
behind the other (`Seamless.pipe`).
-/

namespace LanChat.Lib

variable {σ τ α β γ : Type}

/-- From states with `I`, reading two pieces is reading them as one. -/
structure Seamless (I : σ → Prop) (read : σ → List α → σ × List β) : Prop where
  keeps : ∀ s xs, I s → I (read s xs).1
  nil : ∀ s, I s → read s [] = (s, [])
  append : ∀ s xs ys, I s →
    read s (xs ++ ys) = ((read (read s xs).1 ys).1, (read s xs).2 ++ (read (read s xs).1 ys).2)

/-- The pieces one after the other. -/
def readPieces (read : σ → List α → σ × List β) : σ → List (List α) → σ × List β
  | s, [] => (s, [])
  | s, piece :: pieces =>
    ((readPieces read (read s piece).1 pieces).1, (read s piece).2 ++ (readPieces read (read s piece).1 pieces).2)

/-- Element by element. -/
def readEach (step : σ → α → σ × List β) : σ → List α → σ × List β
  | s, [] => (s, [])
  | s, x :: xs => ((readEach step (step s x).1 xs).1, (step s x).2 ++ (readEach step (step s x).1 xs).2)

/-- What the first reader hands on is read by the second. -/
def pipe (first : σ → List α → σ × List β) (second : τ → List β → τ × List γ) (s : σ × τ) (xs : List α) :
    (σ × τ) × List γ :=
  (((first s.1 xs).1, (second s.2 (first s.1 xs).2).1), (second s.2 (first s.1 xs).2).2)

section Readers

variable {I : σ → Prop} {J : τ → Prop} {read : σ → List α → σ × List β} {second : τ → List β → τ × List γ}
  {step : σ → α → σ × List β}

theorem Seamless.readPieces_eq (h : Seamless I read) {s : σ} (hs : I s) (pieces : List (List α)) :
    readPieces read s pieces = read s pieces.flatten := by
  induction pieces generalizing s with
  | nil => exact (h.nil s hs).symm
  | cons piece pieces ih =>
    rw [List.flatten_cons, h.append s piece pieces.flatten hs, readPieces, ih (h.keeps s piece hs)]

theorem readEach_append (s : σ) (xs ys : List α) : readEach step s (xs ++ ys) =
    ((readEach step (readEach step s xs).1 ys).1,
      (readEach step s xs).2 ++ (readEach step (readEach step s xs).1 ys).2) := by
  induction xs generalizing s with
  | nil => rfl
  | cons x xs ih => simp only [List.cons_append, readEach, ih, List.append_assoc]

theorem seamless_readEach (step : σ → α → σ × List β) : Seamless (fun _ => True) (readEach step) where
  keeps _ _ _ := trivial
  nil _ _ := rfl
  append s xs ys _ := readEach_append s xs ys

theorem Seamless.pipe (h : Seamless I read) (h' : Seamless J second) :
    Seamless (fun s => I s.1 ∧ J s.2) (pipe read second) where
  keeps s xs hs := ⟨h.keeps s.1 xs hs.1, h'.keeps s.2 _ hs.2⟩
  nil s hs := by simp only [Lib.pipe, h.nil s.1 hs.1, h'.nil s.2 hs.2]
  append s xs ys hs := by
    have hsecond := h'.append s.2 (read s.1 xs).2 (read (read s.1 xs).1 ys).2 hs.2
    simp only [Lib.pipe, h.append s.1 xs ys hs.1, hsecond]

end Readers

/-! ## Lines -/

section Lines

variable [DecidableEq α] {sep : α}

/-- What follows the last separator is kept for the next piece. -/
def cutLines (sep : α) (carry piece : List α) : List α × List (List α) :=
  let parts := (carry ++ piece).splitOn sep
  (parts.getLast?.getD [], parts.dropLast)

/-- A text is its complete lines and the beginning of the next one. -/
theorem exists_lines (sep : α) (xs : List α) : ∃ lines last, sep ∉ last ∧
    ∀ ys, (xs ++ ys).splitOn sep = lines ++ (last ++ ys).splitOn sep := by
  induction xs with
  | nil => exact ⟨[], [], List.not_mem_nil, fun _ => rfl⟩
  | cons x xs ih =>
    obtain ⟨lines, last, hlast, hsplit⟩ := ih
    by_cases hx : x = sep
    · refine ⟨[] :: lines, last, hlast, fun ys => ?_⟩
      rw [List.cons_append, List.splitOn_cons_eq_if_modifyHead, if_pos (beq_iff_eq.mpr hx), hsplit, List.cons_append]
    · have hcons : ∀ zs : List α, (x :: zs).splitOn sep = (zs.splitOn sep).modifyHead (x :: ·) := fun zs => by
        rw [List.splitOn_cons_eq_if_modifyHead, if_neg (by simpa using hx)]
      cases lines with
      | nil =>
        refine ⟨[], x :: last, ?_, fun ys => ?_⟩
        · exact List.not_mem_cons_of_ne_of_not_mem (Ne.symm hx) hlast
        · rw [List.cons_append, hcons, hsplit, List.nil_append, List.nil_append, List.cons_append, hcons]
      | cons line lines =>
        refine ⟨(x :: line) :: lines, last, hlast, fun ys => ?_⟩
        rw [List.cons_append, hcons, hsplit]
        rfl

theorem cutLines_of_lines {carry piece last : List α} {lines : List (List α)}
    (h : (carry ++ piece).splitOn sep = lines ++ [last]) : cutLines sep carry piece = (last, lines) := by
  simp only [cutLines, h, List.getLast?_concat, Option.getD_some, List.dropLast_concat]

theorem seamless_cutLines (sep : α) : Seamless (fun carry => sep ∉ carry) (cutLines sep) := by
  have hcut : ∀ carry piece, ∃ lines last, sep ∉ last ∧ cutLines sep carry piece = (last, lines) ∧
      ∀ ys, (carry ++ piece ++ ys).splitOn sep = lines ++ (last ++ ys).splitOn sep := by
    intro carry piece
    obtain ⟨lines, last, hlast, hsplit⟩ := exists_lines sep (carry ++ piece)
    refine ⟨lines, last, hlast, cutLines_of_lines ?_, hsplit⟩
    have h := hsplit []
    rwa [List.append_nil, List.append_nil, List.splitOn_eq_singleton hlast] at h
  refine ⟨fun carry piece _ => ?_, fun carry hcarry => ?_, fun carry xs ys _ => ?_⟩
  · obtain ⟨lines, last, hlast, heq, -⟩ := hcut carry piece
    rwa [heq]
  · refine cutLines_of_lines ?_
    rw [List.append_nil, List.splitOn_eq_singleton hcarry, List.nil_append]
  · obtain ⟨lines, last, hlast, heq, hsplit⟩ := hcut carry xs
    obtain ⟨lines', last', hlast', heq', hsplit'⟩ := hcut last ys
    rw [heq, heq']
    refine cutLines_of_lines ?_
    have h := hsplit' []
    rw [List.append_nil, List.append_nil, List.splitOn_eq_singleton hlast'] at h
    rw [← List.append_assoc, hsplit, h, List.append_assoc]

end Lines

end LanChat.Lib
