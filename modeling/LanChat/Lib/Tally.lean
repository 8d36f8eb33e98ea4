import Mathlib.Data.List.DropRight
import Mathlib.Data.List.Induction

/-!
# Counting since the last reset

A system that takes every step is seen through its trace, the steps with the
states that they start from. `countSince` is the number of those that count,
behind the last one that resets. It is what a counter holds that each step sets
to zero, increases or leaves alone (`countSince_concat`).
-/

namespace LanChat.Lib

variable {σ η : Type} {step : σ → η → σ} {s : σ} {e : η} {es : List η} {resets counts : σ → η → Bool}

/-- The steps, each with the state in which it is taken. -/
def trace (step : σ → η → σ) : σ → List η → List (σ × η)
  | _, [] => []
  | s, e :: es => (s, e) :: trace step (step s e) es

theorem trace_concat (step : σ → η → σ) (s : σ) (es : List η) (e : η) :
    trace step s (es ++ [e]) = trace step s es ++ [(es.foldl step s, e)] := by
  induction es generalizing s with
  | nil => rfl
  | cons e' es ih => rw [List.cons_append, trace, ih, List.foldl_cons, trace, List.cons_append]

/-- The steps behind the last one that resets. -/
def traceSince (step : σ → η → σ) (resets : σ → η → Bool) (s : σ) (es : List η) : List (σ × η) :=
  (trace step s es).rtakeWhile fun p => !resets p.1 p.2

/-- How many of them count. -/
def countSince (step : σ → η → σ) (resets counts : σ → η → Bool) (s : σ) (es : List η) : Nat :=
  (traceSince step resets s es).countP fun p => counts p.1 p.2

theorem countSince_nil : countSince step resets counts s [] = 0 := rfl

theorem countSince_concat :
    countSince step resets counts s (es ++ [e]) =
      if resets (es.foldl step s) e then 0
      else if counts (es.foldl step s) e then countSince step resets counts s es + 1
      else countSince step resets counts s es := by
  rw [countSince, traceSince, trace_concat, List.rtakeWhile_concat]
  cases resets (es.foldl step s) e with
  | true => rfl
  | false =>
    rw [if_pos (by rfl), if_neg (by decide), List.countP_append, List.countP_singleton]
    split <;> rfl

/-- The steps that count are of one kind or of the other. -/
theorem countSince_split (kind : σ → η → Bool) :
    countSince step resets counts s es =
      countSince step resets (fun s e => counts s e && kind s e) s es +
        countSince step resets (fun s e => counts s e && !kind s e) s es := by
  rw [countSince, List.countP_eq_countP_filter_add _ _ fun p => kind p.1 p.2, List.countP_filter, List.countP_filter]
  rfl

theorem countSince_eq_zero :
    countSince step resets counts s es = 0 ↔ ∀ p ∈ traceSince step resets s es, counts p.1 p.2 = false := by
  rw [countSince, List.countP_eq_zero]
  exact forall₂_congr fun p _ => Bool.eq_false_iff.symm

end LanChat.Lib
