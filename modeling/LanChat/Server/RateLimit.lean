import LanChat.Server.AsyncSession
import Mathlib.Data.List.Count

/-!
# The rate limit of a session

`consumeRateLimitToken` counts frames in windows. A window begins with the
construction of the session, and then with each frame that comes a second or
more after the begin of the window before. No window lets more than 20 frames
through, and a second meets two windows at most (`frames_limited`). It does
meet two: 40 frames of one second are let through where a window ends in it.
-/

namespace LanChat.AsyncSession

open Json

/-- What is done to a session after its construction. -/
inductive Call where
  | start (now : Int)
  | frame (now : Int)
  | heartbeatReceived (now : Int)
  | deliver (json : Bytes)
  | setUserId (user : Int32)
  | stopReading

/-- The session after the call. A frame that is too large is not queued. -/
def Call.after (s : AsyncSession) : Call → AsyncSession
  | start now => s.start now
  | frame now => (s.consumeRateLimitToken now).2
  | heartbeatReceived now => s.heartbeatReceived now
  | deliver json => (s.deliver json).toOption.getD s
  | setUserId user => { s with user_id := user }
  | stopReading => s.stopReading

/-- The reading of the clock for a frame. -/
def Call.reading? : Call → Option Int
  | frame now => some now
  | _ => none

/-- A frame that is let through, with the begin of its window. -/
structure Passed where
  window : Int
  reading : Int
deriving DecidableEq, Repr

/-- The frame that the call lets through. -/
def Call.passed (s : AsyncSession) : Call → Option Passed
  | frame now =>
    if (s.consumeRateLimitToken now).1 then some ⟨(s.consumeRateLimitToken now).2.rate_window_start, now⟩ else none
  | _ => none

/-- The frames that the calls let through, in order. -/
def letThrough : AsyncSession → List Call → List Passed
  | _, [] => []
  | s, call :: calls => (call.passed s).toList ++ letThrough (call.after s) calls

/-- How many of the frames come in the second that begins with `a`. -/
def inSecond (a : Int) (passed : List Passed) : Nat :=
  passed.countP fun p => a ≤ p.reading ∧ p.reading < a + second

/-- How many of the frames are of the window that begins with `w`. -/
def inWindow (w : Int) (passed : List Passed) : Nat := passed.countP fun p => p.window = w

/-! ## What one call does to the counter -/

section Counter

variable {s : AsyncSession} {call : Call} {calls : List Call} {p : Passed}

/-- Only a frame is counted: with the others of its window, or as the first of
a new one. -/
theorem after_cases (s : AsyncSession) (call : Call) :
    (call.reading? = none ∧ call.passed s = none ∧ (call.after s).rate_window_start = s.rate_window_start ∧
      (call.after s).messages_this_window = s.messages_this_window) ∨
    ∃ now, call = .frame now ∧
      ((call.passed s = (if s.messages_this_window + 1 ≤ 20 then some ⟨s.rate_window_start, now⟩ else none) ∧
        (call.after s).rate_window_start = s.rate_window_start ∧
        (call.after s).messages_this_window = s.messages_this_window + 1) ∨
      (s.rate_window_start + second ≤ now ∧ call.passed s = some ⟨now, now⟩ ∧
        (call.after s).rate_window_start = now ∧ (call.after s).messages_this_window = 1)) := by
  cases call with
  | frame now =>
    refine .inr ⟨now, rfl, ?_⟩
    by_cases hreset : second ≤ now - s.rate_window_start
    · refine .inr ⟨by omega, ?_⟩
      simp [Call.passed, Call.after, consumeRateLimitToken, hreset]
    · left
      simp [Call.passed, Call.after, consumeRateLimitToken, hreset]
  | deliver json =>
    refine .inl ⟨rfl, rfl, ?_⟩
    simp only [Call.after, AsyncSession.deliver]
    split <;> exact ⟨rfl, rfl⟩
  | start | heartbeatReceived | setUserId | stopReading => exact .inl ⟨rfl, rfl, rfl, rfl⟩

/-- Later frames are of the window of the session or of one a second later. -/
theorem window_of_mem (h : p ∈ letThrough s calls) :
    p.window = s.rate_window_start ∨ s.rate_window_start + second ≤ p.window := by
  have hpos : 0 < second := by decide
  induction calls generalizing s with
  | nil => cases h
  | cons call calls ih =>
    rcases after_cases s call with ⟨-, hpassed, hstart, -⟩ | ⟨now, -, ⟨hpassed, hstart, -⟩ | ⟨hlate, hpassed, hstart, -⟩⟩
    all_goals
      rw [letThrough, hpassed] at h
      rcases List.mem_append.mp h with hp | hp
    · cases hp
    · have hlater := ih hp
      rwa [hstart] at hlater
    · split at hp
      · cases List.mem_singleton.mp hp
        exact .inl rfl
      · cases hp
    · have hlater := ih hp
      rwa [hstart] at hlater
    · cases List.mem_singleton.mp hp
      exact .inr hlate
    · have hlater := ih hp
      rw [hstart] at hlater
      omega

/-- The counter and the frames that are still let through in its window make no
more than 20, nor do those of a later window. -/
theorem inWindow_letThrough (s : AsyncSession) (calls : List Call) (w : Int) :
    inWindow w (letThrough s calls) + (if w = s.rate_window_start then min 20 s.messages_this_window else 0) ≤ 20 := by
  have hpos : 0 < second := by decide
  induction calls generalizing s with
  | nil =>
    simp only [letThrough, inWindow, List.countP_nil]
    split <;> omega
  | cons call calls ih =>
    have hrest := ih (call.after s)
    rw [letThrough, inWindow, List.countP_append]
    rw [inWindow] at hrest
    rcases after_cases s call with
      ⟨-, hpassed, hstart, hcount⟩ | ⟨now, -, ⟨hpassed, hstart, hcount⟩ | ⟨hlate, hpassed, hstart, hcount⟩⟩
    · rw [hstart, hcount] at hrest
      rw [hpassed, Option.toList_none, List.countP_nil]
      omega
    · rw [hstart, hcount] at hrest
      rw [hpassed]
      split at hrest <;> split <;> simp only [Option.toList_some, Option.toList_none, List.countP_nil,
        List.countP_singleton, decide_eq_true_eq] <;> grind
    · rw [hstart, hcount] at hrest
      rw [hpassed]
      simp only [Option.toList_some, List.countP_singleton, decide_eq_true_eq]
      by_cases hw : w = s.rate_window_start
      · have hnone : (letThrough (call.after s) calls).countP (fun p => decide (p.window = w)) = 0 := by
          refine List.countP_eq_zero.mpr fun p hp => ?_
          have hlater := window_of_mem hp
          rw [hstart] at hlater
          simp only [decide_eq_true_eq]
          omega
        grind
      · grind

end Counter

/-! ## Windows and seconds -/

/-- Of one window, or of two a second apart, the later of which begins between
the frames. -/
def Passed.Apart (p q : Passed) : Prop :=
  p.window = q.window ∨ (p.window + second ≤ q.window ∧ p.reading ≤ q.window ∧ q.window ≤ q.reading)

section Seconds

variable {passed : List Passed} {n : Nat} {a : Int}

/-- A second meets two windows at most. -/
theorem length_le_of_apart (hapart : passed.Pairwise Passed.Apart) (hsize : ∀ w, inWindow w passed ≤ n)
    (hsecond : ∀ p ∈ passed, a ≤ p.reading ∧ p.reading < a + second) : passed.length ≤ 2 * n := by
  rcases passed with _ | ⟨p, rest⟩
  · exact Nat.zero_le _
  obtain ⟨hp, hrest⟩ := List.pairwise_cons.mp hapart
  let Agree (q r : Passed) : Prop := q.window ≠ p.window → r.window ≠ p.window → q.window = r.window
  have hagree : rest.Pairwise Agree := by
    refine hrest.imp_of_mem fun {q r} hq hr hqr hne _ => ?_
    rcases hqr with heq | ⟨hwindows, -, hreading⟩
    · exact heq
    have hbegin := (hp q hq).resolve_left fun heq => hne heq.symm
    have hfirst := hsecond p List.mem_cons_self
    have hlast := hsecond r (List.mem_cons_of_mem _ hr)
    omega
  have hsymm : Std.Symm Agree := ⟨fun q r h hr hq => (h hq hr).symm⟩
  have hother : (p :: rest).countP (fun q => ¬decide (q.window = p.window) = true) ≤ n := by
    by_cases hall : ∀ q ∈ rest, q.window = p.window
    · have hnone : (p :: rest).countP (fun q => ¬decide (q.window = p.window) = true) = 0 := by
        refine List.countP_eq_zero.mpr (List.forall_mem_cons.mpr ⟨by simp, fun q hq => by simp [hall q hq]⟩)
      omega
    · push Not at hall
      obtain ⟨q, hq, hne⟩ := hall
      refine le_trans (List.countP_mono_left fun r hr hother => ?_) (hsize q.window)
      simp only [decide_eq_true_eq] at hother ⊢
      rcases List.mem_cons.mp hr with rfl | hr
      · exact absurd rfl hother
      · exact hagree.forall_of_forall (fun _ _ _ _ => rfl) hr hq hother hne
  have hsplit := (p :: rest).length_eq_countP_add_countP fun q => decide (q.window = p.window)
  have hwindow := hsize p.window
  rw [inWindow] at hwindow
  omega

end Seconds

/-! ## Whole runs -/

/-- The readings of the clock for the frames, in order. -/
def readings (calls : List Call) : List Int := calls.filterMap Call.reading?

section Runs

variable {s : AsyncSession} {calls : List Call} {p : Passed}

theorem reading_mem (h : p ∈ letThrough s calls) : p.reading ∈ readings calls := by
  induction calls generalizing s with
  | nil => cases h
  | cons call calls ih =>
    rcases List.mem_append.mp h with hp | hp
    · cases call with
      | frame now =>
        simp only [Call.passed] at hp
        split at hp
        · cases List.mem_singleton.mp hp
          exact List.mem_cons_self
        · cases hp
      | _ => cases hp
    · have hmem := ih hp
      rw [readings, List.filterMap_cons]
      split
      · exact hmem
      · exact List.mem_cons_of_mem _ hmem

/-- Frames that are let through later are of the window of the session, or of
one that begins after the readings so far. -/
theorem later_of_mem {b : Int} (hb : ∀ t ∈ readings calls, b ≤ t) (hsorted : (readings calls).Pairwise (· ≤ ·))
    (h : p ∈ letThrough s calls) : p.window = s.rate_window_start ∨
      (s.rate_window_start + second ≤ p.window ∧ b ≤ p.window ∧ p.window ≤ p.reading) := by
  have hpos : 0 < second := by decide
  induction calls generalizing s with
  | nil => cases h
  | cons call calls ih =>
    rcases after_cases s call with
      ⟨hnone, hpassed, hstart, -⟩ | ⟨now, rfl, ⟨hpassed, hstart, -⟩ | ⟨hlate, hpassed, hstart, -⟩⟩
    · rw [readings, List.filterMap_cons_none hnone] at hb hsorted
      rw [letThrough, hpassed] at h
      have hlater := ih hb hsorted h
      rwa [hstart] at hlater
    all_goals
      obtain ⟨hnow, hb'⟩ := List.forall_mem_cons.mp hb
      obtain ⟨hafter, hsorted'⟩ := List.pairwise_cons.mp hsorted
      rw [letThrough, hpassed] at h
      rcases List.mem_append.mp h with hp | hp
    · split at hp
      · cases List.mem_singleton.mp hp
        exact .inl rfl
      · cases hp
    · have hlater := ih hb' hsorted' hp
      rwa [hstart] at hlater
    · cases List.mem_singleton.mp hp
      exact .inr ⟨hlate, hnow, le_refl now⟩
    · have hlater := ih hb' hsorted' hp
      have hreading := hafter _ (reading_mem hp)
      rw [hstart] at hlater
      omega

theorem pairwise_apart (s : AsyncSession) (hsorted : (readings calls).Pairwise (· ≤ ·)) :
    (letThrough s calls).Pairwise Passed.Apart := by
  induction calls generalizing s with
  | nil => exact List.Pairwise.nil
  | cons call calls ih =>
    rw [letThrough, List.pairwise_append]
    cases call with
    | frame now =>
      obtain ⟨hafter, hsorted'⟩ := List.pairwise_cons.mp hsorted
      refine ⟨?_, ih _ hsorted', fun p hp q hq => ?_⟩
      · cases Call.passed s (.frame now) with
        | none => exact List.Pairwise.nil
        | some p => exact List.pairwise_singleton ..
      · simp only [Call.passed] at hp
        split at hp
        · cases List.mem_singleton.mp hp
          rcases later_of_mem hafter hsorted' hq with heq | hlater
          · exact .inl heq.symm
          · exact .inr hlater
        · cases hp
    | _ => exact ⟨List.Pairwise.nil, ih _ hsorted, nofun⟩

/-- The frames of the second are all of the window that begins with `w`. -/
def OneWindow (a w : Int) (passed : List Passed) : Prop :=
  ∀ p ∈ passed, a ≤ p.reading → p.reading < a + second → p.window = w

theorem inSecond_le_inWindow {a w : Int} {passed : List Passed} (h : OneWindow a w passed) :
    inSecond a passed ≤ inWindow w passed := by
  refine List.countP_mono_left fun p hp hsecond => ?_
  obtain ⟨hbegin, hend⟩ := of_decide_eq_true hsecond
  exact decide_eq_true (h p hp hbegin hend)

/-- No window lets more than 20 frames through, nor does a second that meets one
window; and no second lets more than 40 through. -/
theorem frames_limited (opened : Int) (calls : List Call) (hsorted : (readings calls).Pairwise (· ≤ ·)) :
    (∀ w, inWindow w (letThrough (.construct opened) calls) ≤ 20) ∧
    (∀ a w, OneWindow a w (letThrough (.construct opened) calls) →
      inSecond a (letThrough (.construct opened) calls) ≤ 20) ∧
    ∀ a, inSecond a (letThrough (.construct opened) calls) ≤ 40 := by
  have hwindow : ∀ w, inWindow w (letThrough (.construct opened) calls) ≤ 20 := fun w =>
    le_trans (Nat.le_add_right ..) (inWindow_letThrough (.construct opened) calls w)
  refine ⟨hwindow, fun a w hone => le_trans (inSecond_le_inWindow hone) (hwindow w), fun a => ?_⟩
  rw [inSecond, List.countP_eq_length_filter]
  refine @length_le_of_apart _ 20 a ((pairwise_apart _ hsorted).filter _) (fun w => ?_) fun p hp => ?_
  · exact le_trans (List.filter_sublist.countP_le) (hwindow w)
  · exact of_decide_eq_true (List.mem_filter.mp hp).2

end Runs

/-- 20 frames at the end of the window that begins with the construction, and 20
at the begin of the next. -/
def twoBursts : List Call := List.replicate 20 (.frame 900000000) ++ List.replicate 20 (.frame 1000000000)

theorem frames_limited_twoBursts : (∀ w, inWindow w (letThrough (.construct 0) twoBursts) ≤ 20) ∧
    (∀ a w, OneWindow a w (letThrough (.construct 0) twoBursts) →
      inSecond a (letThrough (.construct 0) twoBursts) ≤ 20) ∧
    ∀ a, inSecond a (letThrough (.construct 0) twoBursts) ≤ 40 :=
  frames_limited 0 twoBursts (by decide +kernel)

/-- A second lets 40 frames through. -/
theorem window_ends_in_second :
    ¬∀ opened calls, (readings calls).Pairwise (· ≤ ·) → ∀ a,
      inSecond a (letThrough (.construct opened) calls) ≤ 20 := by
  intro h
  have hsecond := h 0 twoBursts (by decide +kernel) 900000000
  have hforty : inSecond 900000000 (letThrough (.construct 0) twoBursts) = 40 := by decide +kernel
  omega

end LanChat.AsyncSession
