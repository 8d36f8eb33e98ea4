import LanChat.Lib.Command
import Mathlib.Data.List.Induction

/-!
# Runs of a deterministic system

A system steps on events; `none` means that it has stopped and takes no
further step. A property that each step keeps as long as the step meets a
condition holds throughout every run whose steps meet it
(`throughout_of_along`); when the condition is also needed at each step, the
two are equivalent over whole runs (`throughout_iff_along`). What a state owes
to the steps before it is said with `Since`, and shown by `history_run`.
-/

namespace LanChat.Lib

variable {σ η : Type}

/-- The state after the events, if the system is still running. -/
def run (step : σ → η → Option σ) : σ → List η → Option σ
  | s, [] => some s
  | s, e :: es => (step s e).bind fun s' => run step s' es

/-- `I` holds in every state of the run, the first one included. -/
def Throughout (step : σ → η → Option σ) (I : σ → Prop) : σ → List η → Prop
  | s, [] => I s
  | s, e :: es => I s ∧ ∀ s', step s e = some s' → Throughout step I s' es

/-- Every step that the run completes meets `C` in the state it starts from. -/
def Along (step : σ → η → Option σ) (C : σ → η → Prop) : σ → List η → Prop
  | _, [] => True
  | s, e :: es => ∀ s', step s e = some s' → C s e ∧ Along step C s' es

/-- Every step that the run completes meets `T`. -/
def EachStep (step : σ → η → Option σ) (T : σ → η → σ → Prop) : σ → List η → Prop
  | _, [] => True
  | s, e :: es => ∀ s', step s e = some s' → T s e s' ∧ EachStep step T s' es

/-- Running the events checks whether `I` holds throughout. -/
instance decidableThroughout [DecidablePred I] : ∀ s es, Decidable (Throughout step I s es)
  | s, [] => inferInstanceAs (Decidable (I s))
  | s, e :: es =>
    match h : step s e with
    | none => decidable_of_iff (I s) ⟨fun hs => ⟨hs, fun _ hs' => nomatch h.symm.trans hs'⟩, fun hs => hs.1⟩
    | some t =>
      have : Decidable (Throughout step I t es) := decidableThroughout t es
      decidable_of_iff (I s ∧ Throughout step I t es)
        (and_congr_right fun _ => ⟨fun ht _ hs' => Option.some.inj (h.symm.trans hs') ▸ ht, fun ht => ht t h⟩)

instance decidableAlong [∀ s e, Decidable (C s e)] : ∀ s es, Decidable (Along step C s es)
  | _, [] => .isTrue trivial
  | s, e :: es =>
    match h : step s e with
    | none => .isTrue fun _ hs' => nomatch h.symm.trans hs'
    | some t =>
      have : Decidable (Along step C t es) := decidableAlong t es
      decidable_of_iff (C s e ∧ Along step C t es)
        ⟨fun ht _ hs' => Option.some.inj (h.symm.trans hs') ▸ ht, fun ht => ht t h⟩

section Run

variable {T : σ → η → σ → Prop} {step : σ → η → Option σ} {I J : σ → Prop} {C : σ → η → Prop}

@[simp] theorem run_nil (s : σ) : run step s [] = some s := rfl

theorem run_cons_eq_some {s s' : σ} {e : η} {es : List η} :
    run step s (e :: es) = some s' ↔ ∃ t, step s e = some t ∧ run step t es = some s' := by
  simp [run, Option.bind_eq_some_iff]

theorem run_append {s : σ} {es fs : List η} :
    run step s (es ++ fs) = (run step s es).bind fun t => run step t fs := by
  induction es generalizing s with
  | nil => rfl
  | cons e es ih =>
    simp only [List.cons_append, run]
    cases step s e with
    | none => rfl
    | some t => exact ih

theorem Throughout.head {s : σ} {es : List η} (h : Throughout step I s es) : I s := by
  cases es with
  | nil => exact h
  | cons e es => exact h.1

theorem Throughout.last {s s' : σ} {es : List η} (h : Throughout step I s es)
    (hrun : run step s es = some s') : I s' := by
  induction es generalizing s with
  | nil => cases hrun; exact h
  | cons e es ih =>
    obtain ⟨t, ht, hrest⟩ := run_cons_eq_some.mp hrun
    exact ih (h.2 t ht) hrest

theorem Throughout.left {s : σ} {es fs : List η} (h : Throughout step I s (es ++ fs)) :
    Throughout step I s es := by
  induction es generalizing s with
  | nil => exact h.head
  | cons e es ih => exact ⟨h.1, fun s' hs' => ih (h.2 s' hs')⟩

theorem Throughout.right {s t : σ} {es fs : List η} (h : Throughout step I s (es ++ fs))
    (hrun : run step s es = some t) : Throughout step I t fs := by
  induction es generalizing s with
  | nil =>
    cases hrun
    exact h
  | cons e es ih =>
    obtain ⟨u, hu, hrest⟩ := run_cons_eq_some.mp hrun
    exact ih (h.2 u hu) hrest

theorem Throughout.imp {s : σ} {es : List η} (h : Throughout step I s es) (hIJ : ∀ s, I s → J s) :
    Throughout step J s es := by
  induction es generalizing s with
  | nil => exact hIJ s h
  | cons e es ih => exact ⟨hIJ s h.1, fun s' hs' => ih (h.2 s' hs')⟩

theorem Throughout.and {s : σ} {es : List η} (hI : Throughout step I s es) (hJ : Throughout step J s es) :
    Throughout step (fun s => I s ∧ J s) s es := by
  induction es generalizing s with
  | nil => exact ⟨hI, hJ⟩
  | cons e es ih => exact ⟨⟨hI.1, hJ.1⟩, fun s' hs' => ih (hI.2 s' hs') (hJ.2 s' hs')⟩

/-- What holds throughout a run can be used at each of its steps. -/
theorem Throughout.along {s : σ} {es : List η} (hI : Throughout step I s es) (h : Along step C s es) :
    Along step (fun s e => I s ∧ C s e) s es := by
  induction es generalizing s with
  | nil => trivial
  | cons e es ih => exact fun s' hs' => ⟨⟨hI.1, (h s' hs').1⟩, ih (hI.2 s' hs') (h s' hs').2⟩

theorem Throughout.eachStep {s : σ} {es : List η} (hI : Throughout step I s es)
    (hT : ∀ s e s', I s → step s e = some s' → T s e s') : EachStep step T s es := by
  induction es generalizing s with
  | nil => trivial
  | cons e es ih => exact fun s' hs' => ⟨hT s e s' hI.1 hs', ih (hI.2 s' hs')⟩

theorem throughout_of_step (hstep : ∀ s e s', I s → step s e = some s' → I s') {s : σ}
    (hs : I s) (es : List η) : Throughout step I s es := by
  induction es generalizing s with
  | nil => exact hs
  | cons e es ih => exact ⟨hs, fun s' h => ih (hstep s e s' hs h)⟩

theorem invariant_run (hstep : ∀ s e s', I s → step s e = some s' → I s') {s s' : σ}
    (hs : I s) {es : List η} (h : run step s es = some s') : I s' := by
  induction es generalizing s with
  | nil => cases h; exact hs
  | cons e es ih =>
    obtain ⟨t, ht, hrun⟩ := run_cons_eq_some.mp h
    exact ih (hstep s e t hs ht) hrun

/-- `J` is an invariant of the system on its own. A step from a state with `I`
that meets `C` ends in a state with `I`. -/
theorem throughout_of_along (hJ : ∀ s e s', J s → step s e = some s' → J s')
    (hstep : ∀ s e s', J s → I s → step s e = some s' → C s e → I s') {s : σ}
    (hj : J s) (hi : I s) {es : List η} (h : Along step C s es) : Throughout step I s es := by
  induction es generalizing s with
  | nil => exact hi
  | cons e es ih =>
    refine ⟨hi, fun s' hs' => ?_⟩
    obtain ⟨hc, hrest⟩ := h s' hs'
    exact ih (hJ s e s' hj hs') (hstep s e s' hj hi hs' hc) hrest

/-- When each step from a state with `I` reaches a state with `I` exactly when
it meets `C`, the runs that stay in `I` are those whose steps all meet `C`. -/
theorem throughout_iff_along (hJ : ∀ s e s', J s → step s e = some s' → J s')
    (hstep : ∀ s e s', J s → I s → step s e = some s' → (I s' ↔ C s e)) {s : σ}
    (hj : J s) (hi : I s) (es : List η) : Throughout step I s es ↔ Along step C s es := by
  constructor
  · intro h
    induction es generalizing s with
    | nil => trivial
    | cons e es ih =>
      intro s' hs'
      have hrest := h.2 s' hs'
      have hi' : I s' := hrest.head
      exact ⟨(hstep s e s' hj hi hs').mp hi', ih (hJ s e s' hj hs') hi' hrest⟩
  · exact throughout_of_along hJ (fun s e s' hj hi hs' hc => (hstep s e s' hj hi hs').mpr hc) hj hi

/-- The same, when what is needed besides is kept only by the steps between states with `I`. -/
theorem throughout_iff_along_of_kept (hkept : ∀ s e s', J s → I s → step s e = some s' → I s' → J s')
    (hstep : ∀ s e s', J s → I s → step s e = some s' → (I s' ↔ C s e)) {s : σ}
    (hj : J s) (hi : I s) (es : List η) : Throughout step I s es ↔ Along step C s es := by
  induction es generalizing s with
  | nil => exact ⟨fun _ => trivial, fun _ => hi⟩
  | cons e es ih =>
    constructor
    · intro h s' hs'
      have hi' : I s' := (h.2 s' hs').head
      exact ⟨(hstep s e s' hj hi hs').mp hi', (ih (hkept s e s' hj hi hs' hi') hi').mp (h.2 s' hs')⟩
    · intro h
      refine ⟨hi, fun s' hs' => ?_⟩
      obtain ⟨hc, hrest⟩ := h s' hs'
      have hi' : I s' := (hstep s e s' hj hi hs').mpr hc
      exact (ih (hkept s e s' hj hi hs' hi') hi').mpr hrest

theorem along_of_forall (h : ∀ s e, C s e) (s : σ) (es : List η) : Along step C s es := by
  induction es generalizing s with
  | nil => trivial
  | cons e es ih => exact fun s' _ => ⟨h s e, ih s'⟩

theorem Along.imp {D : σ → η → Prop} {s : σ} {es : List η} (h : Along step C s es)
    (hCD : ∀ s e, C s e → D s e) : Along step D s es := by
  induction es generalizing s with
  | nil => trivial
  | cons e es ih => exact fun s' hs' => ⟨hCD s e (h s' hs').1, ih (h s' hs').2⟩

theorem Along.left {s : σ} {es fs : List η} (h : Along step C s (es ++ fs)) : Along step C s es := by
  induction es generalizing s with
  | nil => trivial
  | cons e es ih => exact fun s' hs' => ⟨(h s' hs').1, ih (h s' hs').2⟩

theorem Along.right {s t : σ} {es fs : List η} (h : Along step C s (es ++ fs)) (hrun : run step s es = some t) :
    Along step C t fs := by
  induction es generalizing s with
  | nil =>
    cases hrun
    exact h
  | cons e es ih =>
    obtain ⟨u, hu, hrest⟩ := run_cons_eq_some.mp hrun
    exact ih (h u hu).2 hrest

theorem eachStep_of_along (hstep : ∀ s e s', step s e = some s' → C s e → T s e s') {s : σ}
    {es : List η} (h : Along step C s es) : EachStep step T s es := by
  induction es generalizing s with
  | nil => trivial
  | cons e es ih =>
    intro s' hs'
    obtain ⟨hc, hrest⟩ := h s' hs'
    exact ⟨hstep s e s' hs' hc, ih hrest⟩

theorem EachStep.last {s t s' : σ} {es : List η} {e : η} (h : EachStep step T s (es ++ [e]))
    (hrun : run step s es = some t) (hs' : step t e = some s') : T t e s' := by
  induction es generalizing s with
  | nil =>
    cases hrun
    exact (h s' hs').1
  | cons e' es ih =>
    obtain ⟨u, hu, hrest⟩ := run_cons_eq_some.mp hrun
    exact ih (h u hu).2 hrest

/-- When each step meets `T` exactly when it meets `C`, the runs whose steps all
meet `T` are those whose steps all meet `C`. -/
theorem eachStep_iff_along (hJ : ∀ s e s', J s → step s e = some s' → J s')
    (hstep : ∀ s e s', J s → step s e = some s' → (T s e s' ↔ C s e)) {s : σ} (hj : J s)
    (es : List η) : EachStep step T s es ↔ Along step C s es := by
  induction es generalizing s with
  | nil => exact Iff.rfl
  | cons e es ih =>
    refine forall_congr' fun s' => forall_congr' fun hs' => ?_
    exact and_congr (hstep s e s' hj hs') (ih (hJ s e s' hj hs'))

end Run

/-! ## Histories -/

/-- Every step of the run meets `C` in the state it starts from, after the steps before it. -/
def AlongAfter (step : σ → η → Option σ) (C : List η → σ → η → Prop) (s : σ) (events : List η) : Prop :=
  ∀ es e fs t t', events = es ++ e :: fs → run step s es = some t → step t e = some t' → C es t e

/-- Every step of the run meets `T`, after the steps before it. -/
def EachStepAfter (step : σ → η → Option σ) (T : List η → σ → η → σ → Prop) (s : σ) (events : List η) :
    Prop :=
  ∀ es e fs t t', events = es ++ e :: fs → run step s es = some t → step t e = some t' → T es t e t'

/-- Some step of the run meets `C` with the history before it, and this step and all
that followed meet `T`. -/
def Since (step : σ → η → Option σ) (C : List η → σ → η → Prop) (T : σ → η → σ → Prop) (s : σ)
    (events : List η) : Prop :=
  ∃ es e fs t t', events = es ++ e :: fs ∧ run step s es = some t ∧ step t e = some t' ∧ C es t e ∧
    T t e t' ∧ EachStep step T t' fs

section History

variable {step : σ → η → Option σ} {C : List η → σ → η → Prop} {T : σ → η → σ → Prop} {I : σ → Prop}
  {s t t' : σ} {e : η} {es : List η}

theorem EachStep.concat (h : EachStep step T s es) (hrun : run step s es = some t)
    (hT : ∀ t', step t e = some t' → T t e t') : EachStep step T s (es ++ [e]) := by
  induction es generalizing s with
  | nil =>
    cases hrun
    exact fun t' ht' => ⟨hT t' ht', trivial⟩
  | cons e' es ih =>
    intro u hu
    obtain ⟨u', hu', hrest⟩ := run_cons_eq_some.mp hrun
    cases hu.symm.trans hu'
    exact ⟨(h u hu).1, ih (h u hu).2 hrest⟩

theorem alongAfter_of_along {D : σ → η → Prop} (hD : ∀ es t e, D t e → C es t e) (h : Along step D s es) :
    AlongAfter step C s es := by
  rintro ds d fs u u' rfl hds hd
  refine hD ds u d ?_
  induction ds generalizing s with
  | nil =>
    cases hds
    exact (h u' hd).1
  | cons e ds ih =>
    obtain ⟨v, hv, hrest⟩ := run_cons_eq_some.mp hds
    exact ih (h v hv).2 hrest

theorem AlongAfter.concat (h : AlongAfter step C s es) (hrun : run step s es = some t) (hC : C es t e) :
    AlongAfter step C s (es ++ [e]) := by
  intro ds d fs u u' hes hds hd
  rcases List.eq_nil_or_concat fs with rfl | ⟨gs, g, rfl⟩
  · obtain ⟨rfl, hlast⟩ := List.append_inj' hes rfl
    cases hlast
    cases hrun.symm.trans hds
    exact hC
  · rw [List.concat_eq_append, ← List.cons_append, ← List.append_assoc] at hes
    exact h ds d gs u u' (List.append_inj' hes rfl).1 hds hd

theorem eachStepAfter_of_alongAfter {H : List η → σ → η → σ → Prop}
    (hstep : ∀ es t e t', run step s es = some t → step t e = some t' → C es t e → H es t e t')
    (h : AlongAfter step C s es) : EachStepAfter step H s es :=
  fun ds d fs u u' hes hds hd => hstep ds u d u' hds hd (h ds d fs u u' hes hds hd)

theorem since_concat (hrun : run step s es = some t) (hstep : step t e = some t') (hC : C es t e)
    (hT : T t e t') : Since step C T s (es ++ [e]) :=
  ⟨es, e, [], t, t', rfl, hrun, hstep, hC, hT, trivial⟩

theorem Since.concat (h : Since step C T s es) (hrun : run step s es = some t)
    (hT : ∀ t', step t e = some t' → T t e t') : Since step C T s (es ++ [e]) := by
  obtain ⟨ds, d, fs, u, u', rfl, hds, hd, hC, hTd, hfs⟩ := h
  refine ⟨ds, d, fs ++ [e], u, u', by simp, hds, hd, hC, hTd, hfs.concat ?_ hT⟩
  rw [run_append, hds, Option.bind_some] at hrun
  obtain ⟨v, hv, hrest⟩ := run_cons_eq_some.mp hrun
  cases hd.symm.trans hv
  exact hrest

/-- What holds of the first state without a history, and is carried on by each
step from a state with `I`, holds of every history through such states. -/
theorem history_run {P : List η → σ → Prop} (hs : P [] s)
    (hstep : ∀ es t e t', run step s es = some t → I t → P es t → step t e = some t' →
      P (es ++ [e]) t')
    (hI : Throughout step I s es) (hrun : run step s es = some t) : P es t := by
  induction es using List.reverseRecOn generalizing t with
  | nil =>
    cases hrun
    exact hs
  | append_singleton es e ih =>
    rw [run_append] at hrun
    obtain ⟨u, hu, hrest⟩ := Option.bind_eq_some_iff.mp hrun
    obtain ⟨u', hu', hlast⟩ := run_cons_eq_some.mp hrest
    cases hlast
    exact hstep es u e _ hu (hI.left.last hu) (ih hI.left hu) hu'

/-- What holds without a history, and is carried on by each step that meets `C`,
holds of every history whose steps meet `C`. -/
theorem history_of_alongAfter {P : List η → σ → Prop} (hs : P [] s)
    (hstep : ∀ es t e t', run step s es = some t → P es t → C es t e → step t e = some t' →
      P (es ++ [e]) t')
    (h : AlongAfter step C s es) (hrun : run step s es = some t) : P es t := by
  induction es using List.reverseRecOn generalizing t with
  | nil =>
    cases hrun
    exact hs
  | append_singleton es e ih =>
    rw [run_append] at hrun
    obtain ⟨u, hu, hrest⟩ := Option.bind_eq_some_iff.mp hrun
    obtain ⟨u', hu', hlast⟩ := run_cons_eq_some.mp hrest
    cases hlast
    have hbefore : AlongAfter step C s es := fun ds d fs v v' hes => h ds d (fs ++ [e]) v v' (by simp [hes])
    exact hstep es u e _ hu (ih hbefore hu) (h es e [] u _ rfl hu hu') hu'

end History

end LanChat.Lib
