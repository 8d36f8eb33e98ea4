import Mathlib.Data.List.Forall2
import LanChat.Lib.Command
import LanChat.Lib.Run

/-!
# Two commands side by side

`Similar` is the triple of a pair of commands: from related states both return, with
related values and states, or both throw the same exception, and their outputs are
related one by one. `Agree` is the case in which a relation between the states is kept.
Where the steps of two machines are similar, an observer who sees the outputs cannot
tell their runs apart (`twin_run`).
-/

namespace LanChat.Lib

/-- Both return, with values that meet `Q`, or both throw the same exception and `E` holds. -/
inductive Ends {ε α β : Type} (Q : α → β → Prop) (E : Prop) : Except ε α → Except ε β → Prop
  | ok {a : α} {b : β} : Q a b → Ends Q E (.ok a) (.ok b)
  | error {e : ε} : E → Ends Q E (.error e) (.error e)

theorem Ends.imp {ε α β : Type} {Q Q' : α → β → Prop} {E E' : Prop} {r : Except ε α} {r' : Except ε β}
    (h : Ends Q E r r') (hQ : ∀ a b, Q a b → Q' a b) (hE : E → E') : Ends Q' E' r r' := by
  cases h with
  | ok hab => exact .ok (hQ _ _ hab)
  | error he => exact .error (hE he)

theorem Ends.bind {ε α β γ δ : Type} {Q : α → β → Prop} {Q' : γ → δ → Prop} {E : Prop} {r : Except ε α} {r' : Except ε β}
    {f : α → Except ε γ} {g : β → Except ε δ} (h : Ends Q E r r') (hf : ∀ a b, Q a b → Ends Q' E (f a) (g b)) :
    Ends Q' E (r >>= f) (r' >>= g) := by
  cases h with
  | ok hab => exact hf _ _ hab
  | error he => exact .error he

namespace Cmd

variable {σ τ ω ω' ε α β γ δ : Type}

/-- From states with `P` both commands return in `Q`, or both throw in `E`. -/
def Similar (P : σ → τ → Prop) (c : Cmd σ ω ε α) (d : Cmd τ ω' ε β) (Q : α → β → σ → τ → Prop)
    (E : σ → τ → Prop) (O : ω → ω' → Prop) : Prop :=
  ∀ s t, P s t → List.Forall₂ O (c s).out (d t).out ∧
    Ends (fun a b => Q a b (c s).state (d t).state) (E (c s).state (d t).state) (c s).result (d t).result

/-- The commands keep the relation between the states, and return related values. -/
def Agree (R : σ → τ → Prop) (O : ω → ω' → Prop) (V : α → β → Prop) (c : Cmd σ ω ε α) (d : Cmd τ ω' ε β) : Prop :=
  Similar R c d (fun a b s t => V a b ∧ R s t) R O

section Similar

variable {P P' E R : σ → τ → Prop} {Q : α → β → σ → τ → Prop} {O : ω → ω' → Prop} {V : α → β → Prop} {W : γ → δ → Prop}

theorem Similar.weaken {Q' : α → β → σ → τ → Prop} {E' : σ → τ → Prop} {c : Cmd σ ω ε α} {d : Cmd τ ω' ε β}
    (h : Similar P c d Q E O) (hP : ∀ s t, P' s t → P s t) (hQ : ∀ a b s t, Q a b s t → Q' a b s t)
    (hE : ∀ s t, E s t → E' s t) : Similar P' c d Q' E' O := by
  intro s t hst
  obtain ⟨hout, hends⟩ := h s t (hP s t hst)
  exact ⟨hout, hends.imp (fun _ _ => hQ _ _ _ _) (hE _ _)⟩

theorem Similar.bind {M : α → β → σ → τ → Prop} {Q : γ → δ → σ → τ → Prop} {c : Cmd σ ω ε α} {d : Cmd τ ω' ε β}
    {f : α → Cmd σ ω ε γ} {g : β → Cmd τ ω' ε δ} (h : Similar P c d M E O)
    (hf : ∀ a b, Similar (M a b) (f a) (g b) Q E O) : Similar P (c >>= f) (d >>= g) Q E O := by
  intro s t hst
  obtain ⟨hout, hends⟩ := h s t hst
  generalize hc : (c s).result = r at hends
  generalize hd : (d t).result = r' at hends
  cases hends with
  | @ok a b hab =>
    rw [bind_ok f hc, bind_ok g hd]
    obtain ⟨hout', hends'⟩ := hf a b _ _ hab
    exact ⟨List.rel_append hout hout', hends'⟩
  | error he =>
    rw [bind_error f hc, bind_error g hd]
    exact ⟨hout, .error he⟩

theorem Similar.ite {p : Prop} [Decidable p] {c c' : Cmd σ ω ε α} {d d' : Cmd τ ω' ε β}
    (h : Similar P c d Q E O) (h' : Similar P c' d' Q E O) :
    Similar P (if p then c else c') (if p then d else d') Q E O := by
  split
  · exact h
  · exact h'

/-- A fact that does not depend on the states. -/
theorem Similar.of_fact {φ : Prop} {c : Cmd σ ω ε α} {d : Cmd τ ω' ε β} (h : φ → Similar P c d Q E O) :
    Similar (fun s t => φ ∧ P s t) c d Q E O := fun s t hst => h hst.1 s t hst.2

/-! ### Commands that agree -/

theorem agree_of_run {c : Cmd σ ω ε α} {d : Cmd τ ω' ε β}
    (h : ∀ s t, R s t → ∃ a b s' t', c s = ⟨.ok a, s', []⟩ ∧ d t = ⟨.ok b, t', []⟩ ∧ V a b ∧ R s' t') :
    Agree R O V c d := by
  intro s t hst
  obtain ⟨a, b, s', t', hc, hd, hV, hR⟩ := h s t hst
  rw [hc, hd]
  exact ⟨.nil, .ok ⟨hV, hR⟩⟩

theorem agree_pure {a : α} {b : β} (h : V a b) : Agree R O V (pure a : Cmd σ ω ε α) (pure b : Cmd τ ω' ε β) :=
  fun _ _ hst => ⟨.nil, .ok ⟨h, hst⟩⟩

theorem agree_throw (e : ε) : Agree R O V (throw e : Cmd σ ω ε α) (throw e : Cmd τ ω' ε β) :=
  fun _ _ hst => ⟨.nil, .error hst⟩

theorem agree_asks {f : σ → α} {g : τ → β} (h : ∀ s t, R s t → V (f s) (g t)) :
    Agree R O V (asks f : Cmd σ ω ε α) (asks g : Cmd τ ω' ε β) := fun s t hst => ⟨.nil, .ok ⟨h s t hst, hst⟩⟩

theorem agree_modify {f : σ → σ} {g : τ → τ} (h : ∀ s t, R s t → R (f s) (g t)) :
    Agree R O Eq (modify f : Cmd σ ω ε Unit) (modify g : Cmd τ ω' ε Unit) :=
  fun s t hst => ⟨.nil, .ok ⟨rfl, h s t hst⟩⟩

theorem agree_ofExcept {r : Except ε α} {r' : Except ε β} (h : Ends V True r r') :
    Agree R O V (ofExcept r : Cmd σ ω ε α) (ofExcept r' : Cmd τ ω' ε β) :=
  fun _ _ hst => ⟨.nil, h.imp (fun _ _ hab => ⟨hab, hst⟩) fun _ => hst⟩

theorem Agree.post {V' : α → β → Prop} {c : Cmd σ ω ε α} {d : Cmd τ ω' ε β} (h : Agree R O V c d)
    (hV : ∀ a b, V a b → V' a b) : Agree R O V' c d :=
  Similar.weaken h (fun _ _ hst => hst) (fun a b _ _ hab => ⟨hV a b hab.1, hab.2⟩) fun _ _ hst => hst

theorem Agree.bind {c : Cmd σ ω ε α} {d : Cmd τ ω' ε β} {f : α → Cmd σ ω ε γ} {g : β → Cmd τ ω' ε δ}
    (h : Agree R O V c d) (hf : ∀ a b, V a b → Agree R O W (f a) (g b)) : Agree R O W (c >>= f) (d >>= g) :=
  Similar.bind h fun a b => Similar.of_fact (hf a b)

/-- Both go on with the same value. -/
theorem Agree.bind_eq {c : Cmd σ ω ε α} {d : Cmd τ ω' ε α} {f : α → Cmd σ ω ε γ} {g : α → Cmd τ ω' ε δ}
    (h : Agree R O Eq c d) (hf : ∀ a, Agree R O W (f a) (g a)) : Agree R O W (c >>= f) (d >>= g) :=
  h.bind fun a _ hab => hab ▸ hf a

theorem Agree.ite {p : Prop} [Decidable p] {c c' : Cmd σ ω ε α} {d d' : Cmd τ ω' ε β}
    (h : Agree R O V c d) (h' : Agree R O V c' d') : Agree R O V (if p then c else c') (if p then d else d') :=
  Similar.ite h h'

theorem Agree.when {p : Prop} [Decidable p] {c : Cmd σ ω ε Unit} {d : Cmd τ ω' ε Unit}
    (h : Agree R O Eq c d) : Agree R O Eq (when p c) (when p d) :=
  h.ite (agree_pure rfl)

theorem Agree.andAlso {p : Prop} [Decidable p] {c : Cmd σ ω ε Bool} {d : Cmd τ ω' ε Bool}
    (h : Agree R O Eq c d) : Agree R O Eq (andAlso p c) (andAlso p d) :=
  h.ite (agree_pure rfl)

theorem agree_each {xs : List γ} {ys : List δ} {body : γ → Cmd σ ω ε Unit} {body' : δ → Cmd τ ω' ε Unit}
    (hxs : List.Forall₂ W xs ys) (h : ∀ x y, W x y → Agree R O Eq (body x) (body' y)) :
    Agree R O Eq (each xs body) (each ys body') := by
  induction hxs with
  | nil => exact agree_pure rfl
  | cons hhead _ ih => exact (h _ _ hhead).bind fun _ _ _ => ih

theorem agree_each_same {xs : List γ} {body : γ → Cmd σ ω ε Unit} {body' : γ → Cmd τ ω' ε Unit}
    (h : ∀ x, Agree R O Eq (body x) (body' x)) : Agree R O Eq (each xs body) (each xs body') :=
  agree_each (W := Eq) (List.forall₂_same.mpr fun _ _ => rfl) fun x _ hxy => hxy ▸ h x

section Zoom

variable {σ' τ' : Type} {get : σ' → σ} {set : σ' → σ → σ'} {get' : τ' → τ} {set' : τ' → τ → τ'}
  {c : Cmd σ Empty ε α} {d : Cmd τ Empty ε β} {N : Empty → Empty → Prop} {S S' F : σ' → τ' → Prop}

/-- Commands on a part of the state. -/
theorem Similar.zoom {T : α → β → σ' → τ' → Prop} (h : Similar P c d Q E N) (hget : ∀ s t, S s t → P (get s) (get' t))
    (hset : ∀ s t a b u v, S s t → Q a b u v → T a b (set s u) (set' t v))
    (herr : ∀ s t u v, S s t → E u v → F (set s u) (set' t v)) :
    Similar S (zoom get set c : Cmd σ' ω ε α) (zoom get' set' d : Cmd τ' ω' ε β) T F O := by
  intro s t hst
  obtain ⟨-, hends⟩ := h _ _ (hget s t hst)
  exact ⟨.nil, hends.imp (fun _ _ => hset s t _ _ _ _ hst) (herr s t _ _ hst)⟩

theorem Agree.zoom (h : Agree R N V c d) (hget : ∀ s t, S s t → R (get s) (get' t))
    (hset : ∀ s t u v, S s t → R u v → S (set s u) (set' t v)) :
    Agree S O V (zoom get set c : Cmd σ' ω ε α) (zoom get' set' d : Cmd τ' ω' ε β) :=
  Similar.zoom h hget (fun s t _ _ u v hst hab => ⟨hab.1, hset s t u v hst hab.2⟩) hset

end Zoom

end Similar

end Cmd

/-! ## Two runs -/

section Twins

variable {σ τ η ω ω' : Type}

/-- What the steps on the events give out, the step that stops the system included. -/
def outputs (out : σ → η → List ω) (step : σ → η → Option σ) : σ → List η → List ω
  | _, [] => []
  | s, e :: es =>
    out s e ++
      match step s e with
      | none => []
      | some s' => outputs out step s' es

/-- Wherever both systems get on these events, the states and the next event meet `C`. -/
def AlongBoth (step : σ → η → Option σ) (step' : τ → η → Option τ) (C : σ → τ → η → Prop) : σ → τ → List η → Prop
  | _, _, [] => True
  | s, t, e :: es => C s t e ∧ ∀ s' t', step s e = some s' → step' t e = some t' → AlongBoth step step' C s' t' es

variable {out : σ → η → List ω} {out' : τ → η → List ω'} {step : σ → η → Option σ} {step' : τ → η → Option τ}
  {R : σ → τ → Prop} {C : σ → τ → η → Prop} {O : ω → ω' → Prop}

theorem alongBoth_of_forall (h : ∀ s t e, C s t e) (s : σ) (t : τ) (es : List η) : AlongBoth step step' C s t es := by
  induction es generalizing s t with
  | nil => trivial
  | cons e es ih => exact ⟨h s t e, fun s' t' _ _ => ih s' t'⟩

theorem AlongBoth.imp {D : σ → τ → η → Prop} {s : σ} {t : τ} {es : List η} (h : AlongBoth step step' C s t es)
    (hCD : ∀ s t e, C s t e → D s t e) : AlongBoth step step' D s t es := by
  induction es generalizing s t with
  | nil => trivial
  | cons e es ih => exact ⟨hCD s t e h.1, fun s' t' hs ht => ih (h.2 s' t' hs ht)⟩

instance decidableAlongBoth [∀ s t e, Decidable (C s t e)] : ∀ s t es, Decidable (AlongBoth step step' C s t es)
  | _, _, [] => .isTrue trivial
  | s, t, e :: es =>
    match hs : step s e, ht : step' t e with
    | some s', some t' =>
      have : Decidable (AlongBoth step step' C s' t' es) := decidableAlongBoth s' t' es
      decidable_of_iff (C s t e ∧ AlongBoth step step' C s' t' es) <| and_congr_right fun _ =>
        ⟨fun h _ _ hs' ht' => Option.some.inj (hs.symm.trans hs') ▸ Option.some.inj (ht.symm.trans ht') ▸ h,
          fun h => h s' t' hs ht⟩
    | none, _ => decidable_of_iff (C s t e) ⟨fun h => ⟨h, fun _ _ hs' => nomatch hs.symm.trans hs'⟩, And.left⟩
    | _, none => decidable_of_iff (C s t e) ⟨fun h => ⟨h, fun _ _ _ ht' => nomatch ht.symm.trans ht'⟩, And.left⟩

/-- Related states give out the same, and step to related states or both stop:
so do they on every list of events. -/
theorem twin_run (hstep : ∀ s t e, R s t → C s t e →
      List.Forall₂ O (out s e) (out' t e) ∧ Option.Rel R (step s e) (step' t e))
    {s : σ} {t : τ} (h : R s t) {es : List η} (hC : AlongBoth step step' C s t es) :
    List.Forall₂ O (outputs out step s es) (outputs out' step' t es) ∧ Option.Rel R (run step s es) (run step' t es) := by
  induction es generalizing s t with
  | nil => exact ⟨.nil, .some h⟩
  | cons e es ih =>
    obtain ⟨hout, hnext⟩ := hstep s t e h hC.1
    simp only [outputs, run]
    cases hs : step s e with
    | none =>
      rw [hs] at hnext
      cases ht : step' t e with
      | none => exact ⟨List.rel_append hout .nil, .none⟩
      | some t' => rw [ht] at hnext; cases hnext
    | some s' =>
      rw [hs] at hnext
      cases ht : step' t e with
      | none => rw [ht] at hnext; cases hnext
      | some t' =>
        rw [ht] at hnext
        cases hnext with
        | some h' =>
          obtain ⟨hrest, hlast⟩ := ih h' (hC.2 s' t' hs ht)
          exact ⟨List.rel_append hout hrest, hlast⟩

end Twins

end LanChat.Lib
