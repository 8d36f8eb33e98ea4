import LanChat.Lib.Command

/-!
# What an observer makes of the outputs

An observer reads the outputs of a command one by one, and changes its own state
with each. `Observed` is a triple over the states of the system and of the
observer, for a command that returns.
-/

namespace LanChat.Lib

namespace Cmd

variable {σ τ ω ε α β : Type} {read : τ → ω → τ}

/-- From states that meet `P`, a command that returns leaves the system and the
observer in states that meet `Q`. -/
def Observed (read : τ → ω → τ) (P : σ → τ → Prop) (c : Cmd σ ω ε α) (Q : α → σ → τ → Prop) : Prop :=
  ∀ s t, P s t → ∀ a, (c s).result = .ok a → Q a (c s).state ((c s).out.foldl read t)

section Observed

variable {P P' : σ → τ → Prop} {Q Q' : α → σ → τ → Prop}

theorem Observed.weaken {c : Cmd σ ω ε α} (h : Observed read P c Q) (hP : ∀ s t, P' s t → P s t)
    (hQ : ∀ a s t, Q a s t → Q' a s t) : Observed read P' c Q' :=
  fun s t hst a ha => hQ a _ _ (h s t (hP s t hst) a ha)

theorem Observed.pre {c : Cmd σ ω ε α} (h : Observed read P c Q) (hP : ∀ s t, P' s t → P s t) :
    Observed read P' c Q :=
  h.weaken hP fun _ _ _ h => h

theorem Observed.post {c : Cmd σ ω ε α} (h : Observed read P c Q) (hQ : ∀ a s t, Q a s t → Q' a s t) :
    Observed read P c Q' :=
  h.weaken (fun _ _ h => h) hQ

/-- A fact that depends on neither state may be moved out of the precondition. -/
theorem Observed.of_fact {φ : Prop} {c : Cmd σ ω ε α} (h : φ → Observed read P c Q) :
    Observed read (fun s t => φ ∧ P s t) c Q :=
  fun s t hst => h hst.1 s t hst.2

theorem observed_pure {a : α} (h : ∀ s t, P s t → Q a s t) : Observed read P (pure a : Cmd σ ω ε α) Q := by
  intro s t hst b hb
  cases hb
  exact h s t hst

theorem Observed.bind {c : Cmd σ ω ε α} {f : α → Cmd σ ω ε β} {R : α → σ → τ → Prop} {Q : β → σ → τ → Prop}
    (hc : Observed read P c R) (hf : ∀ a, Observed read (R a) (f a) Q) : Observed read P (c >>= f) Q := by
  intro s t hst b hb
  obtain ⟨a, ha, hb⟩ := result_bind_eq_ok.mp hb
  rw [bind_ok f ha, List.foldl_append]
  exact hf a _ _ (hc s t hst a ha) b hb

theorem observed_ite {b : Prop} [Decidable b] {c d : Cmd σ ω ε α} (ht : b → Observed read P c Q)
    (hf : ¬b → Observed read P d Q) : Observed read P (if b then c else d) Q := by
  split
  · next h => exact ht h
  · next h => exact hf h

/-- A loop; `I` speaks of the elements that are left. -/
theorem observed_each {body : β → Cmd σ ω ε Unit} {I : List β → σ → τ → Prop}
    (h : ∀ x rest, Observed read (I (x :: rest)) (body x) fun _ => I rest) (xs : List β) :
    Observed read (I xs) (each xs body) fun _ => I [] := by
  induction xs with
  | nil => exact observed_pure fun _ _ h => h
  | cons x xs ih => exact (h x xs).bind fun _ => ih

/-- What is known of the system and of the outputs, when each output keeps `J`. -/
theorem Observed.of_sat {c : Cmd σ ω ε α} {P : σ → Prop} {Q : α → σ → Prop} {E : ε → σ → Prop} {W : ω → Prop}
    {J : τ → Prop} (h : Sat P c Q E W) (hW : ∀ w t, W w → J t → J (read t w)) :
    Observed read (fun s t => P s ∧ J t) c fun a s t => Q a s ∧ J t := by
  rintro s t ⟨hs, ht⟩ a ha
  obtain ⟨hout, hok, -⟩ := h s hs
  refine ⟨hok a ha, ?_⟩
  generalize (c s).out = out at hout
  induction out generalizing t with
  | nil => exact ht
  | cons w out ih =>
    exact ih _ (hW w t (hout w List.mem_cons_self) ht) fun w hw => hout w (List.mem_cons_of_mem _ hw)

end Observed

end Cmd

end LanChat.Lib
