import Mathlib.Tactic.Common

/-!
# Commands with state, output and exceptions

A command reads and changes a state, emits outputs, and returns a value or
throws. An exception does not roll anything back: the state and the outputs of
what ran before it stay.

* `Cmd.Sat`: the triple of a command, with a postcondition for each way out and
  a condition on every output.
* `Cmd.Keeps`: the triple whose two postconditions are the precondition.
* `Cmd.Leaves`: some view of the state is the same after the command.
-/

namespace LanChat.Lib

/-- What one execution leaves behind: the value or the exception, the state
reached, and the outputs in order. -/
structure Outcome (σ ω ε α : Type) where
  result : Except ε α
  state : σ
  out : List ω

/-- A command over the state `σ` with outputs `ω` and exceptions `ε`. -/
def Cmd (σ ω ε α : Type) : Type := σ → Outcome σ ω ε α

namespace Cmd

variable {σ τ ω ε α β : Type}

/-! ## Building commands -/

def ret (a : α) : Cmd σ ω ε α := fun s => ⟨.ok a, s, []⟩

def andThen (c : Cmd σ ω ε α) (f : α → Cmd σ ω ε β) : Cmd σ ω ε β := fun s =>
  match (c s).result with
  | .ok a => ⟨(f a (c s).state).result, (f a (c s).state).state, (c s).out ++ (f a (c s).state).out⟩
  | .error e => ⟨.error e, (c s).state, (c s).out⟩

instance : Monad (Cmd σ ω ε) where
  pure := ret
  bind := andThen

def throw (e : ε) : Cmd σ ω ε α := fun s => ⟨.error e, s, []⟩

/-- A value computed from the state. -/
def asks (f : σ → α) : Cmd σ ω ε α := fun s => ⟨.ok (f s), s, []⟩

/-- A change of the state. -/
def modify (f : σ → σ) : Cmd σ ω ε Unit := fun s => ⟨.ok (), f s, []⟩

/-- A pure computation that may throw. -/
def ofExcept (r : Except ε α) : Cmd σ ω ε α := fun s => ⟨r, s, []⟩

/-- A command on a part of the state, as a command on the whole. The part has
no outputs of its own. -/
def zoom (get : τ → σ) (set : τ → σ → τ) (c : Cmd σ Empty ε α) : Cmd τ ω ε α := fun t =>
  ⟨(c (get t)).result, set t (c (get t)).state, []⟩

/-- `if (b) c;`. -/
def when (b : Prop) [Decidable b] (c : Cmd σ ω ε Unit) : Cmd σ ω ε Unit :=
  if b then c else pure ()

/-- `b && c`: the command runs only if the condition holds. -/
def andAlso (b : Prop) [Decidable b] (c : Cmd σ ω ε Bool) : Cmd σ ω ε Bool :=
  if b then c else pure false

/-- `body` for every element in order, stopping at the first exception. -/
def each (xs : List β) (body : β → Cmd σ ω ε Unit) : Cmd σ ω ε Unit :=
  match xs with
  | [] => pure ()
  | x :: xs => do
    body x
    each xs body

@[simp] theorem pure_apply (a : α) (s : σ) :
    (pure a : Cmd σ ω ε α) s = ⟨.ok a, s, []⟩ := rfl

@[simp] theorem throw_apply (e : ε) (s : σ) :
    (throw e : Cmd σ ω ε α) s = ⟨.error e, s, []⟩ := rfl

@[simp] theorem asks_apply (f : σ → α) (s : σ) :
    (asks f : Cmd σ ω ε α) s = ⟨.ok (f s), s, []⟩ := rfl

@[simp] theorem modify_apply (f : σ → σ) (s : σ) :
    (modify f : Cmd σ ω ε Unit) s = ⟨.ok (), f s, []⟩ := rfl

@[simp] theorem ofExcept_apply (r : Except ε α) (s : σ) :
    (ofExcept r : Cmd σ ω ε α) s = ⟨r, s, []⟩ := rfl

@[simp] theorem zoom_apply (get : τ → σ) (set : τ → σ → τ) (c : Cmd σ Empty ε α) (t : τ) :
    (zoom get set c : Cmd τ ω ε α) t = ⟨(c (get t)).result, set t (c (get t)).state, []⟩ := rfl

theorem bind_apply (c : Cmd σ ω ε α) (f : α → Cmd σ ω ε β) (s : σ) :
    (c >>= f) s = andThen c f s := rfl

theorem bind_ok {c : Cmd σ ω ε α} {s : σ} {a : α} (f : α → Cmd σ ω ε β)
    (h : (c s).result = .ok a) :
    (c >>= f) s =
      ⟨(f a (c s).state).result, (f a (c s).state).state,
        (c s).out ++ (f a (c s).state).out⟩ := by
  rw [bind_apply, andThen, h]

theorem bind_error {c : Cmd σ ω ε α} {s : σ} {e : ε} (f : α → Cmd σ ω ε β)
    (h : (c s).result = .error e) : (c >>= f) s = ⟨.error e, (c s).state, (c s).out⟩ := by
  rw [bind_apply, andThen, h]

/-- A first command that returns without output. -/
theorem bind_of_run {c : Cmd σ ω ε α} {s s' : σ} {a : α} (f : α → Cmd σ ω ε β)
    (h : c s = ⟨.ok a, s', []⟩) : (c >>= f) s = f a s' := by
  rw [bind_apply, andThen, h]
  rfl

theorem result_bind_eq_ok {c : Cmd σ ω ε α} {f : α → Cmd σ ω ε β} {s : σ} {b : β} :
    ((c >>= f) s).result = .ok b ↔
      ∃ a, (c s).result = .ok a ∧ (f a (c s).state).result = .ok b := by
  cases hr : (c s).result with
  | error e => simp [bind_error f hr]
  | ok a => simp [bind_ok f hr]

theorem each_map (g : α → β) (xs : List α) (body : β → Cmd σ ω ε Unit) :
    each (xs.map g) body = each xs fun x => body (g x) := by
  induction xs with
  | nil => rfl
  | cons x xs ih => simp only [List.map_cons, each, ih]

/-- Making another value of the result does not change the state. -/
theorem state_bind_pure (c : Cmd σ ω ε α) (f : α → β) (s : σ) :
    ((c >>= fun a => pure (f a)) s).state = (c s).state := by
  cases hr : (c s).result with
  | error e => rw [bind_error _ hr]
  | ok a => rw [bind_ok _ hr]; rfl

/-- The outputs of the first command are outputs of the sequence. -/
theorem mem_out_left {c : Cmd σ ω ε α} {f : α → Cmd σ ω ε β} {s : σ} {w : ω} (h : w ∈ (c s).out) :
    w ∈ ((c >>= f) s).out := by
  cases hr : (c s).result with
  | error e => rwa [bind_error f hr]
  | ok a => rw [bind_ok f hr]; exact List.mem_append_left _ h

/-- So are those of the second, when the first returns. -/
theorem mem_out_right {c : Cmd σ ω ε α} {f : α → Cmd σ ω ε β} {s : σ} {a : α} {w : ω}
    (hr : (c s).result = .ok a) (h : w ∈ (f a (c s).state).out) : w ∈ ((c >>= f) s).out := by
  rw [bind_ok f hr]
  exact List.mem_append_right _ h

theorem bind_ret (c : Cmd σ ω ε α) : c >>= ret = c := by
  funext s
  cases hc : (c s).result with
  | error e => rw [bind_error ret hc, ← hc]
  | ok a => rw [bind_ok ret hc]; simp [ret, ← hc]

theorem ret_bind (a : α) (f : α → Cmd σ ω ε β) : ret a >>= f = f a := by
  funext s
  rw [bind_ok f rfl]
  rfl

theorem bind_bind {γ : Type} (c : Cmd σ ω ε α) (f : α → Cmd σ ω ε β) (g : β → Cmd σ ω ε γ) :
    c >>= f >>= g = c >>= fun a => f a >>= g := by
  funext s
  cases hc : (c s).result with
  | error e =>
    rw [bind_error _ hc, bind_error (e := e) g (by rw [bind_error f hc]), bind_error f hc]
  | ok a =>
    rw [bind_ok (fun x => f x >>= g) hc]
    cases hf : (f a (c s).state).result with
    | error e =>
      rw [bind_error g hf, bind_error (e := e) g (by rw [bind_ok f hc]; exact hf), bind_ok f hc]
    | ok b =>
      rw [bind_ok g hf, bind_ok (a := b) g (by rw [bind_ok f hc]; exact hf), bind_ok f hc]
      simp

instance : LawfulMonad (Cmd σ ω ε) := LawfulMonad.mk' _ bind_ret ret_bind bind_bind

/-! ## Triples -/

/-- From a state that meets `P`, the command emits only outputs that meet `W`;
it ends in `Q` when it returns and in `E` when it throws. -/
def Sat (P : σ → Prop) (c : Cmd σ ω ε α) (Q : α → σ → Prop) (E : ε → σ → Prop)
    (W : ω → Prop) : Prop :=
  ∀ s, P s → (∀ w ∈ (c s).out, W w) ∧
    (∀ a, (c s).result = .ok a → Q a (c s).state) ∧
    ∀ e, (c s).result = .error e → E e (c s).state

section Triples

variable {P P' : σ → Prop} {Q Q' : α → σ → Prop} {E E' : ε → σ → Prop} {W W' : ω → Prop}

theorem Sat.weaken {c : Cmd σ ω ε α} (h : Sat P c Q E W) (hP : ∀ s, P' s → P s)
    (hQ : ∀ a s, Q a s → Q' a s) (hE : ∀ e s, E e s → E' e s) (hW : ∀ w, W w → W' w) :
    Sat P' c Q' E' W' := by
  intro s hs
  obtain ⟨hout, hok, herr⟩ := h s (hP s hs)
  exact ⟨fun w hw => hW w (hout w hw), fun a ha => hQ a _ (hok a ha),
    fun e he => hE e _ (herr e he)⟩

theorem Sat.pre {c : Cmd σ ω ε α} (h : Sat P c Q E W) (hP : ∀ s, P' s → P s) :
    Sat P' c Q E W :=
  h.weaken hP (fun _ _ h => h) (fun _ _ h => h) (fun _ h => h)

theorem Sat.post {c : Cmd σ ω ε α} (h : Sat P c Q E W) (hQ : ∀ a s, Q a s → Q' a s) :
    Sat P c Q' E W :=
  h.weaken (fun _ h => h) hQ (fun _ _ h => h) (fun _ h => h)

/-- A fact that does not depend on the state may be moved out of the precondition. -/
theorem Sat.of_fact {φ : Prop} {c : Cmd σ ω ε α} (h : φ → Sat P c Q E W) :
    Sat (fun s => φ ∧ P s) c Q E W :=
  fun s hs => h hs.1 s hs.2

/-- The triple at one state: what it says of the runs from `s`. -/
theorem Sat.of_forall {c : Cmd σ ω ε α} (h : ∀ s, P s → Sat (fun t => t = s) c Q E W) :
    Sat P c Q E W :=
  fun s hs => h s hs s rfl

theorem sat_true {P : σ → Prop} {W : Empty → Prop} (c : Cmd σ Empty ε α) :
    Sat P c (fun _ _ => True) (fun _ _ => True) W :=
  fun _ _ => ⟨fun w => w.elim, fun _ _ => trivial, fun _ _ => trivial⟩

theorem sat_pure {a : α} (h : ∀ s, P s → Q a s) : Sat P (pure a : Cmd σ ω ε α) Q E W := by
  intro s hs
  refine ⟨by simp, fun b hb => ?_, by simp⟩
  cases hb
  exact h s hs

theorem sat_throw {e : ε} (h : ∀ s, P s → E e s) : Sat P (throw e : Cmd σ ω ε α) Q E W := by
  intro s hs
  refine ⟨by simp, by simp, fun e' he => ?_⟩
  cases he
  exact h s hs

theorem sat_asks {f : σ → α} (h : ∀ s, P s → Q (f s) s) :
    Sat P (asks f : Cmd σ ω ε α) Q E W := by
  intro s hs
  refine ⟨by simp, fun b hb => ?_, by simp⟩
  cases hb
  exact h s hs

theorem sat_modify {f : σ → σ} {Q : Unit → σ → Prop} (h : ∀ s, P s → Q () (f s)) :
    Sat P (modify f : Cmd σ ω ε Unit) Q E W := by
  intro s hs
  refine ⟨by simp, fun b _ => h s hs, by simp⟩

theorem sat_ofExcept {r : Except ε α} (hok : ∀ a s, r = .ok a → P s → Q a s)
    (herr : ∀ e s, r = .error e → P s → E e s) :
    Sat P (ofExcept r : Cmd σ ω ε α) Q E W := by
  intro s hs
  exact ⟨by simp, fun a ha => hok a s ha hs, fun e he => herr e s he hs⟩

theorem Sat.bind {c : Cmd σ ω ε α} {f : α → Cmd σ ω ε β} {R : α → σ → Prop}
    {Q : β → σ → Prop} (hc : Sat P c R E W) (hf : ∀ a, Sat (R a) (f a) Q E W) :
    Sat P (c >>= f) Q E W := by
  intro s hs
  obtain ⟨hout, hok, herr⟩ := hc s hs
  cases hr : (c s).result with
  | error e =>
    rw [bind_error f hr]
    exact ⟨hout, by simp, fun e' he => by cases he; exact herr e hr⟩
  | ok a =>
    rw [bind_ok f hr]
    obtain ⟨hout', hok', herr'⟩ := hf a _ (hok a hr)
    refine ⟨fun w hw => ?_, hok', herr'⟩
    rcases List.mem_append.mp hw with hw | hw
    · exact hout w hw
    · exact hout' w hw

theorem sat_ite {b : Prop} [Decidable b] {c d : Cmd σ ω ε α} (ht : b → Sat P c Q E W)
    (hf : ¬b → Sat P d Q E W) : Sat P (if b then c else d) Q E W := by
  split
  · next h => exact ht h
  · next h => exact hf h

theorem sat_when {b : Prop} [Decidable b] {c : Cmd σ ω ε Unit} {Q : Unit → σ → Prop}
    (ht : b → Sat P c Q E W) (hf : ¬b → ∀ s, P s → Q () s) : Sat P (when b c) Q E W :=
  sat_ite ht fun hb => sat_pure (hf hb)

theorem sat_andAlso {b : Prop} [Decidable b] {c : Cmd σ ω ε Bool} {Q : Bool → σ → Prop}
    (ht : b → Sat P c Q E W) (hf : ¬b → ∀ s, P s → Q false s) : Sat P (andAlso b c) Q E W :=
  sat_ite ht fun hb => sat_pure (hf hb)

theorem sat_zoom {get : τ → σ} {set : τ → σ → τ} {c : Cmd σ Empty ε α} {P : τ → Prop}
    {Q : α → τ → Prop} {E : ε → τ → Prop}
    (h : ∀ t, P t → Sat (fun s => s = get t) c (fun a s => Q a (set t s))
      (fun e s => E e (set t s)) (fun _ => True)) :
    Sat P (zoom get set c : Cmd τ ω ε α) Q E W := by
  intro t ht
  obtain ⟨-, hok, herr⟩ := h t ht (get t) rfl
  exact ⟨by simp, hok, herr⟩

theorem sat_each {xs : List β} {body : β → Cmd σ ω ε Unit}
    (h : ∀ x ∈ xs, Sat P (body x) (fun _ => P) E W) :
    Sat P (each xs body) (fun _ => P) E W := by
  induction xs with
  | nil => exact sat_pure fun _ h => h
  | cons x xs ih =>
    exact (h x List.mem_cons_self).bind fun _ => ih fun y hy => h y (List.mem_cons_of_mem _ hy)

end Triples

/-! ## Invariants of a command -/

/-- The command keeps `I` on both ways out and emits only outputs that meet `W`. -/
def Keeps (I : σ → Prop) (W : ω → Prop) (c : Cmd σ ω ε α) : Prop :=
  Sat I c (fun _ => I) (fun _ => I) W

section Keeps

variable {I : σ → Prop} {W : ω → Prop}

theorem keeps_iff {c : Cmd σ ω ε α} :
    Keeps I W c ↔ ∀ s, I s → I (c s).state ∧ ∀ w ∈ (c s).out, W w := by
  constructor
  · intro h s hs
    obtain ⟨hout, hok, herr⟩ := h s hs
    cases hr : (c s).result with
    | ok a => exact ⟨hok a hr, hout⟩
    | error e => exact ⟨herr e hr, hout⟩
  · intro h s hs
    exact ⟨(h s hs).2, fun _ _ => (h s hs).1, fun _ _ => (h s hs).1⟩

@[simp] theorem keeps_pure (a : α) : Keeps I W (pure a : Cmd σ ω ε α) :=
  sat_pure fun _ h => h

@[simp] theorem keeps_asks (f : σ → α) : Keeps I W (asks f : Cmd σ ω ε α) :=
  sat_asks fun _ h => h

@[simp] theorem keeps_ofExcept (r : Except ε α) : Keeps I W (ofExcept r : Cmd σ ω ε α) :=
  sat_ofExcept (fun _ _ _ h => h) (fun _ _ _ h => h)

theorem keeps_bind {c : Cmd σ ω ε α} {f : α → Cmd σ ω ε β} (hc : Keeps I W c)
    (hf : ∀ a, Keeps I W (f a)) : Keeps I W (c >>= f) :=
  Sat.bind hc hf

theorem keeps_ite {b : Prop} [Decidable b] {c d : Cmd σ ω ε α} (ht : b → Keeps I W c)
    (hf : ¬b → Keeps I W d) : Keeps I W (if b then c else d) :=
  sat_ite ht hf

theorem keeps_each {xs : List β} {body : β → Cmd σ ω ε Unit}
    (h : ∀ x ∈ xs, Keeps I W (body x)) : Keeps I W (each xs body) :=
  sat_each h

end Keeps

/-! ## Frames -/

/-- The view `f` of the state is the same after the command, on both ways out. -/
def Leaves (f : σ → τ) (c : Cmd σ ω ε α) : Prop := ∀ s, f (c s).state = f s

section Leaves

variable {f : σ → τ}

@[simp] theorem leaves_pure (a : α) : Leaves f (pure a : Cmd σ ω ε α) := fun _ => rfl

@[simp] theorem leaves_asks (g : σ → α) : Leaves f (asks g : Cmd σ ω ε α) := fun _ => rfl

@[simp] theorem leaves_throw (e : ε) : Leaves f (throw e : Cmd σ ω ε α) := fun _ => rfl

@[simp] theorem leaves_ofExcept (r : Except ε α) : Leaves f (ofExcept r : Cmd σ ω ε α) :=
  fun _ => rfl

theorem leaves_bind {c : Cmd σ ω ε α} {g : α → Cmd σ ω ε β} (hc : Leaves f c)
    (hg : ∀ a, Leaves f (g a)) : Leaves f (c >>= g) := by
  intro s
  cases hr : (c s).result with
  | error e => rw [bind_error g hr]; exact hc s
  | ok a => rw [bind_ok g hr]; exact (hg a _).trans (hc s)

theorem leaves_ite {b : Prop} [Decidable b] {c d : Cmd σ ω ε α} (ht : Leaves f c)
    (hf : Leaves f d) : Leaves f (if b then c else d) := by
  split
  · exact ht
  · exact hf

theorem leaves_when {b : Prop} [Decidable b] {c : Cmd σ ω ε Unit} (h : Leaves f c) :
    Leaves f (when b c) :=
  leaves_ite h (leaves_pure ())

theorem leaves_each {xs : List β} {body : β → Cmd σ ω ε Unit}
    (h : ∀ x, Leaves f (body x)) : Leaves f (each xs body) := by
  induction xs with
  | nil => exact leaves_pure ()
  | cons x xs ih => exact leaves_bind (h x) fun _ => ih

end Leaves

/-! ## Blind commands -/

/-- The command does not look at what `f` changes. -/
def Blind (f : σ → σ) (c : Cmd σ ω ε α) : Prop :=
  ∀ s, c (f s) = ⟨(c s).result, f (c s).state, (c s).out⟩

section Blind

variable {f : σ → σ}

theorem blind_pure (a : α) : Blind f (pure a : Cmd σ ω ε α) := fun _ => rfl

theorem blind_ofExcept (r : Except ε α) : Blind f (ofExcept r : Cmd σ ω ε α) := fun _ => rfl

theorem blind_asks {g : σ → α} (h : ∀ s, g (f s) = g s) : Blind f (asks g : Cmd σ ω ε α) := fun s => by
  rw [asks_apply, asks_apply, h]

theorem Blind.bind {c : Cmd σ ω ε α} {g : α → Cmd σ ω ε β} (hc : Blind f c) (hg : ∀ a, Blind f (g a)) :
    Blind f (c >>= g) := by
  intro s
  cases hr : (c s).result with
  | error e => rw [bind_error (e := e) g (by rw [hc s, hr]), bind_error g hr, hc s]
  | ok a => rw [bind_ok (a := a) g (by rw [hc s, hr]), bind_ok g hr, hc s, hg a]

theorem Blind.ite {b : Prop} [Decidable b] {c d : Cmd σ ω ε α} (hc : Blind f c) (hd : Blind f d) :
    Blind f (if b then c else d) := by
  split
  · exact hc
  · exact hd

end Blind

/-- A command without outputs emits none. -/
theorem out_eq_nil (c : Cmd σ Empty ε α) (s : σ) : (c s).out = [] :=
  List.eq_nil_iff_forall_not_mem.mpr fun w => w.elim

/-! ## Commands that return -/

/-- The command throws nothing. -/
def Returns (c : Cmd σ ω ε α) : Prop := ∀ s, ∃ a, (c s).result = .ok a

section Returns

theorem returns_pure (a : α) : Returns (pure a : Cmd σ ω ε α) := fun _ => ⟨a, rfl⟩

theorem returns_asks (f : σ → α) : Returns (asks f : Cmd σ ω ε α) := fun s => ⟨f s, rfl⟩

theorem returns_bind {c : Cmd σ ω ε α} {f : α → Cmd σ ω ε β} (hc : Returns c)
    (hf : ∀ a, Returns (f a)) : Returns (c >>= f) := fun s => by
  obtain ⟨a, ha⟩ := hc s
  obtain ⟨b, hb⟩ := hf a (c s).state
  exact ⟨b, result_bind_eq_ok.mpr ⟨a, ha, hb⟩⟩

theorem returns_ite {b : Prop} [Decidable b] {c d : Cmd σ ω ε α} (hc : Returns c)
    (hd : Returns d) : Returns (if b then c else d) := by
  split
  · exact hc
  · exact hd

theorem returns_each {xs : List β} {body : β → Cmd σ ω ε Unit} (h : ∀ x, Returns (body x)) :
    Returns (each xs body) := by
  induction xs with
  | nil => exact returns_pure ()
  | cons x xs ih => exact returns_bind (h x) fun _ => ih

end Returns

end Cmd

end LanChat.Lib
