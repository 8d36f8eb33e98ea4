import Mathlib.Data.List.Nodup
import Mathlib.Data.List.Perm.Basic

/-!
# Mailboxes

Items, each with a key of its own, are posted to a user or to nobody, and a
user collects the items that wait for it, at most so many at a time. What has
been collected does not wait any more. Over a whole run:

* no key is collected twice (`Runs.nodup_collected`);
* a key is collected only by the user it has been posted to
  (`Runs.addressee_of_collected`);
* what waits for a user to whom nothing more is posted is collected by enough
  collections (`Runs.collects_all`).
-/

namespace LanChat.Lib

namespace Mailbox

/-- `υ` are the users, `κ` the keys. -/
inductive Event (υ κ : Type) where
  | post (addressee : Option υ) (key : κ)
  | collect (user : υ) (atMost : Nat)
  | other
deriving DecidableEq

end Mailbox

/-- The keys that wait for each user, and those that have been used. -/
structure Mailbox (υ κ : Type) where
  waiting : υ → List κ
  used : List κ

namespace Mailbox

variable {υ κ : Type} [DecidableEq υ] [DecidableEq κ]

/-- An event, the keys that it hands out, and the mailbox after it. A collection
takes the last keys in some order of those that wait. -/
inductive Step (m : Mailbox υ κ) : Event υ κ → List κ → Mailbox υ κ → Prop
  | post {m' : Mailbox υ κ} (addressee : Option υ) (key : κ) (hnew : key ∉ m.used)
    (hused : m'.used = m.used ++ [key])
    (hwaiting : ∀ u, m'.waiting u = m.waiting u ++ if addressee = some u then [key] else []) :
    Step m (.post addressee key) [] m'
  | collect {m' : Mailbox υ κ} (user : υ) (atMost : Nat) (order : List κ)
    (horder : order.Perm (m.waiting user)) (hused : m'.used = m.used)
    (huser : m'.waiting user =
      (m.waiting user).filter fun k => k ∉ order.drop (order.length - atMost))
    (hothers : ∀ u, u ≠ user → m'.waiting u = m.waiting u) :
    Step m (.collect user atMost) (order.drop (order.length - atMost)) m'
  | other {m' : Mailbox υ κ} (hused : m'.used = m.used) (hwaiting : ∀ u, m'.waiting u = m.waiting u) :
    Step m .other [] m'

/-- A key waits once, for one user, and has been used. -/
structure Sound (m : Mailbox υ κ) : Prop where
  nodup : ∀ u, (m.waiting u).Nodup
  used : ∀ u, ∀ k ∈ m.waiting u, k ∈ m.used
  apart : ∀ u v k, k ∈ m.waiting u → k ∈ m.waiting v → u = v

/-- A run, as the events with the keys that each of them hands out. -/
def Runs : Mailbox υ κ → List (Event υ κ × List κ) → Mailbox υ κ → Prop
  | m, [], m' => m' = m
  | m, (e, keys) :: trace, m' => ∃ m₁, Step m e keys m₁ ∧ Runs m₁ trace m'

/-- The keys that have been handed out. -/
def collected (trace : List (Event υ κ × List κ)) : List κ := trace.flatMap fun entry => entry.2

section Step

variable {m m' : Mailbox υ κ} {e : Event υ κ} {keys : List κ} {k : κ} {u : υ}

theorem Step.used (h : Step m e keys m') (hk : k ∈ m.used) : k ∈ m'.used := by
  cases h with
  | post addressee key hnew hused hwaiting =>
    rw [hused]
    exact List.mem_append_left _ hk
  | collect user atMost order horder hused huser hothers => rwa [hused]
  | other hused hwaiting => rwa [hused]

/-- A key that has been used before is not put into a box. -/
theorem Step.waiting (h : Step m e keys m') (hk : k ∈ m.used) (hu : k ∈ m'.waiting u) : k ∈ m.waiting u := by
  cases h with
  | post addressee key hnew hused hwaiting =>
    rw [hwaiting] at hu
    rcases List.mem_append.mp hu with hu | hu
    · exact hu
    · split at hu
      · rw [List.mem_singleton.mp hu] at hk
        exact absurd hk hnew
      · cases hu
  | collect user atMost order horder hused huser hothers =>
    rcases eq_or_ne u user with rfl | hne
    · rw [huser] at hu
      exact (List.mem_filter.mp hu).1
    · rwa [hothers u hne] at hu
  | other hused hwaiting => rwa [hwaiting] at hu

/-- What is handed out has waited for the user that collects it, and waits for
nobody any more. -/
theorem Step.collected (hm : Sound m) (h : Step m e keys m') (hk : k ∈ keys) :
    (∃ user atMost, e = .collect user atMost ∧ k ∈ m.waiting user) ∧ ∀ u, k ∉ m'.waiting u := by
  cases h with
  | post addressee key hnew hused hwaiting => cases hk
  | collect user atMost order horder hused huser hothers =>
    have hwaits : k ∈ m.waiting user := horder.mem_iff.mp (List.mem_of_mem_drop hk)
    refine ⟨⟨user, atMost, rfl, hwaits⟩, fun u hu => ?_⟩
    rcases eq_or_ne u user with rfl | hne
    · rw [huser] at hu
      exact of_decide_eq_true (List.mem_filter.mp hu).2 hk
    · rw [hothers u hne] at hu
      exact hne (hm.apart u user k hu hwaits)
  | other hused hwaiting => cases hk

theorem Step.nodup (hm : Sound m) (h : Step m e keys m') : keys.Nodup := by
  cases h with
  | post addressee key hnew hused hwaiting => exact .nil
  | collect user atMost order horder hused huser hothers =>
    exact (horder.nodup_iff.mpr (hm.nodup user)).sublist (List.drop_sublist _ _)
  | other hused hwaiting => exact .nil

theorem Step.sound (hm : Sound m) (h : Step m e keys m') : Sound m' := by
  cases h with
  | post addressee key hnew hused hwaiting =>
    have hfresh : ∀ u, key ∉ m.waiting u := fun u hkey => hnew (hm.used u key hkey)
    refine ⟨fun u => ?_, fun u k hk => ?_, fun u v k hu hv => ?_⟩
    · rw [hwaiting]
      split
      · exact List.nodup_append.mpr ⟨hm.nodup u, List.nodup_singleton _, by
          rintro a ha b hb rfl
          rw [List.mem_singleton.mp hb] at ha
          exact hfresh u ha⟩
      · rw [List.append_nil]
        exact hm.nodup u
    · rw [hwaiting] at hk
      rw [hused]
      rcases List.mem_append.mp hk with hk | hk
      · exact List.mem_append_left _ (hm.used u k hk)
      · split at hk
        · exact List.mem_append_right _ hk
        · cases hk
    · rw [hwaiting] at hu hv
      rcases List.mem_append.mp hu with hu | hu
      · rcases List.mem_append.mp hv with hv | hv
        · exact hm.apart u v k hu hv
        · split at hv
          · rw [List.mem_singleton.mp hv] at hu
            exact absurd hu (hfresh u)
          · cases hv
      · split at hu
        · next hau =>
          rw [List.mem_singleton.mp hu] at hv
          rcases List.mem_append.mp hv with hv | hv
          · exact absurd hv (hfresh v)
          · split at hv
            · next hav => exact Option.some.inj (hau.symm.trans hav)
            · cases hv
        · cases hu
  | collect user atMost order horder hused huser hothers =>
    have hsub : ∀ u, (m'.waiting u).Sublist (m.waiting u) := by
      intro u
      rcases eq_or_ne u user with rfl | hne
      · rw [huser]
        exact List.filter_sublist
      · rw [hothers u hne]
    exact ⟨fun u => (hm.nodup u).sublist (hsub u), fun u k hk => hused ▸ hm.used u k ((hsub u).mem hk),
      fun u v k hu hv => hm.apart u v k ((hsub u).mem hu) ((hsub v).mem hv)⟩
  | other hused hwaiting =>
    refine ⟨fun u => ?_, fun u k hk => ?_, fun u v k hu hv => ?_⟩
    · rw [hwaiting]
      exact hm.nodup u
    · rw [hwaiting] at hk
      exact hused ▸ hm.used u k hk
    · rw [hwaiting] at hu hv
      exact hm.apart u v k hu hv

/-- What waits for a user either goes on waiting or is collected by the user. -/
theorem Step.waits_or_collected (h : Step m e keys m') (hk : k ∈ m.waiting u) :
    k ∈ m'.waiting u ∨ (∃ atMost, e = .collect u atMost) ∧ k ∈ keys := by
  cases h with
  | post addressee key hnew hused hwaiting =>
    rw [hwaiting]
    exact .inl (List.mem_append_left _ hk)
  | collect user atMost order horder hused huser hothers =>
    rcases eq_or_ne u user with rfl | hne
    · rw [huser, List.mem_filter, decide_eq_true_eq]
      rcases Classical.em (k ∈ order.drop (order.length - atMost)) with hdrop | hdrop
      · exact .inr ⟨⟨atMost, rfl⟩, hdrop⟩
      · exact .inl ⟨hk, hdrop⟩
    · rw [hothers u hne]
      exact .inl hk
  | other hused hwaiting =>
    rw [hwaiting]
    exact .inl hk

/-- A collection takes as many keys as it may, if so many wait. -/
theorem Step.length_collect {n : Nat} (hm : Sound m) (h : Step m (.collect u n) keys m') :
    (m'.waiting u).length = (m.waiting u).length - n := by
  cases h with
  | collect user atMost order horder hused huser hothers =>
    have hnodup : order.Nodup := horder.nodup_iff.mpr (hm.nodup u)
    have happend := List.take_append_drop (order.length - n) order
    have hapart : ∀ k ∈ order.take (order.length - n), k ∉ order.drop (order.length - n) := by
      rw [← happend] at hnodup
      exact fun k hk hk' => (List.nodup_append.mp hnodup).2.2 k hk k hk' rfl
    have hsplit : order.filter (fun k => k ∉ order.drop (order.length - n)) = order.take (order.length - n) := by
      have hkept : (order.take (order.length - n)).filter (fun k => k ∉ order.drop (order.length - n)) =
          order.take (order.length - n) := List.filter_eq_self.mpr fun k hk => decide_eq_true (hapart k hk)
      have hgone : (order.drop (order.length - n)).filter (fun k => k ∉ order.drop (order.length - n)) = [] :=
        List.filter_eq_nil_iff.mpr fun k hk h => of_decide_eq_true h hk
      have hboth := congrArg (List.filter fun k => k ∉ order.drop (order.length - n)) happend
      rwa [List.filter_append, hkept, hgone, List.append_nil, eq_comm] at hboth
    rw [huser, ← (horder.filter _).length_eq, hsplit, List.length_take, ← horder.length_eq]
    omega

/-- Nothing is added to the box of a user without a post to it. -/
theorem Step.length_le (h : Step m e keys m') (hpost : ∀ key, e ≠ .post (some u) key) :
    (m'.waiting u).length ≤ (m.waiting u).length := by
  cases h with
  | post addressee key hnew hused hwaiting =>
    have hne : addressee ≠ some u := by
      rintro rfl
      exact hpost key rfl
    have hsame : m'.waiting u = m.waiting u := by rw [hwaiting, if_neg hne, List.append_nil]
    exact Nat.le_of_eq (congrArg List.length hsame)
  | collect user atMost order horder hused huser hothers =>
    rcases eq_or_ne u user with rfl | hne
    · rw [huser]
      exact List.length_filter_le _ _
    · exact Nat.le_of_eq (congrArg List.length (hothers u hne))
  | other hused hwaiting => exact Nat.le_of_eq (congrArg List.length (hwaiting u))

end Step

section Runs

variable {m m' : Mailbox υ κ} {trace : List (Event υ κ × List κ)} {k : κ} {u : υ}

/-- A key that has been used is collected only by the user it waits for. -/
theorem Runs.waiting_of_collected {n : Nat} {keys : List κ} (hm : Sound m) (h : Runs m trace m')
    (hused : k ∈ m.used) (hentry : (.collect u n, keys) ∈ trace) (hk : k ∈ keys) : k ∈ m.waiting u := by
  induction trace generalizing m with
  | nil => cases hentry
  | cons entry trace ih =>
    obtain ⟨m₁, hstep, hrest⟩ := h
    rcases List.mem_cons.mp hentry with rfl | hentry
    · obtain ⟨⟨user, atMost, he, hwaits⟩, -⟩ := hstep.collected hm hk
      cases he
      exact hwaits
    · exact hstep.waiting hused (ih (hstep.sound hm) hrest (hstep.used hused) hentry)

/-- Keys are handed out by collections. -/
theorem Runs.collect_of_mem (hm : Sound m) (h : Runs m trace m') (hk : k ∈ collected trace) :
    ∃ u n keys, (.collect u n, keys) ∈ trace ∧ k ∈ keys := by
  induction trace generalizing m with
  | nil => cases hk
  | cons entry trace ih =>
    obtain ⟨m₁, hstep, hrest⟩ := h
    rcases List.mem_append.mp hk with hk | hk
    · obtain ⟨⟨user, atMost, he, -⟩, -⟩ := hstep.collected hm hk
      exact ⟨user, atMost, entry.2, List.mem_cons.mpr (.inl (Prod.ext he.symm rfl)), hk⟩
    · obtain ⟨u, n, keys, hentry, hk⟩ := ih (hstep.sound hm) hrest hk
      exact ⟨u, n, keys, List.mem_cons_of_mem _ hentry, hk⟩

/-- No key is collected twice. -/
theorem Runs.nodup_collected (hm : Sound m) (h : Runs m trace m') : (collected trace).Nodup := by
  induction trace generalizing m with
  | nil => exact .nil
  | cons entry trace ih =>
    obtain ⟨m₁, hstep, hrest⟩ := h
    refine List.nodup_append.mpr ⟨hstep.nodup hm, ih (hstep.sound hm) hrest, ?_⟩
    rintro k hk _ hlater rfl
    obtain ⟨⟨user, atMost, -, hwaits⟩, hgone⟩ := hstep.collected hm hk
    obtain ⟨u, n, keys, hentry, hkeys⟩ := hrest.collect_of_mem (hstep.sound hm) hlater
    exact hgone u (hrest.waiting_of_collected (hstep.sound hm) (hstep.used (hm.used user k hwaits)) hentry hkeys)

theorem Runs.fresh {addressee : Option υ} {keys : List κ} (h : Runs m trace m')
    (hentry : (.post addressee k, keys) ∈ trace) : k ∉ m.used := by
  induction trace generalizing m with
  | nil => cases hentry
  | cons entry trace ih =>
    obtain ⟨m₁, hstep, hrest⟩ := h
    rcases List.mem_cons.mp hentry with rfl | hentry
    · cases hstep
      assumption
    · exact fun hused => ih hrest hentry (hstep.used hused)

/-- A key is collected only by the user it has been posted to. -/
theorem Runs.addressee_of_collected {addressee : Option υ} {n : Nat} {keys keys' : List κ} (hm : Sound m)
    (h : Runs m trace m') (hpost : (.post addressee k, keys') ∈ trace)
    (hentry : (.collect u n, keys) ∈ trace) (hk : k ∈ keys) : addressee = some u := by
  induction trace generalizing m with
  | nil => cases hpost
  | cons entry trace ih =>
    obtain ⟨m₁, hstep, hrest⟩ := h
    have hm₁ := hstep.sound hm
    rcases List.mem_cons.mp hpost with he | hlater
    · rcases List.mem_cons.mp hentry with he' | hlater
      · cases he.trans he'.symm
      cases he
      cases hstep with
      | post _ _ hnew hused hwaiting =>
        have hused₁ : k ∈ m₁.used := by
          rw [hused]
          exact List.mem_append_right _ List.mem_cons_self
        have hwaits := hrest.waiting_of_collected hm₁ hused₁ hlater hk
        rw [hwaiting] at hwaits
        rcases List.mem_append.mp hwaits with hwaits | hwaits
        · exact absurd (hm.used u k hwaits) hnew
        · split at hwaits
          · assumption
          · cases hwaits
    · rcases List.mem_cons.mp hentry with rfl | hentry
      · obtain ⟨⟨user, atMost, -, hwaits⟩, -⟩ := hstep.collected hm hk
        exact absurd (hstep.used (hm.used user k hwaits)) (hrest.fresh hlater)
      · exact ih hm₁ hrest hlater hentry

theorem Runs.append {trace' : List (Event υ κ × List κ)} {m₁ : Mailbox υ κ} (h : Runs m trace m₁)
    (h' : Runs m₁ trace' m') : Runs m (trace ++ trace') m' := by
  induction trace generalizing m with
  | nil => exact (show m₁ = m from h) ▸ h'
  | cons entry trace ih =>
    obtain ⟨m₂, hstep, hrest⟩ := h
    exact ⟨m₂, hstep, ih hrest⟩

/-- What waits goes on waiting until it is collected. -/
theorem Runs.waits_or_collected (h : Runs m trace m') (hk : k ∈ m.waiting u) :
    k ∈ m'.waiting u ∨ k ∈ collected trace := by
  induction trace generalizing m with
  | nil => exact .inl ((show m' = m from h) ▸ hk)
  | cons entry trace ih =>
    obtain ⟨m₁, hstep, hrest⟩ := h
    rcases hstep.waits_or_collected hk with hk | ⟨-, hk⟩
    · exact (ih hrest hk).imp id (List.mem_append_right _)
    · exact .inr (List.mem_append_left _ hk)

/-- So does what is posted. -/
theorem Runs.posted (h : Runs m trace m') {keys : List κ} (hpost : (.post (some u) k, keys) ∈ trace) :
    k ∈ m'.waiting u ∨ k ∈ collected trace := by
  induction trace generalizing m with
  | nil => cases hpost
  | cons entry trace ih =>
    obtain ⟨m₁, hstep, hrest⟩ := h
    rcases List.mem_cons.mp hpost with rfl | hpost
    · cases hstep with
      | post _ _ hnew hused hwaiting =>
        have hwaits : k ∈ m₁.waiting u := by
          rw [hwaiting, if_pos rfl]
          exact List.mem_append_right _ List.mem_cons_self
        exact (hrest.waits_or_collected hwaits).imp id (List.mem_append_right _)
    · exact (ih hrest hpost).imp id (List.mem_append_right _)

/-- What waits for a user to whom nothing is posted is collected by enough
collections. -/
theorem Runs.collects_all {n : Nat} (hm : Sound m) (h : Runs m trace m')
    (hpost : ∀ entry ∈ trace, ∀ key, entry.1 ≠ .post (some u) key)
    (hcalls : (m.waiting u).length ≤ n * trace.countP fun entry => entry.1 = .collect u n)
    (hk : k ∈ m.waiting u) : ∃ atMost keys, (.collect u atMost, keys) ∈ trace ∧ k ∈ keys := by
  induction trace generalizing m with
  | nil =>
    rw [List.countP_nil, Nat.mul_zero, Nat.le_zero, List.length_eq_zero_iff] at hcalls
    rw [hcalls] at hk
    cases hk
  | cons entry trace ih =>
    obtain ⟨e, keys⟩ := entry
    obtain ⟨m₁, hstep, hrest⟩ := h
    have hcalls₁ : (m₁.waiting u).length ≤ n * trace.countP fun entry => entry.1 = .collect u n := by
      rw [List.countP_cons] at hcalls
      rcases eq_or_ne e (.collect u n) with rfl | hne
      · simp only [decide_true, if_true, Nat.mul_add, Nat.mul_one] at hcalls
        rw [hstep.length_collect hm]
        omega
      · simp only [hne, decide_false, Bool.false_eq_true, if_false, Nat.add_zero] at hcalls
        exact Nat.le_trans (hstep.length_le (hpost (e, keys) List.mem_cons_self)) hcalls
    rcases hstep.waits_or_collected hk with hk | ⟨⟨atMost, rfl⟩, hk⟩
    · obtain ⟨atMost, keys', hentry, hk⟩ :=
        ih (hstep.sound hm) hrest (fun entry hentry => hpost entry (List.mem_cons_of_mem _ hentry)) hcalls₁ hk
      exact ⟨atMost, keys', List.mem_cons_of_mem _ hentry, hk⟩
    · exact ⟨atMost, keys, List.mem_cons_self, hk⟩

end Runs

end Mailbox

end LanChat.Lib
