import LanChat.Lib.Run
import LanChat.Server.SessionPool

/-!
# The index of the session pool

`user_to_session_` is an index over the sessions by the user that each carries.
In every run of the pool's operations an index entry names a pooled session of
its user (`findByUserId_sound`). The other direction fails when one user is
logged in on two sessions: the index keeps the later one, and an operation that
erases the entry leaves the other session without one.
`reachable_iff_keepsOthers` says which operations do that.
-/

namespace LanChat

open Lib

namespace SessionPool

/-- An operation of the pool. -/
inductive Op where
  | add (session : SessionId)
  | bindUser (session : SessionId) (user : Int32)
  | unbindUser (user : Int32)
  | remove (session : SessionId)

def apply (pool : SessionPool) : Op → SessionPool
  | .add session => (pool.add session).2
  | .bindUser session user => (pool.bindUser session user).2
  | .unbindUser user => pool.unbindUser user
  | .remove session => pool.remove session

def step (pool : SessionPool) (op : Op) : Option SessionPool := some (pool.apply op)

/-! ## Index entries are sound -/

/-- The invariant of the pool: every index entry names a pooled session that
carries the user of the entry. -/
structure Indexed (pool : SessionPool) : Prop where
  nodup : pool.sessions.Nodup
  sound : ∀ user session, pool.user_to_session user = some session →
    session ∈ pool.sessions ∧ pool.userId session = user
  positive : ∀ user session, pool.user_to_session user = some session → 0 < user
  nonneg : ∀ session, 0 ≤ pool.userId session

theorem indexed_create (maxConnections : Nat) : Indexed (create maxConnections) where
  nodup := List.nodup_nil
  sound _ _ h := by cases h
  positive _ _ h := by cases h
  nonneg _ := Int32.le_refl 0

theorem sessions_add {pool : SessionPool} {session : SessionId} :
    (pool.add session).2.sessions =
      if pool.max_connections ≤ pool.sessions.length ∨ session ∈ pool.sessions then pool.sessions
      else session :: pool.sessions := by
  unfold add
  by_cases hfull : pool.max_connections ≤ pool.sessions.length
  · simp [hfull]
  · by_cases hs : session ∈ pool.sessions <;> simp [hfull, hs]

theorem mem_sessions_add {pool : SessionPool} {session t : SessionId}
    (h : t ∈ (pool.add session).2.sessions) : t = session ∨ t ∈ pool.sessions := by
  rw [sessions_add] at h
  split at h
  · exact .inr h
  · exact List.mem_cons.mp h

/-- The user of a session outside the pool does not matter. -/
theorem Indexed.setUserId {pool : SessionPool} (h : Indexed pool) {session : SessionId}
    (hs : session ∉ pool.sessions) {user : Int32} (hu : 0 ≤ user) :
    Indexed (pool.setUserId session user) where
  nodup := h.nodup
  sound u t ht := by
    obtain ⟨hmem, huser⟩ := h.sound u t ht
    have hne : t ≠ session := fun heq => hs (heq ▸ hmem)
    exact ⟨hmem, by rw [userId_setUserId, if_neg hne, huser]⟩
  positive := h.positive
  nonneg t := by
    rw [userId_setUserId]
    split
    · exact hu
    · exact h.nonneg t

theorem Indexed.add {pool : SessionPool} (h : Indexed pool) (session : SessionId) :
    Indexed (pool.add session).2 where
  nodup := by
    rw [sessions_add]
    split
    · exact h.nodup
    · next hs => exact List.nodup_cons.mpr ⟨fun hmem => hs (.inr hmem), h.nodup⟩
  sound user t ht := by
    rw [user_to_session_add] at ht
    obtain ⟨hmem, huser⟩ := h.sound user t ht
    refine ⟨?_, by rwa [userId_add]⟩
    rw [sessions_add]
    split
    · exact hmem
    · exact List.mem_cons_of_mem _ hmem
  positive user t ht := h.positive user t (by rwa [user_to_session_add] at ht)
  nonneg t := by rw [userId_add]; exact h.nonneg t

theorem Indexed.bindUser {pool : SessionPool} (h : Indexed pool) (session : SessionId)
    (user : Int32) : Indexed (pool.bindUser session user).2 := by
  by_cases hrefused : session ∉ pool.sessions ∨ user ≤ 0
  · rw [bindUser_of_refused pool session user hrefused]
    exact h
  · rw [not_or, not_not, Int32.not_le] at hrefused
    obtain ⟨hs, hu⟩ := hrefused
    refine ⟨by rw [sessions_bindUser]; exact h.nodup, fun u t ht => ?_, fun u t ht => ?_,
      fun t => ?_⟩
    · rw [user_to_session_bindUser _ _ _ hs hu] at ht
      rw [sessions_bindUser, userId_bindUser _ _ _ hs hu]
      split at ht
      · next hu' =>
        cases ht
        exact ⟨hs, by simp [hu']⟩
      · next hu' =>
        split at ht
        · cases ht
        · next hold =>
          obtain ⟨hmem, huser⟩ := h.sound u t ht
          refine ⟨hmem, ?_⟩
          rw [if_neg]
          · exact huser
          · rintro rfl
            have hpos := h.positive u t ht
            refine hold ⟨fun h0 => ?_, huser.symm⟩
            rw [huser] at h0
            rw [h0] at hpos
            exact absurd hpos (by decide)
    · rw [user_to_session_bindUser _ _ _ hs hu] at ht
      split at ht
      · next hu' => exact hu' ▸ hu
      · split at ht
        · cases ht
        · exact h.positive u t ht
    · rw [userId_bindUser _ _ _ hs hu]
      split
      · exact Int32.le_of_lt hu
      · exact h.nonneg t

theorem Indexed.unbindUser {pool : SessionPool} (h : Indexed pool) (user : Int32) :
    Indexed (pool.unbindUser user) := by
  cases hi : pool.user_to_session user with
  | none => rw [unbindUser_of_none pool user hi]; exact h
  | some session =>
    obtain ⟨hs, huser⟩ := h.sound user session hi
    refine ⟨by rw [sessions_unbindUser]; exact h.nodup, fun u t ht => ?_, fun u t ht => ?_,
      fun t => ?_⟩
    · rw [user_to_session_unbindUser] at ht
      split at ht
      · cases ht
      · next hne =>
        obtain ⟨hmem, hu⟩ := h.sound u t ht
        rw [sessions_unbindUser, unbindUser_of_some hi hs, userId_eraseUser, userId_setUserId]
        refine ⟨hmem, ?_⟩
        rw [if_neg]
        · exact hu
        · rintro rfl
          exact hne (hu.symm.trans huser)
    · rw [user_to_session_unbindUser] at ht
      split at ht
      · cases ht
      · exact h.positive u t ht
    · rw [unbindUser_of_some hi hs, userId_eraseUser, userId_setUserId]
      split
      · decide
      · exact h.nonneg t

theorem Indexed.remove {pool : SessionPool} (h : Indexed pool) (session : SessionId) :
    Indexed (pool.remove session) where
  nodup := by rw [sessions_remove]; exact h.nodup.erase session
  sound user t ht := by
    rw [user_to_session_remove] at ht
    split at ht
    · cases ht
    · next hother =>
      obtain ⟨hmem, huser⟩ := h.sound user t ht
      rw [sessions_remove, userId_remove]
      refine ⟨(List.mem_erase_of_ne ?_).mpr hmem, huser⟩
      rintro rfl
      have hpos := h.positive user t ht
      refine hother ⟨hmem, fun h0 => ?_, huser.symm⟩
      rw [huser] at h0
      rw [h0] at hpos
      exact absurd hpos (by decide)
  positive user t ht := by
    rw [user_to_session_remove] at ht
    split at ht
    · cases ht
    · exact h.positive user t ht
  nonneg t := by rw [userId_remove]; exact h.nonneg t

theorem Indexed.apply {pool : SessionPool} (h : Indexed pool) (op : Op) :
    Indexed (pool.apply op) := by
  cases op with
  | add session => exact h.add session
  | bindUser session user => exact h.bindUser session user
  | unbindUser user => exact h.unbindUser user
  | remove session => exact h.remove session

theorem length_sessions_apply {pool : SessionPool} (op : Op)
    (h : pool.sessions.length ≤ pool.max_connections) :
    (pool.apply op).sessions.length ≤ (pool.apply op).max_connections ∧
      (pool.apply op).max_connections = pool.max_connections := by
  cases op with
  | add session =>
    have hmax : (pool.add session).2.max_connections = pool.max_connections := by
      unfold add
      split
      · rfl
      · split <;> rfl
    simp only [SessionPool.apply, hmax, and_true, sessions_add]
    split
    · exact h
    · next hroom =>
      have : ¬pool.max_connections ≤ pool.sessions.length := fun hfull => hroom (.inl hfull)
      simp only [List.length_cons]
      omega
  | bindUser session user => simpa [SessionPool.apply] using h
  | unbindUser user => simpa [SessionPool.apply] using h
  | remove session =>
    have hle := List.length_erase_le (a := session) (l := pool.sessions)
    simp only [SessionPool.apply, sessions_remove, max_connections_remove, and_true]
    omega

/-- No misdelivery: whatever the operations and their order, the session found
for a user is in the pool and carries that user, and the pool is not overfull. -/
theorem findByUserId_sound (maxConnections : Nat) (ops : List Op) (pool : SessionPool)
    (hrun : run step (create maxConnections) ops = some pool) :
    (∀ user session, pool.findByUserId user = some session →
      session ∈ pool.sessions ∧ pool.userId session = user) ∧
      pool.sessions.length ≤ maxConnections := by
  have hinv : Indexed pool ∧ pool.sessions.length ≤ pool.max_connections ∧
      pool.max_connections = maxConnections := by
    refine invariant_run (I := fun p => Indexed p ∧ p.sessions.length ≤ p.max_connections ∧
      p.max_connections = maxConnections) ?_ ⟨indexed_create _, Nat.zero_le _, rfl⟩ hrun
    rintro p op p' ⟨hi, hlen, hmax⟩ hstep
    cases hstep
    obtain ⟨hlen', hmax'⟩ := length_sessions_apply op hlen
    exact ⟨hi.apply op, hlen', hmax'.trans hmax⟩
  obtain ⟨hi, hlen, hmax⟩ := hinv
  refine ⟨fun user session h => ?_, hmax ▸ hlen⟩
  exact hi.sound user session ((findByUserId_eq_some pool user).mp h).1

/-- Two sessions of user 7, a third connection that is refused, and the removal
of the first session. -/
theorem findByUserId_sound_relogin :
    ∃ pool, run step (create 2)
        [.add 1, .bindUser 1 7, .add 2, .bindUser 2 7, .add 3, .remove 1] = some pool ∧
      (∀ user session, pool.findByUserId user = some session →
        session ∈ pool.sessions ∧ pool.userId session = user) ∧
        pool.sessions.length ≤ 2 :=
  ⟨_, rfl, findByUserId_sound 2
    [.add 1, .bindUser 1 7, .add 2, .bindUser 2 7, .add 3, .remove 1] _ rfl⟩

/-! ## Which users the index finds -/

/-- Every user that some pooled session carries is found. -/
def FindsUsers (pool : SessionPool) : Prop :=
  ∀ session ∈ pool.sessions, 0 < pool.userId session →
    ∃ found ∈ pool.sessions, pool.findByUserId (pool.userId session) = some found

/-- No other session of the pool carries the user of this one. -/
def Alone (pool : SessionPool) (session : SessionId) : Prop :=
  ∀ other ∈ pool.sessions, other ≠ session → pool.userId other ≠ pool.userId session

/-- The operation leaves no user without an index entry: it takes an entry away
only from a user who has no other session in the pool. -/
def KeepsOthers (pool : SessionPool) : Op → Prop
  | .add session =>
    pool.max_connections ≤ pool.sessions.length ∨ pool.userId session = 0 ∨
      ∃ other ∈ pool.sessions, pool.userId other = pool.userId session
  | .bindUser session user =>
    session ∉ pool.sessions ∨ user ≤ 0 ∨ pool.userId session = 0 ∨
      pool.userId session = user ∨ pool.Alone session
  | .unbindUser user =>
    ∀ session ∈ pool.sessions, 0 < user → pool.userId session = user → pool.Alone session
  | .remove session =>
    session ∉ pool.sessions ∨ pool.userId session = 0 ∨ pool.Alone session

theorem Indexed.pos_of_ne {pool : SessionPool} (h : Indexed pool) {session : SessionId}
    (hne : pool.userId session ≠ 0) : 0 < pool.userId session :=
  Int32.lt_of_le_of_ne (h.nonneg session) hne.symm

/-- In terms of the index: every carried user has an entry. -/
theorem Indexed.findsUsers_iff {pool : SessionPool} (h : Indexed pool) :
    FindsUsers pool ↔ ∀ session ∈ pool.sessions, pool.userId session ≠ 0 →
      pool.user_to_session (pool.userId session) ≠ none := by
  constructor
  · intro hf session hs hne hnone
    obtain ⟨found, -, heq⟩ := hf session hs (h.pos_of_ne hne)
    rw [findByUserId_eq_some, hnone] at heq
    cases heq.1
  · intro hf session hs hpos
    have hne : pool.userId session ≠ 0 := fun h0 => by
      rw [h0] at hpos
      exact absurd hpos (by decide)
    obtain ⟨found, heq⟩ := Option.ne_none_iff_exists'.mp (hf session hs hne)
    obtain ⟨hmem, -⟩ := h.sound _ _ heq
    exact ⟨found, hmem, (findByUserId_eq_some pool _).mpr ⟨heq, hmem⟩⟩

theorem findsUsers_add_iff {pool : SessionPool} (h : Indexed pool) (hf : FindsUsers pool)
    (session : SessionId) :
    FindsUsers (pool.add session).2 ↔ KeepsOthers pool (.add session) := by
  rw [h.findsUsers_iff] at hf
  rw [(h.add session).findsUsers_iff]
  simp only [userId_add, user_to_session_add, sessions_add, KeepsOthers]
  by_cases hfull : pool.max_connections ≤ pool.sessions.length
  · simpa [hfull] using hf
  by_cases hmem : session ∈ pool.sessions
  · simp only [hmem, or_true, if_true, hfull, false_or]
    exact iff_of_true hf (.inr ⟨session, hmem, rfl⟩)
  · simp only [hfull, hmem, or_self, if_false, List.mem_cons, false_or]
    constructor
    · intro hall
      by_cases h0 : pool.userId session = 0
      · exact .inl h0
      · obtain ⟨other, heq⟩ := Option.ne_none_iff_exists'.mp (hall session (.inl rfl) h0)
        exact .inr ⟨other, h.sound _ _ heq⟩
    · rintro hcond t (rfl | ht) hne
      · rcases hcond with h0 | ⟨other, hother, heq⟩
        · exact absurd h0 hne
        · exact heq ▸ hf other hother (heq ▸ hne)
      · exact hf t ht hne

theorem findsUsers_bindUser_iff {pool : SessionPool} (h : Indexed pool) (hf : FindsUsers pool)
    (session : SessionId) (user : Int32) :
    FindsUsers (pool.bindUser session user).2 ↔ KeepsOthers pool (.bindUser session user) := by
  by_cases hrefused : session ∉ pool.sessions ∨ user ≤ 0
  · rw [bindUser_of_refused pool session user hrefused]
    exact iff_of_true hf (hrefused.imp_right .inl)
  · have hnot := hrefused
    rw [not_or, not_not, Int32.not_le] at hrefused
    obtain ⟨hs, hu⟩ := hrefused
    rw [h.findsUsers_iff] at hf
    rw [(h.bindUser session user).findsUsers_iff, sessions_bindUser]
    simp only [userId_bindUser _ _ _ hs hu, user_to_session_bindUser _ _ _ hs hu]
    have hcond : KeepsOthers pool (.bindUser session user) ↔
        (pool.userId session = 0 ∨ pool.userId session = user ∨ pool.Alone session) := by
      rw [not_or] at hnot
      simp [KeepsOthers, hnot.1, hnot.2]
    rw [hcond]
    constructor
    · intro hall
      by_cases h0 : pool.userId session = 0
      · exact .inl h0
      by_cases hsame : pool.userId session = user
      · exact .inr (.inl hsame)
      refine .inr (.inr fun other hother hne heq => ?_)
      have hentry := hall other hother
      simp only [hne, if_false, heq] at hentry
      simp [hsame, h0] at hentry
    · intro hc t ht hne
      by_cases hts : t = session
      · simp [hts]
      · simp only [hts, if_false] at hne ⊢
        split
        · exact Option.some_ne_none _
        · next hneu =>
          rw [if_neg]
          · exact hf t ht hne
          · rintro ⟨h0, heq⟩
            rcases hc with hc | hc | hc
            · exact h0 hc
            · exact hneu (heq.trans hc)
            · exact hc t ht hts heq

theorem findsUsers_unbindUser_iff {pool : SessionPool} (h : Indexed pool) (hf : FindsUsers pool)
    (user : Int32) :
    FindsUsers (pool.unbindUser user) ↔ KeepsOthers pool (.unbindUser user) := by
  rw [h.findsUsers_iff] at hf
  cases hi : pool.user_to_session user with
  | none =>
    rw [unbindUser_of_none pool user hi]
    refine iff_of_true (h.findsUsers_iff.mpr hf) fun session hs hpos heq => ?_
    have hne : pool.userId session ≠ 0 := fun h0 => by
      rw [← heq, h0] at hpos
      exact absurd hpos (by decide)
    exact absurd hi (heq ▸ hf session hs hne)
  | some indexed =>
    obtain ⟨hmem, huser⟩ := h.sound user indexed hi
    have hpos := h.positive user indexed hi
    rw [(h.unbindUser user).findsUsers_iff, sessions_unbindUser]
    simp only [user_to_session_unbindUser]
    rw [unbindUser_of_some hi hmem]
    simp only [userId_eraseUser, userId_setUserId]
    constructor
    · intro hall session hs _ heq
      have honly : ∀ t ∈ pool.sessions, pool.userId t = user → t = indexed := by
        intro t ht htu
        by_contra hne
        have hentry := hall t ht
        simp only [hne, if_false, htu, if_true] at hentry
        refine hentry (fun h0 => ?_) rfl
        rw [h0] at hpos
        exact absurd hpos (by decide)
      intro other hother hne heq'
      exact hne ((honly other hother (heq'.trans heq)).trans (honly session hs heq).symm)
    · intro hc t ht hne
      by_cases hts : t = indexed
      · simp [hts] at hne
      · simp only [hts, if_false] at hne ⊢
        rw [if_neg]
        · exact hf t ht hne
        · intro heq
          exact hc indexed hmem hpos huser t ht hts (heq.trans huser.symm)

theorem findsUsers_remove_iff {pool : SessionPool} (h : Indexed pool) (hf : FindsUsers pool)
    (session : SessionId) :
    FindsUsers (pool.remove session) ↔ KeepsOthers pool (.remove session) := by
  rw [h.findsUsers_iff] at hf
  rw [(h.remove session).findsUsers_iff]
  simp only [sessions_remove, userId_remove, user_to_session_remove, KeepsOthers, h.nodup.mem_erase_iff]
  constructor
  · intro hall
    by_cases hs : session ∈ pool.sessions
    · by_cases h0 : pool.userId session = 0
      · exact .inr (.inl h0)
      · refine .inr (.inr fun other hother hne heq => ?_)
        have hentry := hall other ⟨hne, hother⟩ (heq ▸ h0)
        simp [hs, h0, heq] at hentry
    · exact .inl hs
  · rintro hc t ⟨hne, ht⟩ h0
    rw [if_neg]
    · exact hf t ht h0
    · rintro ⟨hs, hs0, heq⟩
      rcases hc with hc | hc | hc
      · exact hc hs
      · exact hs0 hc
      · exact hc t ht hne heq

/-- Over a whole run, every logged-in user stays reachable exactly when each
operation keeps the other sessions of the users it touches. -/
theorem findsUsers_iff_keepsOthers (maxConnections : Nat) (ops : List Op) :
    Throughout step FindsUsers (create maxConnections) ops ↔
      Along step KeepsOthers (create maxConnections) ops := by
  refine throughout_iff_along (J := Indexed) ?_ ?_ (indexed_create _) ?_ ops
  · rintro pool op pool' h hstep
    cases hstep
    exact h.apply op
  · rintro pool op pool' h hf hstep
    cases hstep
    cases op with
    | add session => exact findsUsers_add_iff h hf session
    | bindUser session user => exact findsUsers_bindUser_iff h hf session user
    | unbindUser user => exact findsUsers_unbindUser_iff h hf user
    | remove session => exact findsUsers_remove_iff h hf session
  · intro session hs
    cases hs

/-- User 7 reconnects on session 2 before session 1 has been removed: after the
removal session 2 is logged in and not found. -/
theorem findsUsers_fails_on_reconnect :
    ¬∀ maxConnections ops, Throughout step FindsUsers (create maxConnections) ops := by
  intro hall
  have hrun := (hall 2 [.add 1, .bindUser 1 7, .add 2, .bindUser 2 7, .remove 1]).last rfl
  obtain ⟨found, -, hfound⟩ := hrun 2 (by decide) (by decide)
  exact absurd (Option.isSome_iff_exists.mpr ⟨found, hfound⟩) (by decide)

end SessionPool

end LanChat
