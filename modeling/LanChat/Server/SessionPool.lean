import LanChat.Server.AsyncSession

/-!
# The session pool

`SessionPool` and the session objects it points to. `object` is the heap of
`AsyncSession` objects: an object outlives its removal from the pool, as long
as some handler still holds it.
-/

namespace LanChat

/-- `SessionPool`, with the session objects by id. -/
structure SessionPool where
  max_connections : Nat
  sessions : List SessionId
  user_to_session : Int32 → Option SessionId
  object : SessionId → AsyncSession

namespace SessionPool

/-- An empty pool. No session object carries a user yet. -/
def create (maxConnections : Nat) : SessionPool :=
  ⟨maxConnections, [], fun _ => none, fun _ => .construct 0⟩

def userId (pool : SessionPool) (session : SessionId) : Int32 := (pool.object session).user_id

/-- Replaces a session object. -/
def setObject (pool : SessionPool) (session : SessionId) (s : AsyncSession) : SessionPool :=
  { pool with object := Function.update pool.object session s }

/-- `AsyncSession::setUserId`. -/
def setUserId (pool : SessionPool) (session : SessionId) (user : Int32) : SessionPool :=
  pool.setObject session { pool.object session with user_id := user }

/-- `user_to_session_.erase(user)`. -/
def eraseUser (pool : SessionPool) (user : Int32) : SessionPool :=
  { pool with user_to_session := Function.update pool.user_to_session user none }

def add (pool : SessionPool) (session : SessionId) : Bool × SessionPool :=
  if pool.max_connections ≤ pool.sessions.length then (false, pool)
  else if session ∈ pool.sessions then (true, pool)
  else (true, { pool with sessions := session :: pool.sessions })

/-- `remove`. -/
def remove (pool : SessionPool) (session : SessionId) : SessionPool :=
  let pool :=
    if session ∈ pool.sessions ∧ pool.userId session ≠ 0 then pool.eraseUser (pool.userId session)
    else pool
  { pool with sessions := pool.sessions.erase session }

def bindUser (pool : SessionPool) (session : SessionId) (user : Int32) : Bool × SessionPool :=
  if session ∉ pool.sessions ∨ user ≤ 0 then (false, pool)
  else
    let pool := if pool.userId session ≠ 0 then pool.eraseUser (pool.userId session) else pool
    let pool := pool.setUserId session user
    (true,
      { pool with user_to_session := Function.update pool.user_to_session user (some session) })

/-- `findSession`: the pool's session with this id. -/
def findSession (pool : SessionPool) (session : SessionId) : Option SessionId :=
  if session ∈ pool.sessions then some session else none

def unbindUser (pool : SessionPool) (user : Int32) : SessionPool :=
  match pool.user_to_session user with
  | none => pool
  | some session =>
    match pool.findSession session with
    | none => pool.eraseUser user
    | some session => (pool.setUserId session 0).eraseUser user

def findByUserId (pool : SessionPool) (user : Int32) : Option SessionId :=
  (pool.user_to_session user).bind pool.findSession

/-- `all`, in the order in which the map is iterated. -/
def all (env : Env) (pool : SessionPool) : List SessionId := env.order pool.sessions

/-- `timedOut` at the clock reading `now`. -/
def timedOut (env : Env) (now : Int) (pool : SessionPool) : List SessionId :=
  (env.order pool.sessions).filter fun session => (pool.object session).isTimedOut now

/-! ## What each operation changes -/

section Effects

variable (pool : SessionPool) (session : SessionId) (user : Int32)

theorem userId_setObject (s : AsyncSession) (t : SessionId) :
    (pool.setObject session s).userId t = if t = session then s.user_id else pool.userId t := by
  simp only [userId, setObject, Function.update_apply]
  split <;> rfl

@[simp] theorem userId_setUserId (t : SessionId) :
    (pool.setUserId session user).userId t = if t = session then user else pool.userId t :=
  pool.userId_setObject session _ t

@[simp] theorem sessions_setUserId : (pool.setUserId session user).sessions = pool.sessions := rfl

@[simp] theorem user_to_session_setUserId :
    (pool.setUserId session user).user_to_session = pool.user_to_session := rfl

@[simp] theorem sessions_eraseUser : (pool.eraseUser user).sessions = pool.sessions := rfl

@[simp] theorem userId_eraseUser (t : SessionId) :
    (pool.eraseUser user).userId t = pool.userId t := rfl

theorem user_to_session_eraseUser (u : Int32) :
    (pool.eraseUser user).user_to_session u = if u = user then none else pool.user_to_session u := by
  simp only [eraseUser, Function.update_apply]

@[simp] theorem sessions_remove : (pool.remove session).sessions = pool.sessions.erase session := by
  unfold remove
  split <;> rfl

@[simp] theorem max_connections_remove :
    (pool.remove session).max_connections = pool.max_connections := by
  unfold remove
  split <;> rfl

@[simp] theorem userId_remove (t : SessionId) : (pool.remove session).userId t = pool.userId t := by
  unfold remove
  split <;> rfl

theorem user_to_session_remove (u : Int32) :
    (pool.remove session).user_to_session u =
      if session ∈ pool.sessions ∧ pool.userId session ≠ 0 ∧ u = pool.userId session then none
      else pool.user_to_session u := by
  unfold remove
  split
  · next h => simp [user_to_session_eraseUser, h.1, h.2]
  · next h =>
    rw [if_neg]
    exact fun h' => h ⟨h'.1, h'.2.1⟩

@[simp] theorem sessions_bindUser : (pool.bindUser session user).2.sessions = pool.sessions := by
  unfold bindUser
  split
  · rfl
  · split <;> rfl

@[simp] theorem max_connections_bindUser :
    (pool.bindUser session user).2.max_connections = pool.max_connections := by
  unfold bindUser
  split
  · rfl
  · split <;> rfl

theorem bindUser_of_refused (h : session ∉ pool.sessions ∨ user ≤ 0) :
    (pool.bindUser session user).2 = pool := by
  simp [bindUser, h]

theorem userId_bindUser (hs : session ∈ pool.sessions) (hu : 0 < user) (t : SessionId) :
    (pool.bindUser session user).2.userId t = if t = session then user else pool.userId t := by
  have hu' : ¬user ≤ 0 := Int32.not_le.mpr hu
  simp only [bindUser, hs, not_true_eq_false, hu', or_self, if_false]
  split <;> exact userId_setUserId _ _ _ t

theorem user_to_session_bindUser (hs : session ∈ pool.sessions) (hu : 0 < user) (u : Int32) :
    (pool.bindUser session user).2.user_to_session u =
      if u = user then some session
      else if pool.userId session ≠ 0 ∧ u = pool.userId session then none
      else pool.user_to_session u := by
  have hu' : ¬user ≤ 0 := Int32.not_le.mpr hu
  simp only [bindUser, hs, not_true_eq_false, hu', or_self, if_false]
  split
  · next h =>
    simp [h, Function.update_apply, user_to_session_eraseUser]
  · next h =>
    simp [h, Function.update_apply]

@[simp] theorem sessions_unbindUser : (pool.unbindUser user).sessions = pool.sessions := by
  unfold unbindUser
  split
  · rfl
  · split <;> rfl

@[simp] theorem max_connections_unbindUser :
    (pool.unbindUser user).max_connections = pool.max_connections := by
  unfold unbindUser
  split
  · rfl
  · split <;> rfl

theorem unbindUser_of_none (h : pool.user_to_session user = none) : pool.unbindUser user = pool := by
  simp [unbindUser, h]

theorem unbindUser_of_some {pool : SessionPool} {session : SessionId} {user : Int32}
    (h : pool.user_to_session user = some session) (hs : session ∈ pool.sessions) :
    pool.unbindUser user = (pool.setUserId session 0).eraseUser user := by
  simp [unbindUser, h, findSession, hs]

theorem user_to_session_unbindUser (u : Int32) :
    (pool.unbindUser user).user_to_session u =
      if u = user then none else pool.user_to_session u := by
  unfold unbindUser
  split
  · next h =>
    split
    · next hu => rw [hu, h]
    · rfl
  · split <;> exact user_to_session_eraseUser _ _ _

@[simp] theorem user_to_session_add :
    (pool.add session).2.user_to_session = pool.user_to_session := by
  unfold add
  split
  · rfl
  · split <;> rfl

@[simp] theorem userId_add (t : SessionId) : (pool.add session).2.userId t = pool.userId t := by
  unfold add
  split
  · rfl
  · split <;> rfl

theorem findByUserId_eq_some {t : SessionId} :
    pool.findByUserId user = some t ↔ pool.user_to_session user = some t ∧ t ∈ pool.sessions := by
  unfold findByUserId findSession
  cases pool.user_to_session user with
  | none => simp
  | some s =>
    by_cases hs : s ∈ pool.sessions
    · simp only [Option.bind_some, hs, if_true, Option.some.injEq]
      exact ⟨fun h => ⟨h, h ▸ hs⟩, fun h => h.1⟩
    · simp only [Option.bind_some, hs, if_false, reduceCtorEq, Option.some.injEq, false_iff, not_and]
      exact fun h ht => hs (h ▸ ht)

end Effects

end SessionPool

end LanChat
