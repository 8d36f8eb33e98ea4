import LanChat.Server.PoolIndex
import LanChat.Server.MessageRouter

/-!
# Who is logged in where

The roster of a server is its session pool, with everything of a session object
forgotten except the user, and its presence table. A login, a logout and the
removal of a session are operations on rosters; everything else that the router
does leaves the roster as it is.

* `Roster.login`, `Roster.logout`, `Roster.remove`, `Roster.accept`.
* `sat_onDb`, `sat_deliverContent`, `sat_deliverToUser`: triples of the router's
  accesses at a fixed roster.
-/

namespace LanChat

open Lib Json

namespace SessionPool

/-- The pool with everything of a session object forgotten except its user. -/
def bare (pool : SessionPool) : SessionPool :=
  { pool with object := fun session =>
      { AsyncSession.construct 0 with user_id := pool.userId session } }

section Bare

variable (pool : SessionPool) (session : SessionId) (user : Int32)

@[simp] theorem userId_bare : pool.bare.userId session = pool.userId session := rfl

@[simp] theorem sessions_bare : pool.bare.sessions = pool.sessions := rfl

@[simp] theorem user_to_session_bare : pool.bare.user_to_session = pool.user_to_session := rfl

@[simp] theorem max_connections_bare : pool.bare.max_connections = pool.max_connections := rfl

@[simp] theorem findByUserId_bare : pool.bare.findByUserId user = pool.findByUserId user := rfl

theorem bare_setUserId :
    (pool.setUserId session user).bare = pool.bare.setUserId session user := by
  simp only [bare, setUserId, setObject, SessionPool.mk.injEq, true_and]
  funext t
  simp only [userId, Function.update_apply]
  split
  · rfl
  · rfl

/-- A change of an object that keeps its user. -/
theorem bare_setObject {s : AsyncSession} (h : s.user_id = pool.userId session) :
    (pool.setObject session s).bare = pool.bare := by
  simp only [bare, setObject, SessionPool.mk.injEq, true_and]
  funext t
  simp only [userId, Function.update_apply]
  split
  · next ht => rw [h, ht, userId]
  · rfl

theorem bare_bindUser : (pool.bindUser session user).2.bare = (pool.bare.bindUser session user).2 := by
  by_cases hrefused : session ∉ pool.sessions ∨ user ≤ 0
  · rw [bindUser_of_refused pool session user hrefused, bindUser_of_refused pool.bare session user hrefused]
  · have hobject : ((pool.setUserId session user).bare).object =
        (pool.bare.setUserId session user).object := by rw [bare_setUserId]
    by_cases h0 : pool.userId session = 0
    · simp only [bindUser, sessions_bare, userId_bare, hrefused, h0, ne_eq, not_true, if_false]
      simp only [bare, SessionPool.mk.injEq]
      exact ⟨rfl, rfl, rfl, hobject⟩
    · simp only [bindUser, sessions_bare, userId_bare, hrefused, h0, ne_eq, not_false_iff, if_true,
        if_false]
      simp only [bare, SessionPool.mk.injEq]
      exact ⟨rfl, rfl, rfl, hobject⟩

theorem bare_unbindUser : (pool.unbindUser user).bare = pool.bare.unbindUser user := by
  cases hi : pool.user_to_session user with
  | none => rw [unbindUser_of_none pool user hi, unbindUser_of_none pool.bare user hi]
  | some session =>
    by_cases hs : session ∈ pool.sessions
    · rw [unbindUser_of_some hi hs, @unbindUser_of_some pool.bare _ _ hi hs, ← bare_setUserId]
      rfl
    · simp [unbindUser, hi, findSession, hs]
      rfl

theorem bare_remove : (pool.remove session).bare = pool.bare.remove session := by
  by_cases h : session ∈ pool.sessions ∧ pool.userId session ≠ 0
  · have h' : session ∈ pool.bare.sessions ∧ pool.bare.userId session ≠ 0 := h
    simp only [remove, if_pos h, if_pos h']
    rfl
  · have h' : ¬(session ∈ pool.bare.sessions ∧ pool.bare.userId session ≠ 0) := h
    simp only [remove, if_neg h, if_neg h']
    rfl

theorem bare_add : (pool.add session).2.bare = (pool.bare.add session).2 := by
  by_cases hfull : pool.max_connections ≤ pool.sessions.length
  · simp [add, hfull]
  by_cases hmem : session ∈ pool.sessions
  · simp [add, hfull, hmem]
  · simp [add, hfull, hmem]
    rfl

end Bare

theorem indexed_bare {pool : SessionPool} : Indexed pool.bare ↔ Indexed pool :=
  ⟨fun h => ⟨h.nodup, h.sound, h.positive, h.nonneg⟩,
    fun h => ⟨h.nodup, h.sound, h.positive, h.nonneg⟩⟩

end SessionPool

/-- The sessions by user, the users that are online, and the next session id. -/
structure Roster where
  pool : SessionPool
  presence : PresenceManager
  next_id : SessionId

/-- The roster of the server. -/
def Server.roster (st : Server) : Roster := ⟨st.pool.bare, st.presence, st.next_id⟩

theorem Server.userId_of_roster {st st' : Server} (h : st'.roster = st.roster) (session : SessionId) :
    st'.userId session = st.userId session :=
  congrArg (fun r : Roster => r.pool.userId session) h

namespace Roster

/-! ## Operations -/

/-- An accepted login. -/
def login (r : Roster) (session : SessionId) (uid : Int32) : Roster :=
  { r with pool := (r.pool.bindUser session uid).2, presence := r.presence.setOnline uid }

def logout (r : Roster) (session : SessionId) : Roster :=
  let uid := r.pool.userId session
  if 0 < uid then { r with pool := r.pool.unbindUser uid, presence := r.presence.setOffline uid }
  else r

/-- `TcpServer::removeSession`. -/
def remove (r : Roster) (session : SessionId) : Roster :=
  let uid := if session ∈ r.pool.sessions then r.pool.userId session else 0
  { r with
    pool := r.pool.remove session
    presence := if 0 < uid then r.presence.setOffline uid else r.presence }

/-- A new session, not logged in. -/
def accept (r : Roster) : Roster :=
  { r with pool := ((r.pool.setUserId r.next_id 0).add r.next_id).2, next_id := r.next_id + 1 }

end Roster

namespace MessageRouter

/-! ## The router at a fixed roster -/

/-- The server has this roster, and its database meets `F`. -/
def At (ρ : Roster) (F : Database → Prop) (st : Server) : Prop := st.roster = ρ ∧ F st.db

theorem at_self (st : Server) : At st.roster (fun db => db = st.db) st := ⟨rfl, rfl⟩

section Triples

variable {α : Type} {ρ : Roster} {F : Database → Prop} {W : Delivery → Prop}

theorem sat_onDb {c : DbM α} {G : α → Database → Prop}
    (h : Cmd.Sat F c G (fun _ _ => True) fun _ => True) :
    Cmd.Sat (At ρ F) (onDb c) (fun a => At ρ (G a)) (fun _ _ => True) W := by
  refine Cmd.sat_zoom fun st hst db hdb => ?_
  subst hdb
  obtain ⟨-, hok, -⟩ := h st.db hst.2
  exact ⟨fun w => w.elim, fun a ha => ⟨hst.1, hok a ha⟩, fun _ _ => trivial⟩

theorem sat_onDb_any {α : Type} {W : Delivery → Prop} (c : DbM α) :
    Cmd.Sat (At ρ F) (onDb c) (fun _ => At ρ fun _ => True) (fun _ _ => True) W :=
  sat_onDb (Cmd.sat_true c)

/-- What a repository call from a known database returns and leaves. -/
theorem sat_onDb_exact {α : Type} {W : Delivery → Prop} (c : DbM α) (db : Database) :
    Cmd.Sat (At ρ fun d => d = db) (onDb c)
      (fun a st => (c db).result = .ok a ∧ At ρ (fun d => d = (c db).state) st)
      (fun _ _ => True) W := by
  rintro st ⟨hρ, rfl⟩
  exact ⟨by simp [onDb], fun a ha => ⟨ha, hρ, rfl⟩, fun _ _ => trivial⟩

/-- A fact that does not depend on the database. -/
theorem sat_of_at_fact {α : Type} {φ : Prop} {c : RouterM α} {Q : α → Server → Prop}
    {E : Exn → Server → Prop} {W : Delivery → Prop}
    (h : φ → Cmd.Sat (At ρ fun _ => True) c Q E W) : Cmd.Sat (At ρ fun _ => φ) c Q E W :=
  (Cmd.Sat.of_fact h).pre fun _ hst => ⟨hst.2, hst.1, trivial⟩

theorem andAlso_onDb (b : Prop) [Decidable b] (c : DbM Bool) :
    Cmd.andAlso b (onDb c) = onDb (Cmd.andAlso b c) := by
  unfold Cmd.andAlso
  split <;> rfl

/-- The result of a change is true only when its guard holds. -/
theorem sat_andAlso_onDb {b : Prop} [Decidable b] {c : DbM Bool} {W : Delivery → Prop} :
    Cmd.Sat (At ρ F) (Cmd.andAlso b (onDb c)) (fun ok => At ρ fun _ => ok = true → b)
      (fun _ _ => True) W :=
  Cmd.sat_andAlso (fun hb => (sat_onDb_any c).post fun _ _ h => ⟨h.1, fun _ => hb⟩)
    fun _ _ h => ⟨h.1, nofun⟩

theorem roster_setObject (st : Server) {session : SessionId} {s : AsyncSession}
    (h : s.user_id = st.userId session) :
    ({ st with pool := st.pool.setObject session s } : Server).roster = st.roster := by
  simp only [Server.roster]
  rw [st.pool.bare_setObject session h]

theorem mem_out_deliverContent (session : SessionId) (payload : Object)
    (carries : Server → List StoredMessage) (st : Server) :
    ⟨session, payload, carries st, st⟩ ∈ (deliverContent session payload carries st).out := by
  simp only [deliverContent]
  split <;> simp

/-- A payload that fits a frame is delivered. -/
theorem result_deliverContent {payload : Object}
    (h : (serialize payload).length ≤ FrameCodec.MaxFrameBytes) (session : SessionId)
    (carries : Server → List StoredMessage) (st : Server) :
    (deliverContent session payload carries st).result = .ok () := by
  simp only [deliverContent]
  split
  · rfl
  · next e he => exact absurd h (Nat.not_le.mpr (AsyncSession.deliver_error he))

/-- A delivery that returns has put the payload into a frame. -/
theorem sat_deliverContent_fits {session : SessionId} {payload : Object}
    {carries : Server → List StoredMessage}
    (h : ∀ st, At ρ F st → W ⟨session, payload, carries st, st⟩) :
    Cmd.Sat (At ρ F) (deliverContent session payload carries)
      (fun _ st => (serialize payload).length ≤ FrameCodec.MaxFrameBytes ∧ At ρ F st)
      (fun _ _ => True) W := by
  intro st hst
  simp only [deliverContent]
  split
  · next s hs =>
    obtain ⟨hfits, huser⟩ := AsyncSession.deliver_ok hs
    exact ⟨by simpa using h st hst,
      fun _ _ => ⟨hfits, (roster_setObject st huser).trans hst.1, hst.2⟩, fun _ _ => trivial⟩
  · exact ⟨by simpa using h st hst, nofun, fun _ _ => trivial⟩

theorem sat_deliverContent {session : SessionId} {payload : Object}
    {carries : Server → List StoredMessage}
    (h : ∀ st, At ρ F st → W ⟨session, payload, carries st, st⟩) :
    Cmd.Sat (At ρ F) (deliverContent session payload carries) (fun _ => At ρ F)
      (fun _ _ => True) W :=
  (sat_deliverContent_fits h).post fun _ _ hst => hst.2

theorem sat_deliver {session : SessionId} {payload : Object}
    (h : ∀ st, At ρ F st → W ⟨session, payload, [], st⟩) :
    Cmd.Sat (At ρ F) (deliver session payload) (fun _ => At ρ F) (fun _ _ => True) W :=
  sat_deliverContent h

theorem sat_findByUserId {user : Int32} :
    Cmd.Sat (At ρ F) (findByUserId user)
      (fun target st => target = ρ.pool.findByUserId user ∧ At ρ F st) (fun _ _ => True) W :=
  Cmd.sat_asks fun st hst => ⟨by rw [← hst.1]; rfl, hst⟩

theorem sat_deliverIfFound {target : Option SessionId} {payload : Object}
    {carries : Server → List StoredMessage} {W : Delivery → Prop}
    (h : ∀ t st', target = some t → At ρ F st' → W ⟨t, payload, carries st', st'⟩) :
    Cmd.Sat (At ρ F) (deliverIfFound target payload carries) (fun _ => At ρ F)
      (fun _ _ => True) W := by
  cases target with
  | none => exact Cmd.sat_pure fun _ hst => hst
  | some t => exact sat_deliverContent fun st' hst => h t st' rfl hst

theorem sat_deliverToUser {user : Int32} {payload : Object} {carries : Server → List StoredMessage}
    (h : ∀ target st, ρ.pool.findByUserId user = some target → At ρ F st →
      W ⟨target, payload, carries st, st⟩) :
    Cmd.Sat (At ρ F) (deliverToUser user payload carries) (fun _ => At ρ F)
      (fun _ _ => True) W := by
  refine sat_findByUserId.bind fun target => Cmd.Sat.of_fact fun htarget => ?_
  cases target with
  | none => exact Cmd.sat_pure fun _ hst => hst
  | some target => exact sat_deliverContent fun st hst => h target st htarget.symm hst

/-- A session without a user has the user 0. -/
theorem run_authenticatedUserId (st : Server) (session : SessionId) :
    authenticatedUserId session st = ⟨.ok (st.userId session), st, []⟩ := by
  unfold authenticatedUserId
  by_cases h0 : (st.pool.object session).user_id = 0
  · simp [AsyncSession.authenticated, Server.userId, SessionPool.userId, h0]
  · simp [AsyncSession.authenticated, h0]

theorem sat_authenticatedUserId {session : SessionId} :
    Cmd.Sat (At ρ F) (authenticatedUserId session)
      (fun uid st => uid = ρ.pool.userId session ∧ At ρ F st) (fun _ _ => True) W := by
  intro st hst
  rw [run_authenticatedUserId]
  refine ⟨by simp, fun uid huid => ⟨?_, hst⟩, fun _ _ => trivial⟩
  cases huid
  rw [← hst.1]
  rfl

theorem sat_modifyPresence {f : PresenceManager → PresenceManager} {W : Delivery → Prop} :
    Cmd.Sat (At ρ F) (modifyPresence f) (fun _ => At { ρ with presence := f ρ.presence } F)
      (fun _ _ => True) W :=
  Cmd.sat_modify fun t ht => ⟨by rw [← ht.1]; rfl, ht.2⟩

theorem sat_modifyPool {f : SessionPool → SessionPool} {W : Delivery → Prop} (pool : SessionPool)
    (h : ∀ t, At ρ F t → (f t.pool).bare = pool) :
    Cmd.Sat (At ρ F) (modifyPool f) (fun _ => At { ρ with pool := pool } F) (fun _ _ => True) W :=
  Cmd.sat_modify fun t ht => ⟨by rw [← h t ht, ← ht.1]; rfl, ht.2⟩

end Triples

end MessageRouter

end LanChat
