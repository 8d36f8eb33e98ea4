import LanChat.Server.Routing
import LanChat.Server.TcpServer

/-!
# The roster in a step of the server

`roster_step`: a step that the server completes changes the roster as
`rosterOf` says, which reads off the event what happens to the roster. In every
reachable state the index of the pool is sound, and the ids of the pool's
sessions have been handed out (`kept_of_run`).
-/

namespace LanChat

open Lib Json

namespace TcpServer

open MessageRouter

variable (env : Env)

/-- The roster after an event that the server completes. -/
def rosterOf (st : Server) : Event → Roster
  | .accept _ => st.roster.accept
  | .frame session json now _ =>
    if !(st.pool.object session).reading then st.roster
    else if !((st.pool.object session).consumeRateLimitToken now).1 then st.roster.remove session
    else
      match readObject json with
      | none => st.roster
      | some request => rosterAfter env st session request
  | .readError session =>
    if (st.pool.object session).reading then st.roster.remove session else st.roster
  | .sweep now => (st.pool.timedOut env now).foldl Roster.remove st.roster

section Triples

variable {env} {ρ : Roster} {F : Database → Prop} {W : Delivery → Prop}

/-- A change of a session object that keeps its user. -/
theorem sat_modifySession {session : SessionId} {f : AsyncSession → AsyncSession}
    (h : ∀ s, (f s).user_id = s.user_id) :
    Cmd.Sat (At ρ F) (modifySession session f) (fun _ => At ρ F) (fun _ _ => True) W :=
  (sat_modifyPool ρ.pool fun t ht => by
    rw [t.pool.bare_setObject session (h _)]
    exact congrArg Roster.pool ht.1)

theorem sat_broadcast {payload : Object} {exclude : SessionId} :
    Cmd.Sat (At ρ F) (broadcast env payload exclude) (fun _ => At ρ F) (fun _ _ => True)
      fun _ => True :=
  (Cmd.sat_asks (f := fun st => st.pool.all env) (Q := fun _ => At ρ F) fun _ h => h).bind
    fun _ => Cmd.sat_each fun _ _ => sat_deliver fun _ _ => trivial

theorem sat_markOfflineAndBroadcast {uid : Int32} :
    Cmd.Sat (At ρ F) (markOfflineAndBroadcast env uid)
      (fun _ => At { ρ with presence := ρ.presence.setOffline uid } fun _ => True)
      (fun _ _ => True) fun _ => True := by
  refine sat_modifyPresence.bind fun _ => (sat_onDb_any _).bind fun _ =>
    (sat_onDb_any _).bind fun user => ?_
  cases user with
  | none => exact Cmd.sat_pure fun _ h => h
  | some user => exact sat_broadcast

theorem sat_removeSession {session : SessionId} :
    Cmd.Sat (At ρ F) (removeSession env session) (fun _ => At (ρ.remove session) fun _ => True)
      (fun _ _ => True) fun _ => True := by
  have huid : ∀ t, At ρ F t → (if session ∈ t.pool.sessions then t.userId session else 0) =
      if session ∈ ρ.pool.sessions then ρ.pool.userId session else 0 := by
    intro t ht
    rw [← ht.1]
    rfl
  refine (Cmd.sat_asks (Q := fun uid t =>
    (uid = if session ∈ ρ.pool.sessions then ρ.pool.userId session else 0) ∧ At ρ F t)
      fun t ht => ⟨huid t ht, ht⟩).bind fun uid => Cmd.Sat.of_fact fun h => ?_
  subst h
  refine (sat_modifyPool (ρ.pool.remove session) fun t ht => ?_).bind fun _ => ?_
  · rw [SessionPool.bare_remove]
    exact congrArg (fun r : Roster => r.pool.remove session) ht.1
  · refine Cmd.sat_ite (fun hpos => ?_) fun hpos => Cmd.sat_pure fun t ht => ⟨?_, trivial⟩
    · refine sat_markOfflineAndBroadcast.post fun _ t ht => ⟨ht.1.trans ?_, trivial⟩
      simp only [Roster.remove, if_pos hpos]
    · rw [ht.1]
      simp only [Roster.remove, if_neg hpos]

theorem sat_removeSessions (sessions : List SessionId) :
    Cmd.Sat (At ρ F) (Cmd.each sessions (removeSession env))
      (fun _ => At (sessions.foldl Roster.remove ρ) fun _ => True) (fun _ _ => True)
      fun _ => True := by
  induction sessions generalizing ρ F with
  | nil => exact Cmd.sat_pure fun _ h => ⟨h.1, trivial⟩
  | cons session sessions ih => exact sat_removeSession.bind fun _ => ih

theorem sat_accept {now : Int} :
    Cmd.Sat (At ρ F) (accept now) (fun _ => At ρ.accept F) (fun _ _ => True) fun _ => True := by
  refine (Cmd.sat_asks (f := fun st : Server => st.next_id)
    (Q := fun id t => id = ρ.next_id ∧ At ρ F t) fun t ht =>
      ⟨congrArg Roster.next_id ht.1, ht⟩).bind fun id => Cmd.Sat.of_fact fun hid => ?_
  subst hid
  refine (Cmd.sat_modify (Q := fun _ => At { ρ with next_id := ρ.next_id + 1 } F)
    fun t ht => ⟨by rw [← ht.1]; rfl, ht.2⟩).bind fun _ => ?_
  have hconstruct : ∀ t : Server, At { ρ with next_id := ρ.next_id + 1 } F t →
      (t.pool.setObject ρ.next_id (.construct now)).bare = ρ.pool.setUserId ρ.next_id 0 := by
    intro t ht
    have hbare : t.pool.bare = ρ.pool := congrArg Roster.pool ht.1
    have hsame := (t.pool.setUserId ρ.next_id 0).bare_setObject ρ.next_id
      (s := AsyncSession.construct now) (by simp [AsyncSession.construct])
    rw [← hbare, ← SessionPool.bare_setUserId, ← hsame]
    simp [SessionPool.setUserId, SessionPool.setObject]
  refine (sat_modifyPool _ hconstruct).bind fun _ => ?_
  refine (Cmd.sat_asks (f := fun st : Server => (st.pool.add ρ.next_id).1)
    (Q := fun _ => At _ F) fun _ h => h).bind fun added => ?_
  refine (sat_modifyPool ((ρ.pool.setUserId ρ.next_id 0).add ρ.next_id).2
    fun t ht => ?_).bind fun _ => ?_
  · rw [SessionPool.bare_add]
    exact congrArg (fun r : Roster => (r.pool.add ρ.next_id).2) ht.1
  · exact Cmd.sat_ite (fun _ => sat_modifySession fun _ => rfl) fun _ => Cmd.sat_pure fun _ h => h

/-- Routing a text: nothing but a login or a logout changes the roster. -/
theorem sat_route (st : Server) (session : SessionId) (json : Bytes) :
    Cmd.Sat (At st.roster fun db => db = st.db) (route env session json)
      (fun _ t => t.roster = match readObject json with
        | none => st.roster
        | some request => rosterAfter env st session request)
      (fun _ _ => True) fun _ => True := by
  obtain ⟨-, -, hroute⟩ | ⟨-, -, hread, hroute⟩ | ⟨request, -, -, hread, hroute⟩ := route_cases env session json
  · rw [hroute]
    exact Cmd.sat_throw fun _ _ => trivial
  · rw [hroute, hread]
    exact (sat_deliver fun _ _ => trivial).post fun _ _ h => h.1
  · rw [hroute, hread]
    exact (sat_dispatch env st session request).weaken (fun _ h => h) (fun _ _ h => h)
      (fun _ _ h => h) fun _ _ => trivial

theorem sat_onMessage (st : Server) (session : SessionId) (json : Bytes) (now later : Int) :
    Cmd.Sat (fun t => t = st) (onMessage env session json now later)
      (fun _ t => t.roster =
        if !((st.pool.object session).consumeRateLimitToken now).1 then st.roster.remove session
        else
          match readObject json with
          | none => st.roster
          | some request => rosterAfter env st session request)
      (fun _ _ => True) fun _ => True := by
  refine (Cmd.sat_asks (Q := fun granted t =>
    granted = ((st.pool.object session).consumeRateLimitToken now).1 ∧
      At st.roster (fun db => db = st.db) t) fun t ht => ?_).bind fun granted =>
        Cmd.Sat.of_fact fun hgranted => ?_
  · subst ht
    exact ⟨rfl, at_self t⟩
  subst hgranted
  refine (sat_modifySession fun s => s.consumeRateLimitToken_user_id now).bind fun _ =>
    Cmd.sat_ite (fun hrefused => ?_) fun hgranted => ?_
  · rw [if_pos hrefused]
    exact sat_removeSession.post fun _ _ h => h.1
  rw [if_neg hgranted]
  refine Cmd.sat_ite (fun hheartbeat => ?_) fun _ => sat_route st session json
  obtain ⟨request, hrequest, htype⟩ := Option.bind_eq_some_iff.mp hheartbeat
  simp only [readObject_of_parseObject hrequest]
  rw [rosterAfter_of_ne (by simp [htype]) (by simp [htype])]
  exact (sat_modifySession (f := AsyncSession.heartbeatReceived later) fun _ => rfl).bind fun _ =>
    (sat_deliver (W := fun _ => True) fun _ _ => trivial).post fun _ _ h => h.1

theorem sat_handle (st : Server) (event : Event) :
    Cmd.Sat (fun t => t = st) (handle env event) (fun _ t => t.roster = rosterOf env st event)
      (fun _ _ => True) fun _ => True := by
  have hself : ∀ t, t = st → At st.roster (fun _ => True) t := fun t ht => ht ▸ ⟨rfl, trivial⟩
  have hread : ∀ session, Cmd.Sat (fun t => t = st)
      (Cmd.asks fun t : Server => (t.pool.object session).reading)
      (fun reading t => reading = (st.pool.object session).reading ∧ t = st)
      (fun (_ : Exn) _ => True) fun _ : Delivery => True :=
    fun session => Cmd.sat_asks fun t ht => ⟨by rw [ht], ht⟩
  cases event with
  | accept now => exact (sat_accept.pre hself).post fun _ _ h => h.1
  | frame session json now later =>
    simp only [handle, rosterOf]
    refine (hread session).bind fun reading => Cmd.Sat.of_fact fun hreading => ?_
    subst hreading
    refine Cmd.sat_ite (fun hreading => ?_) fun hreading => Cmd.sat_pure fun t ht => ?_
    · rw [if_neg (by simp [hreading])]
      exact sat_onMessage st session json now later
    · rw [if_pos (by simpa using hreading), ht]
  | readError session =>
    simp only [handle, rosterOf]
    refine (hread session).bind fun reading => Cmd.Sat.of_fact fun hreading => ?_
    subst hreading
    refine Cmd.sat_ite (fun hreading => ?_) fun hreading => Cmd.sat_pure fun t ht => ?_
    · rw [if_pos hreading]
      exact ((sat_modifySession (f := AsyncSession.stopReading) fun _ => rfl).bind fun _ =>
        sat_removeSession.post fun _ _ h => h.1).pre hself
    · rw [if_neg hreading, ht]
  | sweep now =>
    simp only [handle, rosterOf]
    refine (Cmd.sat_asks (Q := fun timedOut t => timedOut = st.pool.timedOut env now ∧
      At st.roster (fun _ => True) t) fun t ht => ⟨by rw [ht], hself t ht⟩).bind
        fun timedOut => Cmd.Sat.of_fact fun htimedOut => ?_
    subst htimedOut
    exact (sat_removeSessions _).post fun _ _ h => h.1

end Triples

/-- A completed step, on rosters. -/
theorem roster_step {env : Env} {st st' : Server} {event : Event}
    (h : step env st event = some st') : st'.roster = rosterOf env st event := by
  unfold step at h
  split at h
  · next hok =>
    cases h
    exact ((sat_handle st event) st rfl).2.1 () hok
  · cases h

/-! ## What every reachable state keeps -/

/-- The index of the pool is sound, and every pooled session has an id that has
been handed out. -/
structure Kept (r : Roster) : Prop where
  indexed : r.pool.Indexed
  fresh : ∀ session ∈ r.pool.sessions, session < r.next_id

theorem kept_start (db : Database) : Kept (Server.start db).roster where
  indexed := SessionPool.indexed_bare.mpr (SessionPool.indexed_create 500)
  fresh := by simp [Server.start, Server.roster, SessionPool.create]

theorem Kept.login {r : Roster} (h : Kept r) (session : SessionId) (uid : Int32) :
    Kept (r.login session uid) where
  indexed := h.indexed.bindUser session uid
  fresh s hs := by
    simp only [Roster.login, SessionPool.sessions_bindUser] at hs
    exact h.fresh s hs

theorem Kept.logout {r : Roster} (h : Kept r) (session : SessionId) : Kept (r.logout session) := by
  simp only [Roster.logout]
  split
  · refine ⟨h.indexed.unbindUser _, fun s hs => ?_⟩
    simp only [SessionPool.sessions_unbindUser] at hs
    exact h.fresh s hs
  · exact h

theorem Kept.remove {r : Roster} (h : Kept r) (session : SessionId) : Kept (r.remove session) where
  indexed := h.indexed.remove session
  fresh s hs := by
    simp only [Roster.remove, SessionPool.sessions_remove] at hs
    exact h.fresh s (List.mem_of_mem_erase hs)

theorem Kept.accept {r : Roster} (h : Kept r) : Kept r.accept where
  indexed := by
    have hnew : r.next_id ∉ r.pool.sessions := fun hmem => Nat.lt_irrefl _ (h.fresh _ hmem)
    exact (h.indexed.setUserId hnew (Int32.le_refl 0)).add r.next_id
  fresh s hs := by
    rcases SessionPool.mem_sessions_add hs with rfl | hs
    · exact Nat.lt_succ_self _
    · exact Nat.lt_succ_of_lt (h.fresh s hs)

theorem Kept.rosterAfter {env : Env} {st : Server} (h : Kept st.roster) (session : SessionId)
    (request : Object) : Kept (MessageRouter.rosterAfter env st session request) := by
  unfold MessageRouter.rosterAfter
  split
  · split
    · exact h.login session _
    · exact h
  · exact h.logout session
  · exact h

theorem Kept.removeAll {r : Roster} (h : Kept r) (sessions : List SessionId) :
    Kept (sessions.foldl Roster.remove r) := by
  induction sessions generalizing r with
  | nil => exact h
  | cons session sessions ih => exact ih (h.remove session)

theorem Kept.step {env : Env} {st st' : Server} {event : Event} (h : Kept st.roster)
    (hstep : step env st event = some st') : Kept st'.roster := by
  rw [roster_step hstep]
  cases event with
  | accept now => exact h.accept
  | frame session json now later =>
    simp only [rosterOf]
    split
    · exact h
    · split
      · exact h.remove session
      · split
        · exact h
        · exact h.rosterAfter session _
  | readError session =>
    simp only [rosterOf]
    split
    · exact h.remove session
    · exact h
  | sweep now => exact h.removeAll _

theorem kept_of_run {env : Env} {db : Database} {events : List Event} {st : Server}
    (hrun : run (step env) (.start db) events = some st) : Kept st.roster :=
  invariant_run (I := fun st => Kept st.roster) (fun _ _ _ h hstep => h.step hstep) (kept_start db)
    hrun

end TcpServer

end LanChat
