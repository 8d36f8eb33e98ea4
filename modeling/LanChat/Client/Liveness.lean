import LanChat.Client.Requests
import LanChat.Server.Access
import LanChat.Server.Accesses
import LanChat.Server.LoginState

/-!
# How long the server keeps a client

The server notes when it last heard a heartbeat of a session, and closes the
sessions of which it has not heard one for 90 seconds. This client sends no
heartbeats (`Request`), so its session is closed by the first sweep that comes
more than 90 seconds after its start, whatever else it sends.
-/

namespace LanChat

open Lib Json

namespace Client

/-- What the server handles while the client is its session: a request of the
client, as soon as it is sent, or anything but a frame of this session. -/
inductive Happening (session : SessionId) where
  | sends (r : Request) (now later : Int)
  | server (event : TcpServer.Event) (h : ∀ json now later, event ≠ .frame session json now later)

variable {session : SessionId}

def Happening.event : Happening session → TcpServer.Event
  | sends r now later => .frame session r.json now later
  | server event _ => event

/-- One step of the server, and of the client. -/
def step (env : Env) (st : Server) (h : Happening session) : Option Server := TcpServer.step env st h.event

/-- A sweep does not close the session. -/
def NotReaped (st : Server) (h : Happening session) (st' : Server) : Prop :=
  ∀ now, h.event = .sweep now → session ∈ st.pool.sessions → session ∈ st'.pool.sessions

/-- A sweep comes at most 90 seconds after the start of the session. -/
def SweptInTime (start : Int) (st : Server) (h : Happening session) : Prop :=
  ∀ now, h.event = .sweep now → session ∈ st.pool.sessions → now - start ≤ 90 * AsyncSession.second

/-! ## What the server remembers of the session -/

section Heartbeat

open MessageRouter TcpServer

variable {env : Env} {st st' : Server}

/-- When the server last heard a heartbeat of the session. -/
def lastHeartbeat (session : SessionId) (st : Server) : Int := (st.pool.object session).last_heartbeat

theorem object_setObject_self (pool : SessionPool) (t : SessionId) (s : AsyncSession) :
    (pool.setObject t s).object t = s := by
  simp [SessionPool.setObject]

theorem lastHeartbeat_setObject {t : SessionId} {s : AsyncSession}
    (h : t = session → s.last_heartbeat = lastHeartbeat session st) :
    lastHeartbeat session { st with pool := st.pool.setObject t s } = lastHeartbeat session st := by
  show (Function.update st.pool.object t s session).last_heartbeat = lastHeartbeat session st
  rcases eq_or_ne t session with rfl | hne
  · rw [Function.update_self]
    exact h rfl
  · rw [Function.update_of_ne hne.symm]
    rfl

theorem lastHeartbeat_setUserId (t : SessionId) (user : Int32) :
    lastHeartbeat session { st with pool := st.pool.setUserId t user } = lastHeartbeat session st :=
  lastHeartbeat_setObject fun h => h ▸ rfl

theorem last_heartbeat_deliver {s s' : AsyncSession} {json : Bytes} (h : s.deliver json = .ok s') :
    s'.last_heartbeat = s.last_heartbeat := by
  unfold AsyncSession.deliver at h
  split at h
  · cases h
  · cases h
    rfl

theorem last_heartbeat_consumeRateLimitToken (now : Int) (s : AsyncSession) :
    (s.consumeRateLimitToken now).2.last_heartbeat = s.last_heartbeat := by
  unfold AsyncSession.consumeRateLimitToken
  split <;> rfl

/-- No request touches it. -/
theorem untouched_lastHeartbeat : Accesses.Untouched fun st => (lastHeartbeat session st, st.next_id) where
  db _ _ := rfl
  presence _ _ := rfl
  bindUser st t uid := by
    unfold SessionPool.bindUser
    split
    · rfl
    · have hset : lastHeartbeat session { st with pool := st.pool.setUserId t uid } = lastHeartbeat session st :=
        lastHeartbeat_setUserId t uid
      split <;> exact congrArg (·, st.next_id) hset
  unbindUser st uid := by
    unfold SessionPool.unbindUser
    split
    · rfl
    · split
      · rfl
      · next t _ => exact congrArg (·, st.next_id) (lastHeartbeat_setUserId t 0)
  deliver st t json s hs :=
    congrArg (·, st.next_id) (lastHeartbeat_setObject fun h => h ▸ last_heartbeat_deliver hs)

theorem leaves_modifySession {t : SessionId} {f : AsyncSession → AsyncSession}
    (h : ∀ s, (f s).last_heartbeat = s.last_heartbeat) :
    Cmd.Leaves (fun st => (lastHeartbeat session st, st.next_id)) (modifySession t f) := fun st =>
  congrArg (·, st.next_id) (lastHeartbeat_setObject fun ht => ht ▸ h _)

theorem leaves_remove (t : SessionId) :
    Cmd.Leaves (fun st => (lastHeartbeat session st, st.next_id)) (removeSession env t) :=
  leaves_removeSession untouched_lastHeartbeat (fun st t => by
    unfold SessionPool.remove
    split <;> rfl) t

/-- A frame that is no heartbeat of the session leaves it. -/
theorem leaves_onMessage {t : SessionId} {json : Bytes} {now later : Int}
    (h : t = session → (readObject json).bind typeField ≠ some .Heartbeat) :
    Cmd.Leaves (fun st => (lastHeartbeat session st, st.next_id)) (onMessage env t json now later) := by
  refine Cmd.leaves_bind (Cmd.leaves_asks _) fun granted =>
    Cmd.leaves_bind (leaves_modifySession (last_heartbeat_consumeRateLimitToken now)) fun _ => ?_
  refine Cmd.leaves_ite (leaves_remove t) ?_
  split
  · next hheartbeat =>
    refine Cmd.leaves_bind (fun st => ?_) fun _ =>
      (Accesses.deliver t _ : Accesses env _).leaves untouched_lastHeartbeat
    exact congrArg (·, st.next_id) (lastHeartbeat_setObject fun ht => absurd (bind_readObject hheartbeat) (h ht))
  · exact route_rule env (Cmd.leaves_throw _)
      ((Accesses.deliver t _ : Accesses env _).leaves untouched_lastHeartbeat)
      fun request _ => leaves_dispatch untouched_lastHeartbeat t request

theorem leaves_handle {event : TcpServer.Event} (haccept : ∀ now, event ≠ .accept now)
    (hframe : ∀ json now later, event = .frame session json now later →
      (readObject json).bind typeField ≠ some .Heartbeat) :
    Cmd.Leaves (fun st => (lastHeartbeat session st, st.next_id)) (handle env event) := by
  cases event with
  | accept now => exact absurd rfl (haccept now)
  | frame t json now later =>
    exact Cmd.leaves_bind (Cmd.leaves_asks _) fun _ =>
      Cmd.leaves_ite (leaves_onMessage fun ht => hframe json now later (by rw [ht])) (Cmd.leaves_pure ())
  | readError t =>
    refine Cmd.leaves_bind (Cmd.leaves_asks _) fun _ => Cmd.leaves_ite ?_ (Cmd.leaves_pure ())
    exact Cmd.leaves_bind (leaves_modifySession fun _ => rfl) fun _ => leaves_remove t
  | sweep now =>
    exact Cmd.leaves_bind (Cmd.leaves_asks _) fun _ => Cmd.leaves_each fun t => leaves_remove t

/-- An accepted connection is a session that starts now. -/
theorem lastHeartbeat_accept_new (now : Int) (st : Server) :
    lastHeartbeat st.next_id (accept now st).state = now := by
  have hadd : ∀ pool : SessionPool, (pool.add st.next_id).2.object = pool.object := fun pool => by
    unfold SessionPool.add
    split
    · rfl
    · split <;> rfl
  unfold accept modifyPool
  rw [Cmd.bind_of_run _ (Cmd.asks_apply ..), Cmd.bind_of_run _ (Cmd.modify_apply ..),
    Cmd.bind_of_run _ (run_modifySession ..), Cmd.bind_of_run _ (Cmd.asks_apply ..),
    Cmd.bind_of_run _ (Cmd.modify_apply ..)]
  split
  · rw [run_modifySession, lastHeartbeat, object_setObject_self]
    rfl
  · show ((SessionPool.add _ st.next_id).2.object st.next_id).last_heartbeat = now
    rw [hadd, object_setObject_self]
    rfl

/-- It does not touch the sessions before it. -/
theorem lastHeartbeat_accept (now : Int) (st : Server) (hnew : session ≠ st.next_id) :
    lastHeartbeat session (accept now st).state = lastHeartbeat session st := by
  have hother : ∀ f, Cmd.Leaves (lastHeartbeat session) (modifySession st.next_id f) := fun f st' =>
    lastHeartbeat_setObject fun h => absurd h.symm hnew
  unfold accept
  rw [Cmd.bind_of_run _ (Cmd.asks_apply ..)]
  refine Cmd.leaves_bind (fun _ => rfl) (fun _ => ?_) st
  refine Cmd.leaves_bind (hother _) fun _ => Cmd.leaves_bind (Cmd.leaves_asks _) fun added =>
    Cmd.leaves_bind (fun st' => ?_) fun _ => Cmd.leaves_ite (hother _) (Cmd.leaves_pure ())
  show ((st'.pool.add st.next_id).2.object session).last_heartbeat = _
  unfold SessionPool.add
  split
  · rfl
  · split <;> rfl

end Heartbeat

/-! ## Runs -/

section Runs

open TcpServer

variable {env : Env} {start : Int} {st st' : Server}

/-- The session has been accepted at `start`, and no heartbeat of it since. -/
structure Silent (session : SessionId) (start : Int) (st : Server) : Prop where
  kept : Kept st.roster
  old : session < st.next_id
  heard : lastHeartbeat session st = start

/-- The client sends everything but heartbeats. -/
theorem Request.type_ne_heartbeat (r : Request) : r.type ≠ .Heartbeat := by
  cases r with
  | respondToRequest _ _ accept => cases accept <;> exact fun h => nomatch h
  | _ => exact fun h => nomatch h

theorem Silent.step {h : Happening session} (hst : Silent session start st)
    (hstep : Client.step env st h = some st') : Silent session start st' := by
  have hkept := hst.kept.step hstep
  rcases em (∃ now, h.event = .accept now) with ⟨now, hevent⟩ | hevent
  · have hroster := roster_step hstep
    have hstate := (of_step hstep).2
    rw [hevent] at hroster hstate
    have hnext : st'.next_id = st.next_id + 1 := congrArg Roster.next_id hroster
    refine ⟨hkept, hnext ▸ Nat.lt_succ_of_lt hst.old, ?_⟩
    rw [hstate]
    exact (lastHeartbeat_accept now st (Nat.ne_of_lt hst.old)).trans hst.heard
  · have hleaves : Cmd.Leaves (fun st => (lastHeartbeat session st, st.next_id)) (handle env h.event) := by
      refine leaves_handle (fun now hnow => hevent ⟨now, hnow⟩) fun json now later hframe => ?_
      cases h with
      | sends r =>
        cases hframe
        rw [r.readObject_json, Option.bind_some, r.typeField_received]
        exact fun hsome => r.type_ne_heartbeat (Option.some.inj hsome)
      | server event hother => exact absurd hframe (hother json now later)
    have hsame := hleaves st
    rw [← (of_step hstep).2, Prod.mk.injEq] at hsame
    exact ⟨hkept, hsame.2 ▸ hst.old, hsame.1.trans hst.heard⟩

/-- A sweep closes the session if and only if it started more than 90 seconds ago. -/
theorem Silent.sweep {now : Int} (hst : Silent session start st)
    (hstep : TcpServer.step env st (.sweep now) = some st') (hmem : session ∈ st.pool.sessions) :
    session ∈ st'.pool.sessions ↔ now - start ≤ 90 * AsyncSession.second := by
  have htimedOut : session ∈ st.pool.timedOut env now ↔ 90 * AsyncSession.second < now - start := by
    unfold SessionPool.timedOut
    rw [List.mem_filter, (env.order_perm _).mem_iff, AsyncSession.isTimedOut, ← hst.heard]
    simp [hmem, lastHeartbeat]
  show session ∈ st'.roster.pool.sessions ↔ _
  rw [roster_step hstep]
  show session ∈ (List.foldl Roster.remove st.roster (st.pool.timedOut env now)).pool.sessions ↔ _
  rw [Roster.mem_removeAll _ hst.kept.indexed.nodup, htimedOut, Int.not_lt]
  exact and_iff_right hmem

theorem silent_accept (hkept : Kept st.roster) (hsession : st.next_id = session)
    (haccept : TcpServer.step env st (.accept start) = some st') : Silent session start st' := by
  subst hsession
  have hroster := roster_step haccept
  have hnext : st'.next_id = st.next_id + 1 := congrArg Roster.next_id hroster
  refine ⟨hkept.step haccept, hnext ▸ Nat.lt_succ_self _, ?_⟩
  rw [(of_step haccept).2]
  exact lastHeartbeat_accept_new start st

/-- The sweeps leave the session of a client alone if and only if none comes more
than 90 seconds after its start, whatever the client sends. -/
theorem notReaped_iff_sweptInTime {db : Database} {events : List TcpServer.Event}
    (hrun : run (TcpServer.step env) (.start db) events = some st) (hsession : st.next_id = session)
    (haccept : TcpServer.step env st (.accept start) = some st') (happenings : List (Happening session)) :
    EachStep (step env) NotReaped st' happenings ↔ Along (step env) (SweptInTime start) st' happenings := by
  refine eachStep_iff_along (J := Silent session start) (fun _ _ _ hst hstep => hst.step hstep) ?_
    (silent_accept (kept_of_run hrun) hsession haccept) happenings
  intro st h st' hst hstep
  refine forall₂_congr fun now hnow => forall_congr' fun hmem => ?_
  unfold Client.step at hstep
  rw [hnow] at hstep
  exact hst.sweep hstep hmem

/-! ### A client that sends a request every 25 seconds -/

/-- The clock reading that an event comes with. -/
def clock : TcpServer.Event → Option Int
  | .accept now => some now
  | .frame _ _ now _ => some now
  | .readError _ => none
  | .sweep now => some now

/-- Whenever something happens, the last request of the client, or the start of
its session, is at most 30 seconds ago. -/
def SendsEvery30 (last : Int) : List (Happening session) → Prop
  | [] => True
  | .sends _ now _ :: happenings => now - last ≤ 30 * AsyncSession.second ∧ SendsEvery30 now happenings
  | .server event _ :: happenings =>
    (∀ now ∈ clock event, now - last ≤ 30 * AsyncSession.second) ∧ SendsEvery30 last happenings

/-- A request when `seconds` have passed. -/
def sendsAt (r : Request) (seconds : Int) : Happening 1 :=
  .sends r (seconds * AsyncSession.second) (seconds * AsyncSession.second)

def sweepAt (seconds : Int) : Happening 1 := .server (.sweep (seconds * AsyncSession.second)) fun _ _ _ => nofun

/-- The client registers and logs in on session 1, and sends a message to itself
every 25 seconds. -/
def busyClient : List (Happening 1) :=
  let message := Request.sendPrivateMessage ⟨1000, lit "a", 0⟩ 1000 (lit "hi")
  [sendsAt (.register (lit "a") (lit "p")) 5, sendsAt (.login 1000 (lit "p")) 10, sweepAt 30,
    sendsAt message 35, sendsAt message 60, sweepAt 60, sendsAt message 85, sweepAt 90,
    sendsAt message 110]

theorem notReaped_iff_sweptInTime_busy :
    ∃ st', TcpServer.step .ideal (.boot .ideal .empty) (.accept 0) = some st' ∧
      (EachStep (step .ideal) NotReaped st' busyClient ↔
        Along (step .ideal) (SweptInTime 0) st' busyClient) :=
  ⟨_, rfl, @notReaped_iff_sweptInTime _ _ _ _ _ _ [] rfl rfl rfl busyClient⟩

/-- Its session is closed after two minutes. -/
theorem busy_client_reaped :
    ¬∀ (env : Env) (db : Database) (session : SessionId) (start : Int) (st : Server)
      (happenings : List (Happening session)), st.next_id = session →
      (∃ events, run (TcpServer.step env) (.start db) events = some st) → SendsEvery30 start happenings →
      ∀ st', TcpServer.step env st (.accept start) = some st' →
        EachStep (step env) NotReaped st' happenings := by
  intro hall
  have hrun : ((TcpServer.step .ideal (.boot .ideal .empty) (.accept 0)).bind fun st' =>
      (run (step .ideal) st' busyClient).bind fun t =>
        (step .ideal t (sweepAt 120)).map fun t' => (t.pool.sessions, t.userId 1, t'.pool.sessions)) =
      some ([1], 1000, []) := by
    decide +kernel
  obtain ⟨st', hst', hrest⟩ := Option.bind_eq_some_iff.mp hrun
  obtain ⟨t, ht, hlast⟩ := Option.bind_eq_some_iff.mp hrest
  obtain ⟨t', ht', heq⟩ := Option.map_eq_some_iff.mp hlast
  simp only [Prod.mk.injEq] at heq
  obtain ⟨hbefore, -, hafter⟩ := heq
  have hsends : SendsEvery30 0 (busyClient ++ [sweepAt 120]) := by
    simp [busyClient, sendsAt, sweepAt, SendsEvery30, clock, AsyncSession.second]
  have hmem := (hall .ideal _ 1 0 _ (busyClient ++ [sweepAt 120]) rfl ⟨[], rfl⟩ hsends st' hst').last ht ht' _ rfl
    (hbefore ▸ List.mem_singleton_self 1)
  rw [hafter] at hmem
  cases hmem

end Runs

end Client

end LanChat
