import LanChat.Lib.Run
import LanChat.Server.MessageRouter

/-!
# The server

`TcpServer` and the event handlers of a session, as the steps of the server.
An exception that leaves a handler leaves `io_context::run` too, and the
process ends: such a step has no next state.
-/

namespace LanChat

open Lib Json

/-- The server after start-up on a database, before the first connection. -/
def Server.start (db : Database) : Server := ⟨db, .create 500, .empty, 1⟩

/-- The server after start-up on a database file. -/
def Server.boot (env : Env) (file : Content) : Server :=
  .start (Database.startUp env (Database.connect file)).state

namespace TcpServer

open MessageRouter

variable (env : Env)

/-- `broadcast`. -/
def broadcast (payload : Object) (excludeSessionId : SessionId) : RouterM Unit := do
  let sessions ← Cmd.asks fun st => st.pool.all env
  Cmd.each (sessions.filter fun session => session ≠ excludeSessionId) fun session =>
    deliver session payload

def offlinePayload (user : UserInfo) (userId : Int32) : Object :=
  object [("type", ofInt32 MsgType.UserOffline.toInt), ("id", ofInt32 userId),
    ("nickname", .str user.nickname)]

def markOfflineAndBroadcast (userId : Int32) : RouterM Unit := do
  modifyPresence fun presence => presence.setOffline userId
  onDb (UserRepository.setOnlineStatus env userId false)
  let user ← onDb (UserRepository.findById env userId)
  match user with
  | none => pure ()
  | some user => broadcast env (offlinePayload user userId) 0

def removeSession (session : SessionId) : RouterM Unit := do
  let userId ← Cmd.asks fun st => if session ∈ st.pool.sessions then st.userId session else 0
  modifyPool fun pool => pool.remove session
  if 0 < userId then markOfflineAndBroadcast env userId else pure ()

/-- `sweepHeartbeatTimeouts` at the clock reading `now`. -/
def sweepHeartbeatTimeouts (now : Int) : RouterM Unit := do
  let timedOut ← Cmd.asks fun st => st.pool.timedOut env now
  Cmd.each timedOut (removeSession env)

/-- A change of one session object. -/
def modifySession (session : SessionId) (f : AsyncSession → AsyncSession) : RouterM Unit :=
  modifyPool fun pool => pool.setObject session (f (pool.object session))

/-- The handler of `startAccept`. -/
def accept (now : Int) : RouterM Unit := do
  let session ← Cmd.asks fun st => st.next_id
  Cmd.modify fun st => { st with next_id := st.next_id + 1 }
  modifySession session fun _ => .construct now
  let added ← Cmd.asks fun st => (st.pool.add session).1
  modifyPool fun pool => (pool.add session).2
  if added then modifySession session (AsyncSession.start now) else pure ()

/-- `AsyncSession::onMessage`; the clock reads `now` for the rate limit and
`later` for a heartbeat. -/
def onMessage (session : SessionId) (json : Bytes) (now later : Int) : RouterM Unit := do
  let granted ← Cmd.asks fun st => ((st.pool.object session).consumeRateLimitToken now).1
  modifySession session fun s => (s.consumeRateLimitToken now).2
  if !granted then removeSession env session
  else if (parseObject env.stack json).bind typeField = some .Heartbeat then do
    modifySession session (AsyncSession.heartbeatReceived later)
    deliver session (okReply .HeartbeatAck "ok")
  else route env session json

/-- What the event loop of the server can be given to handle. -/
inductive Event where
  /-- a connection is accepted -/
  | accept (now : Int)
  /-- a complete frame of a session has been decoded -/
  | frame (session : SessionId) (json : Bytes) (now later : Int)
  /-- a read of a session has failed -/
  | readError (session : SessionId)
  /-- the heartbeat timer has expired -/
  | sweep (now : Int)

/-- A frame or an error comes only from a session that is reading. -/
def handle : Event → RouterM Unit
  | .accept now => accept now
  | .frame session json now later => do
    let reading ← Cmd.asks fun st => (st.pool.object session).reading
    if reading then onMessage env session json now later else pure ()
  | .readError session => do
    let reading ← Cmd.asks fun st => (st.pool.object session).reading
    if reading then do
      modifySession session AsyncSession.stopReading
      removeSession env session
    else pure ()
  | .sweep now => sweepHeartbeatTimeouts env now

/-- One step of the server; `none` when an exception ends the process. -/
def step (st : Server) (event : Event) : Option Server :=
  match (handle env event st).result with
  | .ok _ => some (handle env event st).state
  | .error _ => none

theorem of_step {env : Env} {st st' : Server} {event : Event} (h : step env st event = some st') :
    (handle env event st).result = .ok () ∧ st' = (handle env event st).state := by
  unfold step at h
  split at h
  · next hok =>
    cases h
    exact ⟨hok, rfl⟩
  · cases h

/-- `st` is reached from start-up on the database `db`. -/
def Reachable (db : Database) (st : Server) : Prop := ∃ events, run (step env) (.start db) events = some st

/-- A request as a frame of the session. -/
def request (session : SessionId) (type : MsgType) (fields : List (String × Value)) : Event :=
  .frame session (requestText type fields) 0 0

end TcpServer

end LanChat
