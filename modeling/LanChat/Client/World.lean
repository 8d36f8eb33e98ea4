import LanChat.Client.MessageStore
import LanChat.Client.Reading
import LanChat.Server.TcpServer

/-!
# A client and the server

The page of the client with its stores, its `TcpManager`, the connections of the
client, and the server, as one system that steps on events. A call of `invoke` is
carried out by `TcpManager` at some time, and settles on the page at some later
time; several may be under way. After each event the page is rendered, and an
effect runs when one of its dependencies has changed by reference.
-/

namespace LanChat

open Lib Json

namespace Client

/-! ## The offline queue -/

/-- `QueuedMessage`; the target is its `kind` and `targetId`. -/
structure QueuedMessage where
  target : Target
  localMessageId : Bytes
  json : Bytes
  createdAt : Int
  attempts : Nat

/-- What remains to be done when a call of `sendRawJson` has settled. -/
inductive Continuation where
  /-- a request that ends there -/
  | nothing
  /-- `sendPrivateMessage` and `sendGroupMessage` -/
  | message (target : Target) (localMessageId : Bytes)
  /-- `leaveGroup` -/
  | leave (groupId : Int64)
  /-- `flushOfflineQueue`, with the items behind this one -/
  | flush (item : QueuedMessage) (rest : List QueuedMessage)

/-- A call of `invoke('send_raw_json')`. `result` says whether `TcpManager` has
sent the text, once it has tried. -/
structure Call where
  json : Bytes
  after : Continuation
  result : Option Bool

/-- The dependencies of the effect of one kind of conversation. The array that
stands for a missing conversation is a new one each time, so it has no number. -/
structure Deps where
  active : Option Target
  messages : Option Nat
  status : ConnectionStatus
  user : Option Nat
deriving DecidableEq

/-- `storage` is the queue in `localStorage`; `up` and `down` are the frames that
are on their way on each connection of the client, and `writer` is the connection
that `TcpManager` writes to. `receipts` is an annotation: the receipts that the page
has sent. -/
structure World where
  store : Store
  storage : List QueuedMessage
  calls : List Call
  rendered : Kind → Option Deps
  receipts : List (Target × Int64)
  writer : Option SessionId
  connections : List SessionId
  up : SessionId → List Bytes
  down : SessionId → List Object
  server : Server

/-- What can happen next. -/
inductive Event where
  /-- `sendPrivateMessage` or `sendGroupMessage` -/
  | sendMessage (target : Target) (content : Bytes)
  /-- any other request of the user, or the hello -/
  | request (r : Request)
  | setActiveContact (id : Option Int64)
  | selectGroup (id : Option Int64)
  | logout
  /-- the connection is lost, given up, or about to be made -/
  | unconnected (status : ConnectionStatus)
  /-- `TcpManager` drops its connection -/
  | dropped
  /-- `TcpManager` has connected -/
  | opened (now : Int)
  /-- `invoke('connect')` has resolved -/
  | connected
  /-- `flushOfflineQueue` is called -/
  | flush
  /-- `TcpManager` carries out the call at this position; `ok` if `write_all` succeeds -/
  | send (position : Nat) (ok : Bool)
  /-- the call at this position settles on the page -/
  | settle (position : Nat)
  /-- the server handles the next frame of the client -/
  | serve (session : SessionId) (now later : Int)
  /-- the page handles the next frame of the server -/
  | receive (session : SessionId)
  /-- the server handles anything else -/
  | server (event : TcpServer.Event)

/-- The listener for `message-received`, as far as it concerns the messages; `body`
is the body of the frame. -/
def Store.onMessageReceived (js : Js) (s : Store) (body : Bytes) : Store :=
  match shown body with
  | some raw => s.handleIncomingMessage js raw
  | none => s

namespace World

variable (js : Js) (env : Env)

/-- The client starts when the server is running. -/
def start (st : Server) : World :=
  ⟨.initial, [], [], fun _ => none, [], none, [], fun _ => [], fun _ => [], st⟩

/-! ## Sending -/

/-- `sendRawJson` when the client is connected. -/
def invoke (w : World) (json : Bytes) (after : Continuation) : World :=
  { w with calls := w.calls ++ [⟨json, after, none⟩] }

/-- The text of `sendPrivateMessage` or `sendGroupMessage`. -/
def messageRequest (user : CurrentUser) (target : Target) (content : Bytes) : Request :=
  match target with
  | .direct toId => .sendPrivateMessage user toId content
  | .group groupId => .sendGroupMessage user groupId content

def sendMessage (w : World) (target : Target) (content : Bytes) : World :=
  match w.store.currentUser with
  | none => w
  | some (_, user) =>
    let localId := js.msgId w.store.calls
    let json := (messageRequest user target content).json
    let w' := { w with store := w.store.compose js user target content }
    if w.store.status = .connected then w'.invoke json (.message target localId)
    else { w' with storage := w.storage ++ [⟨target, localId, json, js.now w.store.calls, 0⟩] }

/-- What `leaveGroup` does in the end; the other requests end with the call. -/
def afterRequest : Request → Continuation
  | .leaveGroup _ groupId => .leave groupId
  | _ => .nothing

/-- A request fails while the client is not connected. -/
def request (w : World) (r : Request) : World :=
  if w.store.status = .connected then w.invoke r.json (afterRequest r) else w

/-- The requests that the page sends by `sendMessage` and by the effects only. -/
def ofItsOwn (r : Request) : Bool := r.type = .SendMsg || r.type = .SendGroupMsg || r.type = .ReadReceipt

/-! ## `flushOfflineQueue` -/

/-- The `catch` of the loop. -/
def flushFailed (w : World) (item : QueuedMessage) : World :=
  { w with storage := w.storage.map fun queued =>
      if queued.localMessageId = item.localMessageId then { queued with attempts := queued.attempts + 1 }
      else queued }

/-- The loop, up to the call of `sendRawJson` that it waits for. -/
def flushLoop (w : World) : List QueuedMessage → World
  | [] => w
  | item :: rest =>
    let w := { w with store := w.store.updateMessageStatus item.target item.localMessageId .sending }
    if w.store.status = .connected then w.invoke item.json (.flush item rest) else w.flushFailed item

def flushOfflineQueue (w : World) : World :=
  if w.store.status = .connected then w.flushLoop w.storage else w

/-- `dequeueOfflineMessage`. -/
def dequeue (w : World) (localMessageId : Bytes) : World :=
  { w with storage := w.storage.filter fun item => item.localMessageId ≠ localMessageId }

/-- The loop goes on when the item has been sent. -/
def flushSent (w : World) (item : QueuedMessage) (rest : List QueuedMessage) : World :=
  let w := w.dequeue item.localMessageId
  { w with store := w.store.updateMessageStatus item.target item.localMessageId .sent }.flushLoop rest

/-- What follows a call that has settled. -/
def settled (w : World) (after : Continuation) (ok : Bool) : World :=
  match after, ok with
  | .message target localId, false =>
    { w with store := w.store.updateMessageStatus target localId .failed }
  | .leave groupId, true => { w with store := w.store.groupLeft groupId }
  | .flush item rest, true => w.flushSent item rest
  | .flush item _, false => w.flushFailed item
  | _, _ => w

/-! ## `TcpManager` and the server -/

/-- `send_json`: without a connection it fails. -/
def send (w : World) (position : Nat) (ok : Bool) : Option World :=
  match w.calls[position]? with
  | some ⟨json, after, none⟩ =>
    match w.writer with
    | some session =>
      some { w with
        calls := w.calls.set position ⟨json, after, some ok⟩
        up := if ok then Function.update w.up session (w.up session ++ [json]) else w.up }
    | none => some { w with calls := w.calls.set position ⟨json, after, some false⟩ }
  | _ => none

/-- The server handles an event; what it delivers is on its way. -/
def serverHandles (w : World) (event : TcpServer.Event) : Option World :=
  let outcome := TcpServer.handle env event w.server
  match outcome.result with
  | .ok _ =>
    some { w with
      server := outcome.state
      down := fun session => w.down session ++
        ((outcome.out.filter fun d => d.target = session).map fun d => d.payload) }
  | .error _ => none

/-- The server takes a step, and nothing else changes but what is on its way. -/
theorem of_serverHandles {env : Env} {w w' : World} {event : TcpServer.Event}
    (h : w.serverHandles env event = some w') :
    TcpServer.step env w.server event = some w'.server ∧
      ∃ server down, w' = { w with server := server, down := down } := by
  unfold serverHandles at h
  unfold TcpServer.step
  dsimp only at h
  cases hresult : (TcpServer.handle env event w.server).result with
  | ok a =>
    simp only [hresult, Option.some.injEq] at h
    subst h
    exact ⟨rfl, _, _, rfl⟩
  | error e =>
    simp only [hresult] at h
    cases h

/-- An event that is not a frame of the client. -/
def foreign (w : World) : TcpServer.Event → Bool
  | .frame session _ _ _ => session ∉ w.connections
  | _ => true

/-- The event, before the page is rendered; `none` if it cannot happen now. -/
def handle (w : World) : Event → Option World
  | .sendMessage target content => some (w.sendMessage js target content)
  | .request r => if ofItsOwn r then none else some (w.request r)
  | .setActiveContact id => some { w with store := w.store.setActiveContact id }
  | .selectGroup id => some { w with store := w.store.selectGroup id }
  | .logout => some { w with store := w.store.logout }
  | .unconnected status =>
    if status = .connected then none else some { w with store := { w.store with status := status } }
  | .dropped => some { w with writer := none }
  | .opened now =>
    { w with
      writer := some w.server.next_id
      connections := w.server.next_id :: w.connections }.serverHandles env (.accept now)
  | .connected => some { w with store := { w.store with status := .connected } }
  | .flush => some w.flushOfflineQueue
  | .send position ok => w.send position ok
  | .settle position =>
    match w.calls[position]? with
    | some ⟨_, after, some ok⟩ => some ({ w with calls := w.calls.eraseIdx position }.settled after ok)
    | _ => none
  | .serve session now later =>
    match w.up session with
    | json :: rest =>
      { w with up := Function.update w.up session rest }.serverHandles env (.frame session json now later)
    | [] => none
  | .receive session =>
    match w.down session with
    | payload :: rest =>
      if session ∈ w.connections then
        some { w with
          down := Function.update w.down session rest
          store := w.store.onMessageReceived js (serialize payload) }
      else none
    | [] => none
  | .server event => if w.foreign event then w.serverHandles env event else none

/-- The events of the connection and the server, and the requests that compose nothing. -/
def aside : Event → Bool
  | .request _ | .dropped | .opened _ | .send .. | .serve .. | .server _ => true
  | _ => false

/-- They leave the page alone, and what it has stored. -/
theorem handle_aside {js : Js} {env : Env} {w w' : World} {e : Event} (h : w.handle js env e = some w')
    (haside : aside e = true) :
    w'.store = w.store ∧ w'.storage = w.storage ∧ w'.receipts = w.receipts ∧ w'.rendered = w.rendered := by
  cases e with
  | request r =>
    simp only [World.handle] at h
    split at h
    · cases h
    · cases h
      unfold World.request
      split <;> exact ⟨rfl, rfl, rfl, rfl⟩
  | dropped =>
    cases h
    exact ⟨rfl, rfl, rfl, rfl⟩
  | opened now =>
    obtain ⟨-, server, down, rfl⟩ := of_serverHandles h
    exact ⟨rfl, rfl, rfl, rfl⟩
  | send position ok =>
    simp only [World.handle, World.send] at h
    split at h
    · split at h <;> cases h <;> exact ⟨rfl, rfl, rfl, rfl⟩
    · cases h
  | serve session now later =>
    simp only [World.handle] at h
    split at h
    · obtain ⟨-, server, down, rfl⟩ := of_serverHandles h
      exact ⟨rfl, rfl, rfl, rfl⟩
    · cases h
  | server event =>
    simp only [World.handle] at h
    split at h
    · obtain ⟨-, server, down, rfl⟩ := of_serverHandles h
      exact ⟨rfl, rfl, rfl, rfl⟩
    · cases h
  | _ => cases haside

/-! ## Rendering -/

def deps (w : World) (kind : Kind) : Deps where
  active := w.store.active kind
  messages := (w.store.active kind).bind fun target =>
    (w.store.conversations kind target.key).map (·.reference)
  status := w.store.status
  user := w.store.currentUser.map (·.1)

/-- Whether some dependency is not the same as at the last rendering. -/
def changed (w : World) (kind : Kind) : Bool :=
  w.rendered kind ≠ some (w.deps kind) || (w.deps kind).messages.isNone

/-- `markMessageRead` sends a receipt. -/
def sendReceipt (w : World) : Option Request → World
  | some (.markMessageRead user target msgIdNum) =>
    { w.invoke (Request.markMessageRead user target msgIdNum).json .nothing with
      receipts := w.receipts ++ [(target, msgIdNum)] }
  | _ => w

/-- The effect of one kind of conversation, if it is to run. -/
def runEffect (w : World) (kind : Kind) : World :=
  let w' := if w.changed kind then w.sendReceipt (w.store.readReceipt kind) else w
  { w' with rendered := fun kind' => if kind' = kind then some (w.deps kind) else w.rendered kind' }

def render (w : World) : World := (w.runEffect .direct).runEffect .group

theorem sendReceipt_spec (w : World) (r : Option Request) :
    ∃ calls receipts, w.sendReceipt r = { w with calls := calls, receipts := receipts } := by
  unfold sendReceipt
  split
  · exact ⟨_, _, rfl⟩
  · exact ⟨_, _, rfl⟩

theorem runEffect_spec (w : World) (kind : Kind) :
    ∃ calls receipts rendered,
      w.runEffect kind = { w with calls := calls, receipts := receipts, rendered := rendered } := by
  obtain ⟨calls, receipts, h⟩ := w.sendReceipt_spec (w.store.readReceipt kind)
  unfold runEffect
  split
  · rw [h]
    exact ⟨calls, receipts, _, rfl⟩
  · exact ⟨_, _, _, rfl⟩

/-- A rendering changes nothing but the calls, and what the page remembers of it. -/
theorem render_spec (w : World) :
    ∃ calls receipts rendered,
      w.render = { w with calls := calls, receipts := receipts, rendered := rendered } := by
  obtain ⟨_, _, _, hdirect⟩ := w.runEffect_spec .direct
  obtain ⟨calls, receipts, rendered, hgroup⟩ := (w.runEffect .direct).runEffect_spec .group
  refine ⟨calls, receipts, rendered, ?_⟩
  rw [render, hgroup, hdirect]

/-- One step of the system. -/
def step (w : World) (event : Event) : Option World := (w.handle js env event).map render

end World

/-! ## A page for runs -/

/-- A page whose merge puts every message at the end. -/
def Js.plain : Js where
  msgId n := lit "local-" ++ decimal n
  now n := n
  t _ _ := []
  textOf _ := []
  kilobytes _ := []
  normalizeTimestamp _ := 0
  mergeIncomingMessage messages message := some (messages.getD [] ++ [message])

/-- A request that the server handles, and whose first reply the page handles. -/
def exchange (session : SessionId) (r : Request) : List Event :=
  [.request r, .send 0 true, .settle 0, .serve session 0 0, .receive session]

/-- The client connects on session 1, registers user 1000 and logs in. -/
def firstLogin : List Event :=
  [Event.opened 0, .connected] ++ exchange 1 (.register (lit "a") (lit "p"))
    ++ exchange 1 (.login 1000 (lit "p"))

end Client

end LanChat
