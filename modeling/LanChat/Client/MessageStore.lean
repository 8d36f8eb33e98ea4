import LanChat.Client.Requests

/-!
# The message store of the client

The conversations of `messageStore.ts`: what `handleIncomingMessage` makes of
them, the messages of the user, and the receipts. An array that React compares
by reference is kept with a number for its reference, as is the current user.
The contacts, the groups and the friends of the client are left out.
-/

namespace LanChat

open Lib Json

namespace Client

/-! ## JavaScript values -/

/-- `raw.key`; `none` is `undefined`. -/
def member (raw : Object) (key : String) : Option Value := raw.find? (lit key)

/-- Whether a value counts as true. The server prints six decimals of a float. -/
def truthy : Option Value → Bool
  | none => false
  | some .null => false
  | some (.bool b) => b
  | some (.int i) => i ≠ 0
  | some (.float d) => d.micros ≠ 0
  | some (.str s) => s ≠ []
  | some (.arr _) => true
  | some (.obj _) => true

/-- `v ?? fallback`. -/
def orElse (v : Option Value) (fallback : Value) : Value :=
  match v with
  | none => fallback
  | some .null => fallback
  | some v => v

/-- `v === id`. -/
def same (v : Value) (id : Int64) : Bool :=
  match v with
  | .int i => i = id
  | .float d => (if d.neg then -(d.micros : Int) else d.micros) = id.toInt * 10 ^ 6
  | _ => false

/-- The elements of an array. -/
def elements : Option Value → List Object
  | some (.arr vs) => vs.filterMap fun v =>
    match v with
    | .obj o => some o
    | _ => none
  | _ => []

/-- `s.split(',').filter(Boolean)`. -/
def splitCommas (s : Bytes) : List Bytes :=
  ((s.foldr (fun c parts => if c = Ascii.comma then [] :: parts else
    match parts with
    | [] => [[c]]
    | part :: parts => (c :: part) :: parts) [[]])).filter fun part => part ≠ []

/-! ## Conversations -/

inductive ConnectionStatus where
  | disconnected
  | connecting
  | connected
deriving DecidableEq

/-- `status` of a message. -/
inductive MessageStatus where
  | sending
  | queued
  | sent
  | failed
deriving DecidableEq

/-- `ChatMessage`. Its `fromId` is whatever the payload holds. -/
structure ChatMessage where
  id : Bytes
  fromId : Value
  nickname : Bytes
  content : Bytes
  contentType : Bytes
  timestamp : Int
  status : MessageStatus
  edited : Bool
  deleted : Bool
  reactions : Option (List Bytes)
  read : Bool

/-- What the store calls that is not its own code: `msgId` and `Date.now` by the
number of the call, the texts of the user interface, `String` of a value that is
neither a string nor an integer, `Math.round` of a file size, and the module
`messageStoreUtils`. `mergeIncomingMessage` returns `none` when it returns the
array that it was given. -/
structure Js where
  msgId : Nat → Bytes
  now : Nat → Int
  t : String → Option Value → Bytes
  textOf : Value → Bytes
  kilobytes : Option Value → Bytes
  normalizeTimestamp : Option Value → Int
  mergeIncomingMessage : Option (List ChatMessage) → ChatMessage → Option (List ChatMessage)

/-- `String(v)`. -/
def Js.string (js : Js) : Option Value → Bytes
  | none => lit "undefined"
  | some (.int i) => intText i
  | some (.str s) => s
  | some v => js.textOf v

/-- The two kinds of conversations: `messagesByContact` and `messagesByGroup`. -/
inductive Kind where
  | direct
  | group
deriving DecidableEq

def Target.kind : Target → Kind
  | direct _ => .direct
  | group _ => .group

/-- The id of the target, as a property name. -/
def Target.key : Target → Bytes
  | direct id => intText id
  | group id => intText id

/-- An array of messages. -/
structure Conversation where
  reference : Nat
  messages : List ChatMessage

/-- The parts of the stores that the messages are about. `calls` counts the calls
of `msgId` and `Date.now`, and `references` the arrays and users created. -/
structure Store where
  currentUser : Option (Nat × CurrentUser)
  status : ConnectionStatus
  conversations : Kind → Bytes → Option Conversation
  activeContactId : Option Int64
  activeGroupId : Option Int64
  calls : Nat
  references : Nat

namespace Store

/-- The stores when the page has been loaded. -/
def initial : Store := ⟨none, .disconnected, fun _ _ => none, none, none, 0, 0⟩

/-- `currentUser?.id ?? 0`. -/
def userId (s : Store) : Int64 :=
  match s.currentUser with
  | some (_, user) => user.id
  | none => 0

/-- The messages of a conversation, `|| []`. -/
def messages (s : Store) (kind : Kind) (key : Bytes) : List ChatMessage :=
  match s.conversations kind key with
  | some conversation => conversation.messages
  | none => []

/-- `{ ...s.messagesByContact, [key]: messages }`, or the same for a group. -/
def put (s : Store) (kind : Kind) (key : Bytes) (messages : List ChatMessage) : Store :=
  { s with
    conversations := fun kind' key' =>
      if kind' = kind ∧ key' = key then some ⟨s.references, messages⟩ else s.conversations kind' key'
    references := s.references + 1 }

/-- `updateMessageById`, on one conversation. -/
def updateMessageById (s : Store) (kind : Kind) (key id : Bytes) (updater : ChatMessage → ChatMessage) :
    Store :=
  s.put kind key ((s.messages kind key).map fun message => if message.id = id then updater message else message)

/-- `updateMessageStatus`, on the conversation of the target. -/
def updateMessageStatus (s : Store) (target : Target) (id : Bytes) (status : MessageStatus) : Store :=
  s.updateMessageById target.kind target.key id fun message => { message with status := status }

/-- The next id of `msgId`. -/
def count (s : Store) : Store := { s with calls := s.calls + 1 }

/-! ## Incoming messages -/

section Incoming

variable (js : Js)

/-- `toChatMessage`; `localId` is what `msgId` would return. -/
def toChatMessage (localId : Bytes) (raw : Object) : ChatMessage where
  id := match member raw "msg_id" with
    | none => localId
    | id => js.string id
  fromId := orElse (member raw "fromId") (.int 0)
  nickname := stringField raw "nickname" (js.t "common.unknown" none)
  content := stringField raw "msg" []
  contentType := stringField raw "content_type" (lit "text")
  timestamp := js.normalizeTimestamp (member raw "timestamp")
  status := .sent
  edited := truthy (member raw "edited")
  deleted := truthy (member raw "deleted")
  reactions :=
    if truthy (member raw "reactions") then some (splitCommas (stringField raw "reactions" [])) else none
  read := truthy (member raw "read")

/-- `systemMessage`. -/
def systemMessage (localId content : Bytes) (now : Int) : ChatMessage :=
  ⟨localId, .int 0, js.t "common.system" none, content, lit "system", now, .sent, false, false, none, false⟩

/-- `directPeerId`; `none` is `undefined`. -/
def directPeerId (raw : Object) (currentUserId : Int64) : Value :=
  if (member raw "fromId").any fun fromId => same fromId currentUserId then orElse (member raw "toId") (.int 0)
  else orElse (member raw "fromId") (.int 0)

/-- The conversation that a change of a message is about, if it is about one. -/
def changedConversation (s : Store) (raw : Object) : Option (Kind × Bytes) :=
  if truthy (member raw "groupId") then some (.group, js.string (member raw "groupId"))
  else if truthy (some (directPeerId raw s.userId)) then
    some (.direct, js.string (some (directPeerId raw s.userId)))
  else none

/-- The common part of the edits, the deletions, the reactions and the receipts. -/
def change (s : Store) (raw : Object) (updater : ChatMessage → ChatMessage) : Store :=
  match changedConversation js s raw with
  | some (kind, key) => s.updateMessageById kind key (js.string (member raw "msg_id")) updater
  | none => s

/-- What an edit, a deletion, a reaction or a receipt makes of its message. -/
def applyEdit (raw : Object) (m : ChatMessage) : ChatMessage :=
  { m with content := stringField raw "msg" m.content, edited := true }

def markDeleted (m : ChatMessage) : ChatMessage := { m with content := [], deleted := true }

def addReaction (raw : Object) (m : ChatMessage) : ChatMessage :=
  let entry := js.string (some (orElse (member raw "fromId") (.int 0))) ++ Ascii.colon ::
    js.string (member raw "reaction")
  { m with
    reactions := if (m.reactions.getD []).contains entry then m.reactions
      else some (m.reactions.getD [] ++ [entry]) }

def markRead (m : ChatMessage) : ChatMessage := { m with read := true }

/-- `raw.status === 'ok'`. -/
def isOk (raw : Object) : Bool := stringField raw "status" [] = lit "ok"

/-- `LoginSuccessReturn`. -/
def loggedIn (s : Store) (raw : Object) : Store :=
  let users := if truthy (member raw "users") then member raw "users" else member raw "friends"
  { s with
    currentUser := some (s.references,
      ⟨int64Field raw "id" 0, stringField raw "nickname" [], int64Field raw "headId" 0⟩)
    conversations := fun kind key =>
      match kind with
      | .direct => s.conversations .direct key
      | .group => none
    activeContactId := (elements users).head?.map fun user => int64Field user "id" 0
    activeGroupId := none
    references := s.references + 1 }

/-- `mergeIncomingMessage` on a conversation. -/
def merge (s : Store) (kind : Kind) (key : Bytes) (message : ChatMessage) : Store :=
  match js.mergeIncomingMessage ((s.conversations kind key).map (·.messages)) message with
  | some messages => s.put kind key messages
  | none => s

/-- `ReceiveMsg`. -/
def receiveMsg (s : Store) (raw : Object) : Store :=
  let peerId := if s.userId ≠ 0 then directPeerId raw s.userId else orElse (member raw "fromId") (.int 0)
  (s.merge js .direct (js.string (some peerId)) (toChatMessage js (js.msgId s.calls) raw)).count

/-- `ReceiveGroupMsg`. -/
def receiveGroupMsg (s : Store) (raw : Object) : Store :=
  (s.merge js .group (js.string (some (orElse (member raw "groupId") (.int 0))))
    (toChatMessage js (js.msgId s.calls) raw)).count

/-- `byId.set(m.id, m)`. -/
def setById (m : ChatMessage) : List ChatMessage → List ChatMessage
  | [] => [m]
  | m' :: messages => if m'.id = m.id then m :: messages else m' :: setById m messages

/-- `mergeById`; `sort` is stable. -/
def mergeById (existing messages : List ChatMessage) : List ChatMessage :=
  ((existing ++ messages).foldl (fun byId m => setById m byId) []).mergeSort
    fun a b => a.timestamp ≤ b.timestamp

/-- `HistoryResponse`. -/
def historyResponse (s : Store) (raw : Object) : Store :=
  match elements (member raw "messages") with
  | [] => s
  | first :: rest =>
    let messages := (first :: rest).zipIdx.map fun (item, i) =>
      toChatMessage js (js.msgId (s.calls + i)) item
    let s := { s with calls := s.calls + messages.length }
    if truthy (member first "groupId") then
      let key := js.string (member first "groupId")
      s.put .group key (mergeById (s.messages .group key) messages)
    else
      let peerId := if (member first "fromId").any fun fromId => same fromId s.userId then member first "toId"
        else member first "fromId"
      if truthy peerId then
        s.put .direct (js.string peerId) (mergeById (s.messages .direct (js.string peerId)) messages)
      else s

/-- `/\.(png|jpg|jpeg|gif|webp)$/i`. -/
def isImage (fileName : Bytes) : Bool :=
  let lower := fileName.map fun c => if 65 ≤ c ∧ c ≤ 90 then c + 32 else c
  [".png", ".jpg", ".jpeg", ".gif", ".webp"].any fun suffix => (lit suffix).isSuffixOf lower

/-- `ReceiveFile`; a file without a name throws. -/
def receiveFile (s : Store) (raw : Object) : Store :=
  match member raw "file_name" with
  | some (.str fileName) =>
    let fromId := orElse (member raw "fromId") (.int 0)
    let label := fileName ++ lit " (" ++ js.kilobytes (member raw "file_size") ++ lit " KB)"
    let message : ChatMessage :=
      { id := if truthy (member raw "msg_id") then js.string (member raw "msg_id") else js.msgId s.calls
        fromId := fromId
        nickname := js.t "common.unknownUser" (some fromId)
        content := if truthy (member raw "msg") then js.string (member raw "msg") ++ lit ": " ++ label else label
        contentType := if isImage fileName then lit "image" else lit "file"
        timestamp := js.normalizeTimestamp (member raw "timestamp")
        status := .sent
        edited := false
        deleted := false
        reactions := none
        read := false }
    let (kind, key) := if truthy (member raw "groupId") then (Kind.group, js.string (member raw "groupId"))
      else (.direct, js.string (some fromId))
    (s.put kind key (s.messages kind key ++ [message])).count
  | _ => s

/-- `UserJoinGroup` and `UserLeaveGroup`. -/
def systemEvent (s : Store) (raw : Object) (text : String) : Store :=
  let nickname := if truthy (member raw "nickname") then js.string (member raw "nickname")
    else js.t "common.unknownUser" (member raw "id")
  let key := js.string (member raw "groupId")
  (s.put .group key (s.messages .group key ++
    [systemMessage js (js.msgId s.calls) (js.t text (some (.str nickname))) (js.now s.calls)])).count

/-- The reply to the creation of a group, or to joining it, opens the group. -/
def openGroup (s : Store) (raw : Object) : Store :=
  { s with activeGroupId := some (int64Field raw "groupId" 0), activeContactId := none }

/-- The cases of `handleIncomingMessage`, without `OfflineMessages`. Those that do
not concern a conversation leave the store as it is. -/
def handleOne (s : Store) (raw : Object) : Store :=
  match typeField raw with
  | some .LoginSuccessReturn => s.loggedIn raw
  | some .ReceiveMsg => s.receiveMsg js raw
  | some .ReceiveGroupMsg => s.receiveGroupMsg js raw
  | some .HistoryResponse => s.historyResponse js raw
  | some .MessageEditReturn => if isOk raw then s.change js raw (applyEdit raw) else s
  | some .MessageDeleteReturn => if isOk raw then s.change js raw markDeleted else s
  | some .MessageReactionReturn => if isOk raw then s.change js raw (addReaction js raw) else s
  | some .ReadReceipt => s.change js raw markRead
  | some .ReceiveFile => s.receiveFile js raw
  | some .CreateGroupReturn => if isOk raw && truthy (member raw "groupId") then s.openGroup raw else s
  | some .JoinGroupReturn => if isOk raw then s.openGroup raw else s
  | some .UserJoinGroup => s.systemEvent js raw "common.userJoinedGroup"
  | some .UserLeaveGroup => s.systemEvent js raw "common.userLeftGroup"
  | _ => s

/-- `handleIncomingMessage`. The server puts no batch into a batch. -/
def handleIncomingMessage (s : Store) (raw : Object) : Store :=
  match typeField raw with
  | some .OfflineMessages => (elements (member raw "messages")).foldl (handleOne js) s
  | _ => s.handleOne js raw

end Incoming

/-! ## What the user does -/

/-- The message that the user has written, before it is sent. -/
def compose (js : Js) (s : Store) (user : CurrentUser) (target : Target) (content : Bytes) : Store :=
  let message : ChatMessage :=
    { id := js.msgId s.calls
      fromId := .int user.id
      nickname := user.nickname
      content := content
      contentType := lit "text"
      timestamp := js.now s.calls
      status := if s.status = .connected then .sending else .queued
      edited := false
      deleted := false
      reactions := none
      read := false }
  (s.put target.kind target.key (s.messages target.kind target.key ++ [message])).count

def setActiveContact (s : Store) : Option Int64 → Store
  | none => { s with activeContactId := none }
  | some id => { s with activeContactId := some id, activeGroupId := none }

def selectGroup (s : Store) (id : Option Int64) : Store :=
  { s with activeGroupId := id, activeContactId := none }

/-- The end of `leaveGroup`. -/
def groupLeft (s : Store) (groupId : Int64) : Store :=
  { s with
    conversations := fun kind key =>
      if kind = .group ∧ key = intText groupId then none else s.conversations kind key
    activeGroupId := if s.activeGroupId = some groupId then none else s.activeGroupId }

/-- `logout` and `resetOnLogout`. -/
def logout (s : Store) : Store :=
  { s with currentUser := none, conversations := fun _ _ => none, activeContactId := none,
           activeGroupId := none }

/-! ## Receipts -/

/-- `numericMessageId`, of a text that is an integer; every other text has the
number 0. -/
def numericMessageId (messageId : Bytes) : Int64 :=
  let digits := if messageId.head? = some Ascii.minus then messageId.tail else messageId
  if digits ≠ [] ∧ digits.all isDigit then
    if messageId.head? = some Ascii.minus then Int64.ofInt (-natOf digits) else Int64.ofInt (natOf digits)
  else 0

def markMessageRead (s : Store) (target : Target) (messageId : Bytes) : Option Request :=
  match s.currentUser with
  | none => none
  | some (_, user) =>
    if numericMessageId messageId ≤ 0 ∨ s.status ≠ .connected then none
    else some (.markMessageRead user target (numericMessageId messageId))

/-- `activeContactId` and `activeGroupId`, if one is set; zero counts as none. -/
def active (s : Store) (kind : Kind) : Option Target :=
  match kind with
  | .direct => (s.activeContactId.filter fun id => id ≠ 0).map .direct
  | .group => (s.activeGroupId.filter fun id => id ≠ 0).map .group

/-- The last message of somebody else. -/
def latestIncoming (user : CurrentUser) (messages : List ChatMessage) : Option ChatMessage :=
  messages.reverse.find? fun message => !same message.fromId user.id

/-- The effect of `App` that sends the receipts of the open conversation. -/
def readReceipt (s : Store) (kind : Kind) : Option Request :=
  match s.currentUser, s.active kind with
  | some (_, user), some target =>
    if s.status ≠ .connected then none
    else (latestIncoming user (s.messages kind target.key)).bind fun message =>
      s.markMessageRead target message.id
  | _, _ => none

end Store

end Client

end LanChat
