import LanChat.Json.Nesting
import LanChat.Db.ChannelRepository
import LanChat.Db.FriendRepository
import LanChat.Server.PresenceManager
import LanChat.Server.SessionPool

/-!
# The message router

`MessageRouter::route` and its handlers, in the order of the source.
-/

namespace LanChat

open Lib Json

/-- The state of the server process; `next_id` numbers the session objects. -/
structure Server where
  db : Database
  pool : SessionPool
  presence : PresenceManager
  next_id : SessionId

/-- A payload handed to `AsyncSession::deliver`: the session, the object whose
text is handed over, and the state of the server at that moment. `carries` is
an annotation that the server does not have: the stored messages whose content
was put into the payload. -/
structure Delivery where
  target : SessionId
  payload : Object
  carries : List StoredMessage
  at_ : Server

abbrev RouterM := Cmd Server Delivery Exn

namespace Server

def userId (st : Server) (session : SessionId) : Int32 := st.pool.userId session

/-- The rows of a JSON table in memory. -/
def cached (st : Server) (name : TableName) : RowList := (st.db.tables name).getD []

end Server

namespace MessageRouter

open AsyncSession

variable (env : Env)

/-! ## Access to the parts of the server -/

/-- A call of a repository. -/
def onDb {α : Type} (c : DbM α) : RouterM α :=
  Cmd.zoom Server.db (fun st db => { st with db := db }) c

def modifyPool (f : SessionPool → SessionPool) : RouterM Unit :=
  Cmd.modify fun st => { st with pool := f st.pool }

def modifyPresence (f : PresenceManager → PresenceManager) : RouterM Unit :=
  Cmd.modify fun st => { st with presence := f st.presence }

/-- `sessions_.findByUserId(user)`. -/
def findByUserId (user : Int32) : RouterM (Option SessionId) :=
  Cmd.asks fun st => st.pool.findByUserId user

/-- `session->deliver(serialize(payload))`, where the payload contains content
of the stored messages `carries`. -/
def deliverContent (session : SessionId) (payload : Object)
    (carries : Server → List StoredMessage) : RouterM Unit := fun st =>
  match (st.pool.object session).deliver (serialize payload) with
  | .ok s => ⟨.ok (), { st with pool := st.pool.setObject session s },
      [⟨session, payload, carries st, st⟩]⟩
  | .error e => ⟨.error e, st, [⟨session, payload, carries st, st⟩]⟩

/-- `session->deliver(serialize(payload))`, without content of a stored message. -/
def deliver (session : SessionId) (payload : Object) : RouterM Unit :=
  deliverContent session payload fun _ => []

/-- `if (target) target->deliver(serialize(payload));` -/
def deliverIfFound (target : Option SessionId) (payload : Object)
    (carries : Server → List StoredMessage) : RouterM Unit :=
  match target with
  | none => pure ()
  | some target => deliverContent target payload carries

/-- `auto target = sessions_.findByUserId(user); if (target) target->deliver(payload);` -/
def deliverToUser (user : Int32) (payload : Object) (carries : Server → List StoredMessage) :
    RouterM Unit := do
  let target ← findByUserId user
  deliverIfFound target payload carries

/-! ## JSON of the records -/

def userToJson (user : UserInfo) (status : Bytes) : Object :=
  object [("id", ofInt32 user.id), ("nickname", .str user.nickname),
    ("headId", ofInt32 user.avatar_id), ("status", .str status)]

def groupToJson (group : ChannelInfo) : Object :=
  object [("groupId", ofInt32 group.group_id), ("name", .str group.name),
    ("hostId", ofInt32 group.host_id)]

def friendToJson (user : UserInfo) (status : Bytes) : Object := userToJson user status

def messageToJson (type : MsgType) (message : StoredMessage) : Object :=
  object
    ([("type", ofInt32 type.toInt), ("msg_id", .int message.msg_id),
        ("fromId", ofInt32 message.from_id)]
      ++ (if 0 < message.to_id then [("toId", ofInt32 message.to_id)] else [])
      ++ (if 0 < message.group_id then [("groupId", ofInt32 message.group_id)] else [])
      ++ [("msg", .str message.content), ("content_type", .str message.content_type),
        ("timestamp", .int message.timestamp), ("read", .bool message.read),
        ("edited", .bool message.edited), ("deleted", .bool message.deleted),
        ("edited_at", .int message.edited_at), ("deleted_at", .int message.deleted_at)]
      ++ (if message.reactions = [] then [] else [("reactions", .str message.reactions)]))

def messagesToArray (messages : List StoredMessage) : List Value :=
  messages.map fun message =>
    .obj (messageToJson (if 0 < message.group_id then .ReceiveGroupMsg else .ReceiveMsg) message)

/-- The optional `toId` and `groupId` at the end of an answer. -/
def targetFields (toId groupId : Int32) : List (String × Value) :=
  (if 0 < toId then [("toId", ofInt32 toId)] else [])
    ++ (if 0 < groupId then [("groupId", ofInt32 groupId)] else [])

/-! ## Summaries -/

def natText (n : Nat) : Bytes := decimal n

def summarizeMessages (messages : List StoredMessage) : Bytes :=
  match messages.head?, messages.getLast? with
  | some front, some back =>
    lit "Summary based on " ++ natText messages.length ++ lit " recent messages.\n"
      ++ lit "- Time span: " ++ intText front.timestamp ++ lit " to " ++ intText back.timestamp
      ++ lit ".\n"
      ++ lit "- Latest topic: " ++ back.content.take 180 ++ lit "\n"
      ++ (if 1 < messages.length then
          lit "- Earlier context: " ++ front.content.take 160 ++ lit "\n" else [])
      ++ lit "- Suggested follow-up: review unresolved asks and confirm owners in chat."
  | _, _ => lit "No recent messages are available for this conversation."

/-- The messages that `summarizeMessages` quotes. -/
def quoted (messages : List StoredMessage) : List StoredMessage :=
  messages.head?.toList ++ messages.getLast?.toList

def summaryStart (requestId : Bytes) : Object :=
  object [("type", ofInt32 MsgType.AIResponse.toInt), ("request_id", .str requestId),
    ("status", text "start")]

def chunkSize : Nat := 80

/-- The chunk of the summary from `offset` on. -/
def summaryChunk (requestId summary : Bytes) (chunkIndex : Nat) : Object :=
  let offset := chunkIndex * chunkSize
  object [("type", ofInt32 MsgType.AIStreamChunk.toInt), ("request_id", .str requestId),
    ("chunk_index", ofInt32 (Int32.ofNat chunkIndex)),
    ("is_final", .bool (summary.length ≤ offset + chunkSize)),
    ("msg", .str ((summary.drop offset).take chunkSize))]

/-- The number of chunks. -/
def chunkCount (summary : Bytes) : Nat := (summary.length + chunkSize - 1) / chunkSize

def deliverSummaryChunks (session : SessionId) (requestId summary : Bytes)
    (history : List StoredMessage) : RouterM Unit := do
  deliver session (summaryStart requestId)
  Cmd.each (List.range (chunkCount summary)) fun chunkIndex =>
    deliverContent session (summaryChunk requestId summary chunkIndex) fun _ => quoted history

/-! ## Helpers of the handlers -/

/-- `authenticatedUserId`; the request and the field name are not used. -/
def authenticatedUserId (session : SessionId) : RouterM Int32 :=
  Cmd.asks fun st => if (st.pool.object session).authenticated then st.userId session else 0

/-- `nowSeconds`. -/
def nowSeconds : RouterM Int64 := onDb (Database.time env)

def deliverToConversation (payload : Object) (senderId toId groupId : Int32)
    (carries : Server → List StoredMessage) : RouterM Unit :=
  if 0 < groupId then do
    let members ← onDb (ChannelRepository.members env groupId)
    Cmd.each members fun memberId => deliverToUser memberId payload carries
  else do
    deliverToUser senderId payload carries
    Cmd.when (0 < toId ∧ toId ≠ senderId) (deliverToUser toId payload carries)

def offlineReply (offline : List StoredMessage) : Object :=
  object [("type", ofInt32 MsgType.OfflineMessages.toInt), ("messages", .arr (messagesToArray offline))]

/-- `offlineForUser` is called with its default limit. -/
def deliverOffline (session : SessionId) (userId : Int32) : RouterM Unit := do
  let offline ← onDb (MessageRepository.offlineForUser env userId 100)
  if offline = [] then pure ()
  else deliverContent session (offlineReply offline) fun _ => offline

/-- The payload of `broadcastPresence`. -/
def presencePayload (online : Bool) (user : UserInfo) (userId : Int32) : Object :=
  object [("type", ofInt32 MsgType.FriendOnline.toInt), ("friendId", ofInt32 userId),
    ("status", text (if online then "ok" else "failed")), ("nickname", .str user.nickname),
    ("headId", ofInt32 user.avatar_id)]

def broadcastPresence (type : MsgType) (userId : Int32) : RouterM Unit := do
  let user ← onDb (UserRepository.findById env userId)
  match user with
  | none => pure ()
  | some user => do
    let friends ← onDb (FriendRepository.getFriends env userId)
    Cmd.each friends fun friend =>
      deliverToUser friend.id (presencePayload (type = .UserOnline) user userId) fun _ => []

/-! ## Accounts -/

def registeredReply (id : Int32) : Object :=
  object [("type", ofInt32 MsgType.RegisterUserReturn.toInt), ("status", text "ok"),
    ("id", ofInt32 id), ("msg", text "registered")]

def handleRegister (session : SessionId) (request : Object) : RouterM Unit := do
  let nickname := stringField request "nickname" (stringField request "name" [])
  let password := stringField request "password" []
  let avatarId := intField request "headId" 0
  if nickname = [] ∨ password = [] then
    deliver session (errorReply .RegisterUserReturn 400 "nickname and password required")
  else do
    let id ← onDb (UserRepository.create env password nickname avatarId)
    if id ≤ 0 then
      deliver session (errorReply .RegisterUserReturn 409 "nickname taken or invalid")
    else deliver session (registeredReply id)

def loginReply (user : UserInfo) (uid : Int32) (friends users groups : List Value) : Object :=
  object [("type", ofInt32 MsgType.LoginSuccessReturn.toInt), ("id", ofInt32 uid),
    ("nickname", .str user.nickname), ("headId", ofInt32 user.avatar_id),
    ("friends", .arr friends), ("users", .arr users), ("groups", .arr groups)]

/-- `handleLogin` from the point where the credentials have been accepted. -/
def acceptLogin (session : SessionId) (uid : Int32) (user : UserInfo) : RouterM Unit := do
  modifyPool fun pool => (pool.bindUser session uid).2
  modifyPresence fun presence => presence.setOnline uid
  onDb (UserRepository.setOnlineStatus env uid true)
  let presence ← Cmd.asks fun st => st.presence
  let knownUsers ← onDb (UserRepository.getAllUsers env)
  let friendUsers ← onDb (FriendRepository.getFriends env uid)
  let groups ← onDb (ChannelRepository.groupsForUser env uid)
  deliver session (loginReply user uid
    (friendUsers.map fun u => .obj (friendToJson u (presence.status u.id)))
    (knownUsers.map fun u => .obj (userToJson u (presence.status u.id)))
    (groups.map fun g => .obj (groupToJson g)))
  deliverOffline env session uid
  broadcastPresence env .UserOnline uid

def handleLogin (session : SessionId) (request : Object) : RouterM Unit := do
  let uid := intField request "id" 0
  let password := stringField request "password" []
  if uid ≤ 0 then deliver session (errorReply .LoginFailedReturn 401 "invalid credentials")
  else do
    let verified ← onDb (UserRepository.verifyPassword env uid password)
    if !verified then deliver session (errorReply .LoginFailedReturn 401 "invalid credentials")
    else do
      let user ← onDb (UserRepository.findById env uid)
      match user with
      | none => deliver session (errorReply .LoginFailedReturn 404 "user not found")
      | some user => acceptLogin env session uid user

def handleLogout (session : SessionId) : RouterM Unit := do
  let uid ← authenticatedUserId session
  Cmd.when (0 < uid) do
    modifyPresence fun presence => presence.setOffline uid
    onDb (UserRepository.setOnlineStatus env uid false)
    modifyPool fun pool => pool.unbindUser uid
    broadcastPresence env .UserOffline uid
  deliver session (okReply .SystemBroadcast "logged out")

/-! ## Messages -/

def handlePrivateMessage (session : SessionId) (request : Object) : RouterM Unit := do
  let fromId ← authenticatedUserId session
  let toId := intField request "toId" 0
  let content := stringField request "msg" []
  let contentType := stringField request "content_type" (lit "text")
  if fromId ≤ 0 ∨ toId ≤ 0 ∨ content = [] then
    deliver session (errorReply .SystemBroadcast 400 "fromId, toId and msg required")
  else do
    let target ← findByUserId toId
    let message ←
      onDb (MessageRepository.savePrivate env fromId toId content contentType target.isSome)
    let payload := messageToJson .ReceiveMsg message
    deliverIfFound target payload fun _ => [message]
    deliverContent session payload fun _ => [message]

def handleGroupMessage (session : SessionId) (request : Object) : RouterM Unit := do
  let fromId ← authenticatedUserId session
  let groupId := intField request "groupId" 0
  let content := stringField request "msg" []
  let contentType := stringField request "content_type" (lit "text")
  if fromId ≤ 0 ∨ groupId ≤ 0 ∨ content = [] then
    deliver session (errorReply .SystemBroadcast 400 "fromId, groupId and msg required")
  else do
    let message ← onDb (MessageRepository.saveGroup env fromId groupId content contentType)
    let members ← onDb (ChannelRepository.members env groupId)
    Cmd.each members fun memberId =>
      deliverToUser memberId (messageToJson .ReceiveGroupMsg message) fun _ => [message]

/-! ## Groups -/

def createdReply (group : ChannelInfo) : Object :=
  ((groupToJson group).put (lit "type") (ofInt32 MsgType.CreateGroupReturn.toInt)).put
    (lit "status") (text "ok")

def handleCreateGroup (session : SessionId) (request : Object) : RouterM Unit := do
  let hostId ← authenticatedUserId session
  let name := stringField request "name" []
  if hostId ≤ 0 ∨ name = [] then
    deliver session (errorReply .CreateGroupReturn 400 "hostId and name required")
  else do
    let group ← onDb (ChannelRepository.createGroup env hostId name)
    deliver session (createdReply group)

def groupsReply (groups : List ChannelInfo) : Object :=
  object [("type", ofInt32 MsgType.SearchGroupReturn.toInt), ("status", text "ok"),
    ("groups", .arr (groups.map fun g => .obj (groupToJson g)))]

def handleSearchGroup (session : SessionId) (request : Object) : RouterM Unit := do
  let keyword := stringField request "name" []
  let limit := intField request "limit" 20
  let groups ← onDb (ChannelRepository.searchGroups env keyword limit)
  deliver session (groupsReply groups)

/-- The loop of `handleJoinGroup` over the members: those that are users, with their ids. -/
def memberUsers : List Int32 → DbM (List (Int32 × UserInfo))
  | [] => pure []
  | memberId :: rest => do
    let user ← UserRepository.findById env memberId
    let users ← memberUsers rest
    pure ((user.map fun u => (memberId, u)).toList ++ users)

def joinedReply (groupId : Int32) (members : List (Int32 × UserInfo))
    (presence : PresenceManager) : Object :=
  object [("type", ofInt32 MsgType.JoinGroupReturn.toInt), ("status", text "ok"),
    ("groupId", ofInt32 groupId),
    ("users", .arr (members.map fun m => .obj (userToJson m.2 (presence.status m.1))))]

def handleJoinGroup (session : SessionId) (request : Object) : RouterM Unit := do
  let userId ← authenticatedUserId session
  let groupId := intField request "groupId" 0
  let joined ← onDb (ChannelRepository.join env userId groupId)
  if !joined then deliver session (errorReply .JoinGroupReturn 404 "group not found")
  else do
    let memberIds ← onDb (ChannelRepository.members env groupId)
    let members ← onDb (memberUsers env memberIds)
    let presence ← Cmd.asks fun st => st.presence
    deliver session (joinedReply groupId members presence)

def handleLeaveGroup (session : SessionId) (request : Object) : RouterM Unit := do
  let userId ← authenticatedUserId session
  let groupId := intField request "groupId" 0
  let _ ← onDb (ChannelRepository.leave env userId groupId)
  deliver session (okReply .SystemBroadcast "left group")

/-! ## History -/

def historyReply (history : List StoredMessage) : Object :=
  object [("type", ofInt32 MsgType.HistoryResponse.toInt),
    ("messages", .arr (messagesToArray history)), ("has_more", .bool false)]

/-- The repository calls of `handleHistory`. -/
def requestedHistory (userId : Int32) (request : Object) : DbM (List StoredMessage) := do
  let toId := intField request "toId" 0
  let groupId := intField request "groupId" 0
  let limit := max 1 (intField request "limit" 100)
  let readMsgId := int64Field request "msg_id" 0
  Cmd.when (0 < readMsgId) do
    -- the reader is left at its default
    let _ ← MessageRepository.markRead env readMsgId 0
    pure ()
  if 0 < groupId then MessageRepository.groupHistory env groupId limit
  else if 0 < userId ∧ 0 < toId then MessageRepository.privateHistory env userId toId limit
  else pure []

def handleHistory (session : SessionId) (request : Object) : RouterM Unit := do
  let userId ← authenticatedUserId session
  let history ← onDb (requestedHistory env userId request)
  deliverContent session (historyReply history) fun _ => history

/-! ## Files -/

def fileDoneReply (fileHash : Bytes) : Object :=
  object [("type", ofInt32 MsgType.FileTransferDone.toInt), ("status", text "ok"),
    ("file_hash", .str fileHash), ("msg", text "file metadata delivered")]

/-- The copy of a file request that the recipients get. -/
def incomingFile (request : Object) : Object :=
  request.put (lit "type") (ofInt32 MsgType.ReceiveFile.toInt)

def handleFileTransfer (session : SessionId) (request : Object) : RouterM Unit := do
  let fromId ← authenticatedUserId session
  let toId := intField request "toId" 0
  let groupId := intField request "groupId" 0
  let fileName := stringField request "file_name" []
  let fileHash := stringField request "file_hash" []
  if fromId ≤ 0 ∨ fileName = [] ∨ fileHash = [] ∨ (toId ≤ 0 ∧ groupId ≤ 0) then
    deliver session
      (errorReply .FileTransferDone 400 "fromId, target and file metadata required")
  else do
    deliverToConversation env (incomingFile request) fromId toId groupId fun _ => []
    deliver session (fileDoneReply fileHash)

/-! ## Changes of a message -/

/-- The stored messages with this id and author, as the table holds them now. -/
def storedMessages (msgId : Int64) (fromId : Int32) (st : Server) : List StoredMessage :=
  ((st.cached .messages).filter fun row =>
    MessageRepository.hasMsgId msgId row && rowInt row "from_id" = fromId).map
      MessageRepository.fromRow

/-- The status of an answer. -/
def statusText (ok : Bool) : Value := text (if ok then "ok" else "error")

def editReply (ok : Bool) (msgId : Int64) (fromId : Int32) (content : Bytes) (now : Int64)
    (toId groupId : Int32) : Object :=
  object ([("type", ofInt32 MsgType.MessageEditReturn.toInt), ("status", statusText ok),
      ("msg_id", .int msgId), ("fromId", ofInt32 fromId),
      ("msg", if ok then .str content else text "message edit failed"), ("edited_at", .int now)]
    ++ targetFields toId groupId)

def deleteReply (ok : Bool) (msgId : Int64) (fromId : Int32) (now : Int64)
    (toId groupId : Int32) : Object :=
  object ([("type", ofInt32 MsgType.MessageDeleteReturn.toInt), ("status", statusText ok),
      ("msg_id", .int msgId), ("fromId", ofInt32 fromId),
      ("msg", text (if ok then "deleted" else "message delete failed")), ("deleted_at", .int now)]
    ++ targetFields toId groupId)

def reactionReply (ok : Bool) (msgId : Int64) (fromId : Int32) (reaction : Bytes)
    (toId groupId : Int32) : Object :=
  object ([("type", ofInt32 MsgType.MessageReactionReturn.toInt), ("status", statusText ok),
      ("msg_id", .int msgId), ("fromId", ofInt32 fromId), ("reaction", .str reaction),
      ("msg", text (if ok then "reaction added" else "reaction failed"))]
    ++ targetFields toId groupId)

/-- The answer goes to the conversation named in the request, or to the
requester when the change failed. -/
def answerChange (session : SessionId) (ok : Bool) (payload : Object)
    (fromId toId groupId : Int32) (carries : Server → List StoredMessage) : RouterM Unit :=
  if ok then deliverToConversation env payload fromId toId groupId carries
  else deliver session payload

def handleMessageEdit (session : SessionId) (request : Object) : RouterM Unit := do
  let fromId ← authenticatedUserId session
  let msgId := int64Field request "msg_id" 0
  let content := stringField request "msg" []
  let toId := intField request "toId" 0
  let groupId := intField request "groupId" 0
  let ok ← Cmd.andAlso (0 < fromId ∧ 0 < msgId) <|
    onDb (MessageRepository.edit env msgId fromId content)
  let now ← nowSeconds env
  answerChange env session ok (editReply ok msgId fromId content now toId groupId) fromId toId
    groupId (storedMessages msgId fromId)

def handleMessageDelete (session : SessionId) (request : Object) : RouterM Unit := do
  let fromId ← authenticatedUserId session
  let msgId := int64Field request "msg_id" 0
  let toId := intField request "toId" 0
  let groupId := intField request "groupId" 0
  let ok ← Cmd.andAlso (0 < fromId ∧ 0 < msgId) <|
    onDb (MessageRepository.softDelete env msgId fromId)
  let now ← nowSeconds env
  answerChange env session ok (deleteReply ok msgId fromId now toId groupId) fromId toId groupId
    fun _ => []

def handleMessageReaction (session : SessionId) (request : Object) : RouterM Unit := do
  let fromId ← authenticatedUserId session
  let msgId := int64Field request "msg_id" 0
  let reaction := stringField request "reaction" []
  let toId := intField request "toId" 0
  let groupId := intField request "groupId" 0
  let ok ← Cmd.andAlso (0 < fromId ∧ 0 < msgId) <|
    onDb (MessageRepository.addReaction env msgId fromId reaction)
  answerChange env session ok (reactionReply ok msgId fromId reaction toId groupId) fromId toId
    groupId fun _ => []

def receiptPayload (request : Object) (fromId : Int32) (now : Int64) : Object :=
  ((request.put (lit "type") (ofInt32 MsgType.ReadReceipt.toInt)).put
    (lit "read_by") (ofInt32 fromId)).put (lit "read_at") (.int now)

def handleReadReceipt (session : SessionId) (request : Object) : RouterM Unit := do
  let fromId ← authenticatedUserId session
  let msgId := int64Field request "msg_id" 0
  let toId := intField request "toId" 0
  let groupId := intField request "groupId" 0
  let marked ← Cmd.andAlso (0 < fromId ∧ 0 < msgId) <|
    onDb (MessageRepository.markRead env msgId fromId)
  if !marked then deliver session (errorReply .SystemBroadcast 400 "read receipt failed")
  else do
    let now ← nowSeconds env
    deliverToConversation env (receiptPayload request fromId now) fromId toId groupId fun _ => []

/-! ## Protocol version -/

def helloReply (compatible : Bool) : Object :=
  object ([("type", ofInt32 MsgType.ProtocolHello.toInt), ("version", .int 2),
      ("min_version", .int 1), ("status", statusText compatible)]
    ++ (if compatible then [] else [("msg", text "incompatible protocol version")])
    ++ [("features", .arr (["message_edit", "message_delete", "message_reaction", "read_receipt",
      "file_metadata", "profile_update"].map text))])

def handleProtocolHello (session : SessionId) (request : Object) : RouterM Unit := do
  let clientVersion := intField request "version" 1
  let clientMinVersion := intField request "min_version" clientVersion
  deliver session (helloReply (1 ≤ clientVersion && clientMinVersion ≤ 2))

/-! ## AI requests -/

/-- `std::stoi`: white space, a sign and digits at the start of the string.
`none` is an exception. -/
def stoi (s : Bytes) : Option Int32 :=
  let s := s.dropWhile fun c => c = 32 || (9 ≤ c && c ≤ 13)
  let neg := s.head? = some Ascii.minus
  let s := if neg || s.head? = some 43 then s.tail else s
  let digits := s.takeWhile isDigit
  let n : Int := if neg then -natOf digits else natOf digits
  if digits = [] then none
  else if -2 ^ 31 ≤ n ∧ n < 2 ^ 31 then some (Int32.ofInt n)
  else none

/-- What a summary is asked of. -/
inductive SummaryTarget where
  | group (groupId : Int32)
  | direct (peerId : Int32)
  | nothing
  | invalid

/-- The target in the query of a summary request by `userId`. -/
def summaryTarget (query : Bytes) (userId : Int32) : SummaryTarget :=
  if (lit "group:").isPrefixOf query then
    match stoi (query.drop 6) with
    | some groupId => .group groupId
    | none => .invalid
  else if (lit "direct:").isPrefixOf query && 0 < userId then
    match stoi (query.drop 7) with
    | some peerId => .direct peerId
    | none => .invalid
  else .nothing

def searchReply (requestId query : Bytes) (messages : List StoredMessage) : Object :=
  object [("type", ofInt32 MsgType.AIResponse.toInt), ("request_id", .str requestId),
    ("status", text "done"),
    ("msg", .str (serialize
      (object [("query", .str query), ("messages", .arr (messagesToArray messages))])))]

/-- The answer to a summary request over this history. -/
def summarize (session : SessionId) (requestId : Bytes) (history : List StoredMessage) :
    RouterM Unit :=
  deliverSummaryChunks session requestId (summarizeMessages history) history

/-- A `try` block around a query: `none` when it throws. -/
def orNone {α : Type} (c : DbM α) : DbM (Option α) := fun db =>
  match (c db).result with
  | .ok a => ⟨.ok (some a), (c db).state, []⟩
  | .error _ => ⟨.ok none, (c db).state, []⟩

/-- The history that a summary is made of; `none` when evaluating the target or
the query throws. -/
def summaryHistory (userId : Int32) (query : Bytes) : DbM (Option (List StoredMessage)) :=
  match summaryTarget query userId with
  | .group groupId => orNone (MessageRepository.groupHistory env groupId 50)
  | .direct peerId => orNone (MessageRepository.privateHistory env userId peerId 50)
  | .nothing => pure (some [])
  | .invalid => pure none

def handleSummarize (session : SessionId) (requestId query : Bytes) : RouterM Unit := do
  let userId ← authenticatedUserId session
  let history ← onDb (summaryHistory env userId query)
  match history with
  | some history => summarize session requestId history
  | none => deliver session (errorReply .AIResponse 400 "invalid summarize target")

def handleAIRequest (session : SessionId) (request : Object) : RouterM Unit := do
  let requestId := stringField request "request_id" (lit "search")
  let aiType := stringField request "ai_type" []
  let query := stringField request "msg" []
  if aiType = lit "summarize" then handleSummarize env session requestId query
  else if aiType ≠ lit "search" then
    deliver session (errorReply .AIResponse 501 "unsupported AI request type")
  else do
    let messages ← onDb (MessageRepository.search env query (intField request "limit" 50))
    deliverContent session (searchReply requestId query messages) fun _ => messages

/-! ## Friends -/

def friendAck (fromId toId : Int32) (ok : Bool) : Object :=
  object ([("type", ofInt32 MsgType.FriendRequestAck.toInt),
      ("requestId", .str (intText fromId.toInt64 ++ Ascii.colon :: intText toId.toInt64))]
    ++ (if ok then [("status", text "ok"), ("msg", text "request sent")]
      else [("status", text "error"), ("msg", text "friend request failed"), ("code", .int 400)]))

def friendNotice (fromId toId : Int32) (msg : Bytes) : Object :=
  object [("type", ofInt32 MsgType.FriendRequest.toInt), ("fromId", ofInt32 fromId),
    ("toId", ofInt32 toId), ("msg", .str msg)]

def handleFriendRequest (session : SessionId) (request : Object) : RouterM Unit := do
  let fromId ← authenticatedUserId session
  let toId := intField request "toId" 0
  let msg := stringField request "msg" []
  let sent ← Cmd.andAlso (0 < fromId ∧ 0 < toId) <|
    onDb (FriendRepository.sendRequest env fromId toId msg)
  if !sent then deliver session (friendAck fromId toId false)
  else do
    deliver session (friendAck fromId toId true)
    deliverToUser toId (friendNotice fromId toId msg) fun _ => []

def acceptReply (ok : Bool) (friendId : Int32) (friendUser : Option UserInfo) : Object :=
  object ([("type", ofInt32 MsgType.FriendAcceptReturn.toInt), ("status", statusText ok),
      ("friendId", ofInt32 friendId)]
    ++ (match friendUser with
      | some u => [("nickname", .str u.nickname), ("headId", ofInt32 u.avatar_id)]
      | none => [])
    ++ (if ok then [] else [("msg", text "accept failed"), ("code", .int 400)]))

def handleFriendAccept (session : SessionId) (request : Object) : RouterM Unit := do
  let toId ← authenticatedUserId session
  let fromId := intField request "fromId" 0
  let ok ← Cmd.andAlso (0 < fromId ∧ 0 < toId) <|
    onDb (FriendRepository.acceptRequest env fromId toId)
  let fromUser ← onDb (UserRepository.findById env fromId)
  let toUser ← onDb (UserRepository.findById env toId)
  deliver session (acceptReply ok fromId fromUser)
  deliverToUser fromId (acceptReply ok toId toUser) fun _ => []

def removeReply (ok rejected : Bool) (removedId : Int32) : Object :=
  object ([("type", ofInt32 MsgType.FriendRemoveReturn.toInt), ("status", statusText ok),
      ("friendId", ofInt32 removedId)]
    ++ (if rejected then [("msg", text "request rejected")] else [])
    ++ (if ok then [] else [("msg", text "remove failed"), ("code", .int 400)]))

/-- The repository calls of `handleFriendRemove`: whether a pending request was
rejected, and whether anything was changed. -/
def rejectOrRemove (uid fromId toId : Int32) : DbM (Bool × Bool) :=
  if uid ≤ 0 ∨ fromId ≤ 0 ∨ toId ≤ 0 then pure (false, false)
  else do
    let rejectedPending ←
      Cmd.andAlso (uid = toId) (FriendRepository.rejectRequest env fromId toId)
    if rejectedPending then pure (true, true)
    else do
      let removed ← FriendRepository.removeFriendship env fromId toId
      pure (false, removed)

def handleFriendRemove (session : SessionId) (request : Object) : RouterM Unit := do
  let uid ← authenticatedUserId session
  let fromId := intField request "fromId" 0
  let toId := intField request "toId" 0
  let friendId := if uid = fromId then toId else fromId
  let (rejectedPending, ok) ← onDb (rejectOrRemove env uid fromId toId)
  deliver session (removeReply ok rejectedPending friendId)
  deliverToUser friendId (removeReply ok rejectedPending uid) fun _ => []

def friendListReply (friends : List UserInfo) (presence : PresenceManager) : Object :=
  object [("type", ofInt32 MsgType.FriendListReturn.toInt),
    ("friends", .arr (friends.map fun u => .obj (friendToJson u (presence.status u.id))))]

def handleFriendList (session : SessionId) : RouterM Unit := do
  let uid ← authenticatedUserId session
  let friends ← onDb (FriendRepository.getFriends env uid)
  let presence ← Cmd.asks fun st => st.presence
  deliver session (friendListReply friends presence)

/-! ## Typing, profile -/

def handleSystemBroadcast (session : SessionId) (request : Object) : RouterM Unit := do
  let event := stringField request "event" []
  if event ≠ lit "typing" then
    deliver session (okReply .SystemBroadcast "broadcast ignored")
  else do
    let fromId ← authenticatedUserId session
    if fromId ≤ 0 then
      deliver session (errorReply .SystemBroadcast 401 "typing requires authenticated sender")
    else do
      let toId := intField request "toId" 0
      let groupId := intField request "groupId" 0
      if 0 < toId then deliverToUser toId request fun _ => []
      else if 0 < groupId then do
        let members ← onDb (ChannelRepository.members env groupId)
        Cmd.each (members.filter fun memberId => memberId ≠ fromId) fun memberId =>
          deliverToUser memberId request fun _ => []
      else pure ()

def handleProfileUpdate (session : SessionId) (request : Object) : RouterM Unit := do
  let userId ← authenticatedUserId session
  let nickname := stringField request "nickname" []
  let avatarId := intField request "headId" 0
  if userId ≤ 0 ∨ nickname = [] then
    deliver session (errorReply .SystemBroadcast 400 "id and nickname required")
  else do
    let found ← onDb (UserRepository.updateProfile env userId nickname avatarId)
    if !found then deliver session (errorReply .SystemBroadcast 404 "user not found")
    else deliver session (okReply .SystemBroadcast "profile updated")

/-! ## Dispatch -/

/-- The `switch` of `route`. -/
def dispatch (session : SessionId) (request : Object) : RouterM Unit :=
  match typeField request with
  | some .RegisterUser => handleRegister env session request
  | some .Login => handleLogin env session request
  | some .Logout => handleLogout env session
  | some .SendMsg => handlePrivateMessage env session request
  | some .SendGroupMsg => handleGroupMessage env session request
  | some .SendFile => handleFileTransfer env session request
  | some .CreateGroup => handleCreateGroup env session request
  | some .SearchGroup => handleSearchGroup env session request
  | some .JoinGroup => handleJoinGroup env session request
  | some .LeaveGroup => handleLeaveGroup env session request
  | some .RequestHistory => handleHistory env session request
  | some .AIRequest => handleAIRequest env session request
  | some .UserProfileUpdate => handleProfileUpdate env session request
  | some .FriendRequest => handleFriendRequest env session request
  | some .FriendAccept => handleFriendAccept env session request
  | some .FriendRemove => handleFriendRemove env session request
  | some .FriendList => handleFriendList env session
  | some .SystemBroadcast => handleSystemBroadcast env session request
  | some .MessageEdit => handleMessageEdit env session request
  | some .MessageDelete => handleMessageDelete env session request
  | some .MessageReaction => handleMessageReaction env session request
  | some .ReadReceipt => handleReadReceipt env session request
  | some .ProtocolHello => handleProtocolHello session request
  | _ => deliver session (okReply .SystemBroadcast "server-next v1.2.0 routed frame")

/-- `route`. A text that is nested too deeply has ended the process in `parseObject`. -/
def route (session : SessionId) (json : Bytes) : RouterM Unit :=
  if overflows env.stack json then Cmd.throw (.json .stackOverflow)
  else
    match parseObject env.stack json with
    | none => deliver session (errorReply .SystemBroadcast 400 "invalid json")
    | some request => dispatch env session request

theorem route_of_some {session : SessionId} {json : Bytes} {request : Object}
    (h : parseObject env.stack json = some request) : route env session json = dispatch env session request := by
  have hroom : ¬overflows env.stack json = true := by
    rw [overflows, parseObject_eq_some.mp h]
    exact Bool.false_ne_true
  rw [route, if_neg hroom, h]

/-- The text is nested too deeply, or no object, or a request. -/
theorem route_cases (session : SessionId) (json : Bytes) :
    (Nested .element env.stack json ∧ parseObject env.stack json = none ∧
      route env session json = Cmd.throw (.json .stackOverflow)) ∨
    (¬Nested .element env.stack json ∧ parseObject env.stack json = none ∧ readObject json = none ∧
      route env session json = deliver session (errorReply .SystemBroadcast 400 "invalid json")) ∨
    ∃ request, ¬Nested .element env.stack json ∧ parseObject env.stack json = some request ∧
      readObject json = some request ∧ route env session json = dispatch env session request := by
  unfold route
  by_cases hnested : Nested .element env.stack json
  · refine .inl ⟨hnested, ?_, if_pos (overflows_iff.mpr hnested)⟩
    rw [parseObject, overflow_iff.mpr hnested]
  · rw [if_neg fun hover => hnested (overflows_iff.mp hover), ← parseObject_eq_readObject hnested]
    cases hparse : parseObject env.stack json with
    | none => exact .inr (.inl ⟨hnested, rfl, rfl, rfl⟩)
    | some request => exact .inr (.inr ⟨request, hnested, rfl, rfl, rfl⟩)

/-- What holds of each way that a text is routed. -/
theorem route_rule {P : RouterM Unit → Prop} {session : SessionId} {json : Bytes}
    (hnested : P (Cmd.throw (.json .stackOverflow)))
    (hnone : P (deliver session (errorReply .SystemBroadcast 400 "invalid json")))
    (hsome : ∀ request, parseObject env.stack json = some request → P (dispatch env session request)) :
    P (route env session json) := by
  obtain ⟨-, -, hroute⟩ | ⟨-, -, -, hroute⟩ | ⟨request, -, hparse, -, hroute⟩ := route_cases env session json
  · rwa [hroute]
  · rwa [hroute]
  · rw [hroute]
    exact hsome request hparse

end MessageRouter

end LanChat
