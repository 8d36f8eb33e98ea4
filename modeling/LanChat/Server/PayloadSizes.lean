import LanChat.Json.TextLength
import LanChat.Server.MessageRouter

/-!
# How long the payloads are

For every payload whose length depends on the request or on stored rows, its
length as a sum over these data: the texts as they are quoted, the digits of the
numbers, and a constant for the keys. `fits_`: the other payloads fit a frame
whatever the data are.
-/

namespace LanChat

open Lib Json

namespace MessageRouter

/-! ## Parts -/

/-- The digits of a number, with its sign. -/
def digits (i : Int64) : Nat := (intText i).length

def boolLength (b : Bool) : Nat := if b then 4 else 5

theorem digits_le (i : Int64) : digits i ≤ 20 := length_intText_le i

@[simp] theorem length_serialize_int (i : Int64) : (Value.int i).serialize.length = digits i := by
  rw [Value.serialize, digits]

@[simp] theorem length_serialize_ofInt32 (n : Int32) : (ofInt32 n).serialize.length = digits n.toInt64 :=
  length_serialize_int _

@[simp] theorem length_serialize_str (s : Bytes) : (Value.str s).serialize.length = quotedLength s := by
  rw [Value.serialize, length_serializeString]

@[simp] theorem length_serialize_text (s : String) : (text s).serialize.length = quotedLength (lit s) :=
  length_serialize_str _

@[simp] theorem length_serialize_bool (b : Bool) : (Value.bool b).serialize.length = boolLength b := by
  cases b <;> rw [Value.serialize] <;> rfl

@[simp] theorem length_serialize_array (a : List Value) :
    (Value.arr a).serialize.length = arrayLength (a.map fun v => v.serialize.length) := length_serialize_arr a

/-- The optional `toId` and `groupId` at the end of an answer. -/
def targetBytes (toId groupId : Int32) : Nat :=
  (if 0 < toId then 8 + digits toId.toInt64 else 0) + if 0 < groupId then 11 + digits groupId.toInt64 else 0

def userBytes (user : UserInfo) (status : Bytes) : Nat :=
  39 + digits user.id.toInt64 + quotedLength user.nickname + digits user.avatar_id.toInt64 + quotedLength status

theorem length_userToJson (user : UserInfo) (status : Bytes) :
    (serialize (userToJson user status)).length = userBytes user status := by
  refine Eq.trans (length_serialize_object 38 ["id", "nickname", "headId", "status"] rfl (by decide)) ?_
  simp only [valuesLength_cons, valuesLength_nil, length_serialize_ofInt32, length_serialize_str, userBytes]
  omega

def groupBytes (group : ChannelInfo) : Nat :=
  30 + digits group.group_id.toInt64 + quotedLength group.name + digits group.host_id.toInt64

theorem length_groupToJson (group : ChannelInfo) : (serialize (groupToJson group)).length = groupBytes group := by
  refine Eq.trans (length_serialize_object 29 ["groupId", "name", "hostId"] rfl (by decide)) ?_
  simp only [valuesLength_cons, valuesLength_nil, length_serialize_ofInt32, length_serialize_str, groupBytes]
  omega

/-! ## Messages -/

/-- A message, as the answers of this type have it. -/
def messageBytes (type : MsgType) (m : StoredMessage) : Nat :=
  121 + digits type.toInt.toInt64 + digits m.msg_id + digits m.from_id.toInt64 + targetBytes m.to_id m.group_id
    + quotedLength m.content + quotedLength m.content_type + digits m.timestamp + boolLength m.read
    + boolLength m.edited + boolLength m.deleted + digits m.edited_at + digits m.deleted_at
    + if m.reactions = [] then 0 else 13 + quotedLength m.reactions

theorem sublist_targetFields (toId groupId : Int32) :
    ((targetFields toId groupId).map Prod.fst).Sublist ["toId", "groupId"] := by
  unfold targetFields
  split <;> split <;> simp

theorem fieldsLength_targetFields (toId groupId : Int32) :
    fieldsLength (targetFields toId groupId) = targetBytes toId groupId := by
  have hto : keysLength ["toId"] = 8 := by decide
  have hgroup : keysLength ["groupId"] = 11 := by decide
  have hboth : keysLength ["toId", "groupId"] = 19 := by decide
  unfold targetFields targetBytes fieldsLength
  split <;> split <;> simp [hto, hgroup, hboth]
  omega

/-- The optional `reactions` of a message. -/
def reactionFields (reactions : Bytes) : List (String × Value) :=
  if reactions = [] then [] else [("reactions", .str reactions)]

theorem sublist_optionalFields (m : StoredMessage) :
    ((targetFields m.to_id m.group_id ++ reactionFields m.reactions).map Prod.fst).Sublist
      ["toId", "groupId", "reactions"] := by
  have hreactions : ((reactionFields m.reactions).map Prod.fst).Sublist ["reactions"] := by
    unfold reactionFields
    split <;> simp
  rw [List.map_append]
  exact (sublist_targetFields _ _).append hreactions

theorem fieldsLength_reactionFields (reactions : Bytes) :
    fieldsLength (reactionFields reactions) = if reactions = [] then 0 else 13 + quotedLength reactions := by
  have hkey : keysLength ["reactions"] = 13 := by decide
  unfold reactionFields fieldsLength
  split <;> simp [hkey]

/-- The optional fields moved behind the others. -/
theorem perm_optional {α : Type} (head target rest reactions : List α) :
    (head ++ target ++ rest ++ reactions).Perm (head ++ rest ++ (target ++ reactions)) := by
  have hswap : (target ++ rest ++ reactions).Perm (rest ++ target ++ reactions) :=
    List.perm_append_comm.append_right reactions
  simp only [List.append_assoc] at hswap ⊢
  exact hswap.append_left head

theorem length_messageToJson (type : MsgType) (m : StoredMessage) :
    (serialize (messageToJson type m)).length = messageBytes type m := by
  have hfields : messageToJson type m = object ([("type", ofInt32 type.toInt), ("msg_id", .int m.msg_id),
      ("fromId", ofInt32 m.from_id)] ++ targetFields m.to_id m.group_id ++ [("msg", .str m.content),
      ("content_type", .str m.content_type), ("timestamp", .int m.timestamp), ("read", .bool m.read),
      ("edited", .bool m.edited), ("deleted", .bool m.deleted), ("edited_at", .int m.edited_at),
      ("deleted_at", .int m.deleted_at)] ++ reactionFields m.reactions) := by
    simp only [messageToJson, targetFields, reactionFields, List.append_assoc]
  rw [hfields, length_serialize_optional 120 ["type", "msg_id", "fromId", "msg", "content_type", "timestamp", "read",
    "edited", "deleted", "edited_at", "deleted_at"] _ (perm_optional ..) rfl (sublist_optionalFields m) (by decide),
    fieldsLength_append, fieldsLength_targetFields, fieldsLength_reactionFields]
  simp only [messageBytes, List.cons_append, List.nil_append, valuesLength_cons, valuesLength_nil,
    length_serialize_ofInt32, length_serialize_int, length_serialize_str, length_serialize_bool]
  omega

/-- A message in an array. -/
def storedBytes (m : StoredMessage) : Nat := messageBytes (if 0 < m.group_id then .ReceiveGroupMsg else .ReceiveMsg) m

theorem length_messagesToArray (messages : List StoredMessage) :
    (Value.arr (messagesToArray messages)).serialize.length = arrayLength (messages.map storedBytes) := by
  rw [length_serialize_array, messagesToArray, List.map_map]
  refine congrArg arrayLength (List.map_congr_left fun m _ => ?_)
  exact length_messageToJson _ m

def offlineBytes (offline : List StoredMessage) : Nat := 23 + arrayLength (offline.map storedBytes)

theorem length_offlineReply (offline : List StoredMessage) :
    (serialize (offlineReply offline)).length = offlineBytes offline := by
  have htype : digits MsgType.OfflineMessages.toInt.toInt64 = 2 := by decide
  refine Eq.trans (length_serialize_object 20 ["type", "messages"] rfl (by decide)) ?_
  simp only [valuesLength_cons, valuesLength_nil, length_serialize_ofInt32, length_messagesToArray, htype, offlineBytes]
  omega

def historyBytes (history : List StoredMessage) : Nat := 40 + arrayLength (history.map storedBytes)

theorem length_historyReply (history : List StoredMessage) :
    (serialize (historyReply history)).length = historyBytes history := by
  have htype : digits MsgType.HistoryResponse.toInt.toInt64 = 2 := by decide
  have hmore : boolLength false = 5 := rfl
  refine Eq.trans (length_serialize_object 32 ["type", "messages", "has_more"] rfl (by decide)) ?_
  simp only [valuesLength_cons, valuesLength_nil, length_serialize_ofInt32, length_serialize_bool,
    length_messagesToArray, htype, hmore, historyBytes]
  omega

/-- The text that a search answer contains as a string. -/
def foundText (query : Bytes) (messages : List StoredMessage) : Bytes :=
  serialize (object [("query", .str query), ("messages", .arr (messagesToArray messages))])

def searchBytes (requestId query : Bytes) (messages : List StoredMessage) : Nat :=
  48 + quotedLength requestId + quotedLength (foundText query messages)

theorem length_searchReply (requestId query : Bytes) (messages : List StoredMessage) :
    (serialize (searchReply requestId query messages)).length = searchBytes requestId query messages := by
  have htype : digits MsgType.AIResponse.toInt.toInt64 = 2 := by decide
  have hdone : quotedLength (lit "done") = 6 := by decide
  refine Eq.trans (length_serialize_object 39 ["type", "request_id", "status", "msg"] rfl (by decide)) ?_
  simp only [valuesLength_cons, valuesLength_nil, length_serialize_ofInt32, length_serialize_str, length_serialize_text,
    htype, hdone, searchBytes, foundText]
  omega

def startBytes (requestId : Bytes) : Nat := 42 + quotedLength requestId

theorem length_summaryStart (requestId : Bytes) :
    (serialize (summaryStart requestId)).length = startBytes requestId := by
  have htype : digits MsgType.AIResponse.toInt.toInt64 = 2 := by decide
  have hstart : quotedLength (lit "start") = 7 := by decide
  refine Eq.trans (length_serialize_object 32 ["type", "request_id", "status"] rfl (by decide)) ?_
  simp only [valuesLength_cons, valuesLength_nil, length_serialize_ofInt32, length_serialize_str, length_serialize_text,
    htype, hstart, startBytes]
  omega

def chunkBytes (requestId summary : Bytes) (chunkIndex : Nat) : Nat :=
  59 + quotedLength requestId + digits (Int32.ofNat chunkIndex).toInt64
    + boolLength (summary.length ≤ chunkIndex * chunkSize + chunkSize)
    + quotedLength ((summary.drop (chunkIndex * chunkSize)).take chunkSize)

theorem length_summaryChunk (requestId summary : Bytes) (chunkIndex : Nat) :
    (serialize (summaryChunk requestId summary chunkIndex)).length = chunkBytes requestId summary chunkIndex := by
  have htype : digits MsgType.AIStreamChunk.toInt.toInt64 = 2 := by decide
  refine Eq.trans
    (length_serialize_object 56 ["type", "request_id", "chunk_index", "is_final", "msg"] rfl (by decide)) ?_
  simp only [valuesLength_cons, valuesLength_nil, length_serialize_ofInt32, length_serialize_str, length_serialize_bool,
    htype, chunkBytes]
  omega

def editBytes (msgId : Int64) (fromId : Int32) (content : Bytes) (now : Int64) (toId groupId : Int32) : Nat :=
  65 + digits msgId + digits fromId.toInt64 + quotedLength content + digits now + targetBytes toId groupId

theorem length_editReply (msgId : Int64) (fromId : Int32) (content : Bytes) (now : Int64) (toId groupId : Int32) :
    (serialize (editReply true msgId fromId content now toId groupId)).length =
      editBytes msgId fromId content now toId groupId := by
  have htype : digits MsgType.MessageEditReturn.toInt.toInt64 = 2 := by decide
  have hok : (statusText true).serialize.length = 4 := by decide
  rw [editReply, length_serialize_optional 58 ["type", "status", "msg_id", "fromId", "msg", "edited_at"] _ (.refl _) rfl
    (sublist_targetFields toId groupId) (by decide), fieldsLength_targetFields]
  simp only [valuesLength_cons, valuesLength_nil, length_serialize_ofInt32, length_serialize_int, length_serialize_str,
    if_true, htype, hok, editBytes]
  omega

def reactionBytes (ok : Bool) (msgId : Int64) (fromId : Int32) (reaction : Bytes) (toId groupId : Int32) : Nat :=
  60 + (if ok then 20 else 24) + digits msgId + digits fromId.toInt64 + quotedLength reaction + targetBytes toId groupId

theorem length_reactionReply (ok : Bool) (msgId : Int64) (fromId : Int32) (reaction : Bytes) (toId groupId : Int32) :
    (serialize (reactionReply ok msgId fromId reaction toId groupId)).length =
      reactionBytes ok msgId fromId reaction toId groupId := by
  have htype : digits MsgType.MessageReactionReturn.toInt.toInt64 = 2 := by decide
  have hstatus : (statusText ok).serialize.length + quotedLength (lit (if ok then "reaction added" else "reaction failed")) =
      if ok then 20 else 24 := by cases ok <;> decide
  rw [reactionReply, length_serialize_optional 57 ["type", "status", "msg_id", "fromId", "reaction", "msg"] _ (.refl _) rfl
    (sublist_targetFields toId groupId) (by decide), fieldsLength_targetFields]
  simp only [valuesLength_cons, valuesLength_nil, length_serialize_ofInt32, length_serialize_int, length_serialize_str,
    length_serialize_text, htype, reactionBytes]
  omega

/-! ## Users and groups -/

/-- The array of these users. -/
def usersBytes (presence : PresenceManager) (users : List UserInfo) : Nat :=
  arrayLength (users.map fun u => userBytes u (presence.status u.id))

theorem length_users (presence : PresenceManager) (users : List UserInfo) :
    (Value.arr (users.map fun u => .obj (userToJson u (presence.status u.id)))).serialize.length =
      usersBytes presence users := by
  rw [length_serialize_array, List.map_map]
  exact congrArg arrayLength (List.map_congr_left fun u _ => length_userToJson u _)

def groupsBytes (groups : List ChannelInfo) : Nat := arrayLength (groups.map groupBytes)

theorem length_groups (groups : List ChannelInfo) :
    (Value.arr (groups.map fun g => .obj (groupToJson g))).serialize.length = groupsBytes groups := by
  rw [length_serialize_array, List.map_map]
  exact congrArg arrayLength (List.map_congr_left fun g _ => length_groupToJson g)

def loginBytes (presence : PresenceManager) (user : UserInfo) (uid : Int32) (friends users : List UserInfo)
    (groups : List ChannelInfo) : Nat :=
  68 + digits uid.toInt64 + quotedLength user.nickname + digits user.avatar_id.toInt64 + usersBytes presence friends
    + usersBytes presence users + groupsBytes groups

theorem length_loginReply (presence : PresenceManager) (user : UserInfo) (uid : Int32) (friends users : List UserInfo)
    (groups : List ChannelInfo) :
    (serialize (loginReply user uid (friends.map fun u => .obj (friendToJson u (presence.status u.id)))
      (users.map fun u => .obj (userToJson u (presence.status u.id))) (groups.map fun g => .obj (groupToJson g)))).length =
        loginBytes presence user uid friends users groups := by
  have htype : digits MsgType.LoginSuccessReturn.toInt.toInt64 = 1 := by decide
  refine Eq.trans (length_serialize_object 66 ["type", "id", "nickname", "headId", "friends", "users", "groups"] rfl
    (by decide)) ?_
  simp only [valuesLength_cons, valuesLength_nil, length_serialize_ofInt32, length_serialize_str, friendToJson,
    length_users, length_groups, htype, loginBytes]
  omega

def presenceBytes (online : Bool) (user : UserInfo) (userId : Int32) : Nat :=
  55 + digits userId.toInt64 + (if online then 4 else 8) + quotedLength user.nickname + digits user.avatar_id.toInt64

theorem length_presencePayload (online : Bool) (user : UserInfo) (userId : Int32) :
    (serialize (presencePayload online user userId)).length = presenceBytes online user userId := by
  have htype : digits MsgType.FriendOnline.toInt.toInt64 = 2 := by decide
  have hstatus : quotedLength (lit (if online then "ok" else "failed")) = if online then 4 else 8 := by
    cases online <;> decide
  refine Eq.trans (length_serialize_object 52 ["type", "friendId", "status", "nickname", "headId"] rfl (by decide)) ?_
  simp only [valuesLength_cons, valuesLength_nil, length_serialize_ofInt32, length_serialize_str, length_serialize_text,
    htype, hstatus, presenceBytes]
  omega

def createdBytes (group : ChannelInfo) : Nat :=
  54 + digits group.group_id.toInt64 + quotedLength group.name + digits group.host_id.toInt64

theorem length_createdReply (group : ChannelInfo) : (serialize (createdReply group)).length = createdBytes group := by
  have htype : digits MsgType.CreateGroupReturn.toInt.toInt64 = 2 := by decide
  have hok : quotedLength (lit "ok") = 4 := by decide
  have hfields : createdReply group = object [("groupId", ofInt32 group.group_id), ("name", .str group.name),
      ("hostId", ofInt32 group.host_id), ("type", ofInt32 MsgType.CreateGroupReturn.toInt), ("status", text "ok")] := rfl
  rw [hfields, length_serialize_object 47 ["groupId", "name", "hostId", "type", "status"] rfl (by decide)]
  simp only [valuesLength_cons, valuesLength_nil, length_serialize_ofInt32, length_serialize_str, length_serialize_text,
    htype, hok, createdBytes]
  omega

def foundGroupsBytes (groups : List ChannelInfo) : Nat := 35 + groupsBytes groups

theorem length_groupsReply (groups : List ChannelInfo) :
    (serialize (groupsReply groups)).length = foundGroupsBytes groups := by
  have htype : digits MsgType.SearchGroupReturn.toInt.toInt64 = 2 := by decide
  have hok : quotedLength (lit "ok") = 4 := by decide
  refine Eq.trans (length_serialize_object 28 ["type", "status", "groups"] rfl (by decide)) ?_
  simp only [valuesLength_cons, valuesLength_nil, length_serialize_ofInt32, length_serialize_text, length_groups,
    htype, hok, foundGroupsBytes]
  omega

def joinedBytes (presence : PresenceManager) (groupId : Int32) (members : List (Int32 × UserInfo)) : Nat :=
  45 + digits groupId.toInt64 + arrayLength (members.map fun m => userBytes m.2 (presence.status m.1))

theorem length_joinedReply (presence : PresenceManager) (groupId : Int32) (members : List (Int32 × UserInfo)) :
    (serialize (joinedReply groupId members presence)).length = joinedBytes presence groupId members := by
  have htype : digits MsgType.JoinGroupReturn.toInt.toInt64 = 2 := by decide
  have hok : quotedLength (lit "ok") = 4 := by decide
  have husers : (Value.arr (members.map fun m => .obj (userToJson m.2 (presence.status m.1)))).serialize.length =
      arrayLength (members.map fun m => userBytes m.2 (presence.status m.1)) := by
    rw [length_serialize_array, List.map_map]
    exact congrArg arrayLength (List.map_congr_left fun m _ => length_userToJson m.2 _)
  refine Eq.trans (length_serialize_object 38 ["type", "status", "groupId", "users"] rfl (by decide)) ?_
  simp only [valuesLength_cons, valuesLength_nil, length_serialize_ofInt32, length_serialize_text, husers, htype, hok,
    joinedBytes]
  omega

def friendListBytes (presence : PresenceManager) (friends : List UserInfo) : Nat := 22 + usersBytes presence friends

theorem length_friendListReply (presence : PresenceManager) (friends : List UserInfo) :
    (serialize (friendListReply friends presence)).length = friendListBytes presence friends := by
  have htype : digits MsgType.FriendListReturn.toInt.toInt64 = 2 := by decide
  refine Eq.trans (length_serialize_object 19 ["type", "friends"] rfl (by decide)) ?_
  simp only [valuesLength_cons, valuesLength_nil, length_serialize_ofInt32, friendToJson, length_users, htype,
    friendListBytes]
  omega

/-! ## Files and friends -/

def fileDoneBytes (fileHash : Bytes) : Nat := 70 + quotedLength fileHash

theorem length_fileDoneReply (fileHash : Bytes) :
    (serialize (fileDoneReply fileHash)).length = fileDoneBytes fileHash := by
  have htype : digits MsgType.FileTransferDone.toInt.toInt64 = 2 := by decide
  have hok : quotedLength (lit "ok") = 4 := by decide
  have hmsg : quotedLength (lit "file metadata delivered") = 25 := by decide
  refine Eq.trans (length_serialize_object 38 ["type", "status", "file_hash", "msg"] rfl (by decide)) ?_
  simp only [valuesLength_cons, valuesLength_nil, length_serialize_ofInt32, length_serialize_str, length_serialize_text,
    htype, hok, hmsg, fileDoneBytes]
  omega

def noticeBytes (fromId toId : Int32) (msg : Bytes) : Nat :=
  36 + digits fromId.toInt64 + digits toId.toInt64 + quotedLength msg

theorem length_friendNotice (fromId toId : Int32) (msg : Bytes) :
    (serialize (friendNotice fromId toId msg)).length = noticeBytes fromId toId msg := by
  have htype : digits MsgType.FriendRequest.toInt.toInt64 = 2 := by decide
  refine Eq.trans (length_serialize_object 33 ["type", "fromId", "toId", "msg"] rfl (by decide)) ?_
  simp only [valuesLength_cons, valuesLength_nil, length_serialize_ofInt32, length_serialize_str, htype, noticeBytes]
  omega

def acceptBytes (ok : Bool) (friendId : Int32) (friendUser : Option UserInfo) : Nat :=
  33 + (if ok then 4 else 40) + digits friendId.toInt64
    + match friendUser with
      | some u => 22 + quotedLength u.nickname + digits u.avatar_id.toInt64
      | none => 0

theorem length_acceptReply (ok : Bool) (friendId : Int32) (friendUser : Option UserInfo) :
    (serialize (acceptReply ok friendId friendUser)).length = acceptBytes ok friendId friendUser := by
  have htype : digits MsgType.FriendAcceptReturn.toInt.toInt64 = 2 := by decide
  have hok : (statusText true).serialize.length = 4 := by decide
  have herror : (statusText false).serialize.length = 7 := by decide
  have hmsg : quotedLength (lit "accept failed") = 15 := by decide
  have hcode : digits 400 = 3 := by decide
  have hlength : (serialize (acceptReply ok friendId friendUser)).length = 1 + fieldsLength
      ([("type", ofInt32 MsgType.FriendAcceptReturn.toInt), ("status", statusText ok), ("friendId", ofInt32 friendId)]
        ++ (match friendUser with
          | some u => [("nickname", .str u.nickname), ("headId", ofInt32 u.avatar_id)]
          | none => [])
        ++ (if ok then [] else [("msg", text "accept failed"), ("code", .int 400)])) := by
    refine length_serialize_object_of_nodup (by simp) ?_
    cases friendUser <;> cases ok <;> simp
  have hkeys : keysLength ["type", "status", "friendId"] = 30 := by decide
  have huser : keysLength ["nickname", "headId"] = 22 := by decide
  have hfailed : keysLength ["msg", "code"] = 15 := by decide
  rw [hlength, fieldsLength_append, fieldsLength_append]
  cases friendUser <;> cases ok <;> simp [fieldsLength, acceptBytes, hkeys, huser, hfailed, htype, hok, herror, hmsg, hcode] <;> omega

/-! ## Copies of the request -/

/-- The request as it is passed on with a file: its type is another one. -/
def fileCopyBytes (request : Object) : Nat := (serialize request).length + 10 - memberLength request "type"

theorem length_incomingFile {request : Object} (h : OrdMap.Sorted request) (hne : request ≠ []) :
    (serialize (incomingFile request)).length = fileCopyBytes request := by
  have htype : digits MsgType.ReceiveFile.toInt.toInt64 = 2 := by decide
  have hkey : quotedLength (lit "type") = 6 := by decide
  have hput := length_serialize_put h hne "type" (ofInt32 MsgType.ReceiveFile.toInt)
  rw [length_serialize_ofInt32, htype, hkey] at hput
  unfold fileCopyBytes incomingFile
  omega

/-- The request as a read receipt: with its reader and the time. -/
def receiptBytes (request : Object) (fromId : Int32) (now : Int64) : Nat :=
  (serialize request).length + 32 + digits fromId.toInt64 + digits now
    - (memberLength request "type" + memberLength request "read_by" + memberLength request "read_at")

theorem length_receiptPayload {request : Object} (h : OrdMap.Sorted request) (hne : request ≠ []) (fromId : Int32)
    (now : Int64) : (serialize (receiptPayload request fromId now)).length = receiptBytes request fromId now := by
  have htype : digits MsgType.ReadReceipt.toInt.toInt64 = 2 := by decide
  have htypeKey : quotedLength (lit "type") = 6 := by decide
  have hbyKey : quotedLength (lit "read_by") = 9 := by decide
  have hatKey : quotedLength (lit "read_at") = 9 := by decide
  have hput := length_serialize_put h hne "type" (ofInt32 MsgType.ReadReceipt.toInt)
  have hby := length_serialize_put (OrdMap.sorted_put h) (put_ne_nil request "type" (ofInt32 MsgType.ReadReceipt.toInt))
    "read_by" (ofInt32 fromId)
  have hat := length_serialize_put (OrdMap.sorted_put (OrdMap.sorted_put h))
    (put_ne_nil (request.put (lit "type") (ofInt32 MsgType.ReadReceipt.toInt)) "read_by" (ofInt32 fromId))
    "read_at" (.int now)
  rw [length_serialize_ofInt32, htype, htypeKey] at hput
  rw [length_serialize_ofInt32, hbyKey, memberLength_put _ (by decide)] at hby
  rw [length_serialize_int, hatKey, memberLength_put _ (by decide), memberLength_put _ (by decide)] at hat
  unfold receiptBytes receiptPayload
  omega

/-! ## Payloads that always fit -/

/-- The payload fits a frame. -/
def Fits (payload : Object) : Prop := (serialize payload).length ≤ FrameCodec.MaxFrameBytes

theorem fits_object {fields : List (String × Value)} (h : fieldsLength fields ≤ 1000) : Fits (object fields) :=
  (length_serialize_object_le fields).trans ((Nat.add_le_add_left h 2).trans (by decide))

theorem targetBytes_le (toId groupId : Int32) : targetBytes toId groupId ≤ 59 := by
  have hto := digits_le toId.toInt64
  have hgroup := digits_le groupId.toInt64
  unfold targetBytes
  split <;> split <;> omega

/-- The fields with which most answers begin. -/
theorem fieldsLength_head_le (type : MsgType) (status : Value) (h : status.serialize.length ≤ 8) :
    fieldsLength [("type", ofInt32 type.toInt), ("status", status)] ≤ 50 := by
  have hkeys : keysLength ["type", "status"] = 18 := by decide
  have htype := digits_le type.toInt.toInt64
  simp only [fieldsLength, List.map_cons, List.map_nil, hkeys, valuesLength_cons, valuesLength_nil,
    length_serialize_ofInt32]
  omega

theorem fits_okReply (type : MsgType) {msg : String} (h : quotedLength (lit msg) ≤ 100) : Fits (okReply type msg) := by
  have hhead := fieldsLength_head_le type (text "ok") (by decide)
  have hmsg : fieldsLength [("msg", text msg)] = 7 + quotedLength (lit msg) := by
    have hkey : keysLength ["msg"] = 7 := by decide
    simp [fieldsLength, hkey]
  refine fits_object ((fieldsLength_append [_, _] [_]).trans_le ?_)
  omega

theorem fits_errorReply (type : MsgType) (code : Int32) {msg : String} (h : quotedLength (lit msg) ≤ 100) :
    Fits (errorReply type code msg) := by
  have hhead := fieldsLength_head_le type (text "error") (by decide)
  have hcode := digits_le code.toInt64
  have hrest : fieldsLength [("code", ofInt32 code), ("msg", text msg)] =
      15 + digits code.toInt64 + quotedLength (lit msg) := by
    have hkeys : keysLength ["code", "msg"] = 15 := by decide
    simp [fieldsLength, hkeys]
    omega
  refine fits_object ((fieldsLength_append [_, _] [_, _]).trans_le ?_)
  omega

theorem fits_registeredReply (id : Int32) : Fits (registeredReply id) := by
  have hhead := fieldsLength_head_le .RegisterUserReturn (text "ok") (by decide)
  have hid := digits_le id.toInt64
  have hrest : fieldsLength [("id", ofInt32 id), ("msg", text "registered")] = 25 + digits id.toInt64 := by
    have hkeys : keysLength ["id", "msg"] = 13 := by decide
    have hmsg : quotedLength (lit "registered") = 12 := by decide
    simp [fieldsLength, hkeys, hmsg]
    omega
  refine fits_object ((fieldsLength_append [_, _] [_, _]).trans_le ?_)
  omega

theorem length_statusText_le (ok : Bool) : (statusText ok).serialize.length ≤ 8 := by
  cases ok <;> decide

theorem fits_editFailed (msgId : Int64) (fromId : Int32) (content : Bytes) (now : Int64) (toId groupId : Int32) :
    Fits (editReply false msgId fromId content now toId groupId) := by
  have hhead := fieldsLength_head_le .MessageEditReturn (statusText false) (length_statusText_le false)
  have hid := digits_le msgId
  have hfrom := digits_le fromId.toInt64
  have hnow := digits_le now
  have hrest : fieldsLength [("msg_id", .int msgId), ("fromId", ofInt32 fromId), ("msg", text "message edit failed"),
      ("edited_at", .int now)] = 61 + digits msgId + digits fromId.toInt64 + digits now := by
    have hkeys : keysLength ["msg_id", "fromId", "msg", "edited_at"] = 40 := by decide
    have hmsg : quotedLength (lit "message edit failed") = 21 := by decide
    simp [fieldsLength, hkeys, hmsg]
    omega
  have htarget := targetBytes_le toId groupId
  have hfields : editReply false msgId fromId content now toId groupId =
      object ([("type", ofInt32 MsgType.MessageEditReturn.toInt), ("status", statusText false)] ++
        [("msg_id", .int msgId), ("fromId", ofInt32 fromId), ("msg", text "message edit failed"), ("edited_at", .int now)] ++
        targetFields toId groupId) := rfl
  rw [hfields]
  refine fits_object ?_
  rw [fieldsLength_append, fieldsLength_append, fieldsLength_targetFields]
  omega

theorem fits_deleteReply (ok : Bool) (msgId : Int64) (fromId : Int32) (now : Int64) (toId groupId : Int32) :
    Fits (deleteReply ok msgId fromId now toId groupId) := by
  have hhead := fieldsLength_head_le .MessageDeleteReturn (statusText ok) (length_statusText_le ok)
  have hid := digits_le msgId
  have hfrom := digits_le fromId.toInt64
  have hnow := digits_le now
  have hmsg : quotedLength (lit (if ok then "deleted" else "message delete failed")) ≤ 23 := by cases ok <;> decide
  have hrest : fieldsLength [("msg_id", .int msgId), ("fromId", ofInt32 fromId),
      ("msg", text (if ok then "deleted" else "message delete failed")), ("deleted_at", .int now)] ≤ 200 := by
    have hkeys : keysLength ["msg_id", "fromId", "msg", "deleted_at"] = 41 := by decide
    simp only [fieldsLength, List.map_cons, List.map_nil, hkeys, valuesLength_cons, valuesLength_nil,
      length_serialize_ofInt32, length_serialize_int, length_serialize_text]
    omega
  have htarget := targetBytes_le toId groupId
  have hfields : deleteReply ok msgId fromId now toId groupId =
      object ([("type", ofInt32 MsgType.MessageDeleteReturn.toInt), ("status", statusText ok)] ++
        [("msg_id", .int msgId), ("fromId", ofInt32 fromId),
          ("msg", text (if ok then "deleted" else "message delete failed")), ("deleted_at", .int now)] ++
        targetFields toId groupId) := rfl
  rw [hfields]
  refine fits_object ?_
  rw [fieldsLength_append, fieldsLength_append, fieldsLength_targetFields]
  omega

theorem fits_helloReply (compatible : Bool) : Fits (helloReply compatible) := by
  cases compatible <;> exact fits_object (by decide +kernel)

theorem fits_friendAck (fromId toId : Int32) (ok : Bool) : Fits (friendAck fromId toId ok) := by
  have htype := digits_le MsgType.FriendRequestAck.toInt.toInt64
  have hfrom := digits_le fromId.toInt64
  have hto := digits_le toId.toInt64
  have hid := quotedLength_le (intText fromId.toInt64 ++ Ascii.colon :: intText toId.toInt64)
  rw [List.length_append, List.length_cons] at hid
  unfold digits at hfrom hto
  have hhead : fieldsLength [("type", ofInt32 MsgType.FriendRequestAck.toInt),
      ("requestId", .str (intText fromId.toInt64 ++ Ascii.colon :: intText toId.toInt64))] ≤ 150 := by
    have hkeys : keysLength ["type", "requestId"] = 21 := by decide
    simp only [fieldsLength, List.map_cons, List.map_nil, hkeys, valuesLength_cons, valuesLength_nil,
      length_serialize_ofInt32, length_serialize_str]
    omega
  have hanswer : fieldsLength (if ok then [("status", text "ok"), ("msg", text "request sent")]
      else [("status", text "error"), ("msg", text "friend request failed"), ("code", .int 400)]) ≤ 100 := by
    cases ok <;> decide
  rw [friendAck]
  refine fits_object ?_
  rw [fieldsLength_append]
  omega

theorem fits_removeReply (ok rejected : Bool) (removedId : Int32) : Fits (removeReply ok rejected removedId) := by
  have hhead := fieldsLength_head_le .FriendRemoveReturn (statusText ok) (length_statusText_le ok)
  have hid := digits_le removedId.toInt64
  have hfriend : fieldsLength [("friendId", ofInt32 removedId)] = 12 + digits removedId.toInt64 := by
    have hkey : keysLength ["friendId"] = 12 := by decide
    simp [fieldsLength, hkey]
  have hrejected : fieldsLength (if rejected then [("msg", text "request rejected")] else []) ≤ 30 := by
    cases rejected <;> decide
  have hfailed : fieldsLength (if ok then [] else [("msg", text "remove failed"), ("code", .int 400)]) ≤ 40 := by
    cases ok <;> decide
  have hfields : removeReply ok rejected removedId =
      object ([("type", ofInt32 MsgType.FriendRemoveReturn.toInt), ("status", statusText ok)] ++
        [("friendId", ofInt32 removedId)] ++ (if rejected then [("msg", text "request rejected")] else []) ++
        (if ok then [] else [("msg", text "remove failed"), ("code", .int 400)])) := rfl
  rw [hfields]
  refine fits_object ?_
  rw [fieldsLength_append, fieldsLength_append, fieldsLength_append]
  omega

end MessageRouter

end LanChat
