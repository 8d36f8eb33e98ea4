import LanChat.Db.Database

/-!
# The message repository
-/

namespace LanChat

open Lib Json

/-! ## Field readers of a row

`asInt`, `asInt64`, `asString` and `asBool` of the repositories. -/

def rowInt64 (row : Row) (key : String) : Int64 :=
  match row.find? (lit key) with
  | some v => if v.isNumber then v.asInt else 0
  | none => 0

def rowInt (row : Row) (key : String) : Int32 := (rowInt64 row key).toInt32

def rowString (row : Row) (key : String) (fallback : Bytes) : Bytes :=
  match row.find? (lit key) with
  | some (.str s) => s
  | _ => fallback

def rowBool (row : Row) (key : String) : Bool :=
  match row.find? (lit key) with
  | some (.bool b) => b
  | some v => v.isNumber && v.asInt != 0
  | none => false

/-- `haystack.find(needle) != npos`. -/
def contains (needle : Bytes) : Bytes → Bool
  | [] => needle = []
  | c :: rest => needle.isPrefixOf (c :: rest) || contains needle rest

namespace MessageRepository

open Database

variable (env : Env)

/-- Keeps the `limit` latest messages. -/
def trimToLimit (messages : List StoredMessage) (limit : Int32) : List StoredMessage :=
  let sorted := env.sort messages
  if 0 < limit ∧ limit.toInt < sorted.length then sorted.drop (sorted.length - limit.toInt.toNat)
  else sorted

def toRow (m : StoredMessage) : Row :=
  object [("msg_id", .int m.msg_id), ("from_id", ofInt32 m.from_id), ("to_id", ofInt32 m.to_id),
    ("group_id", ofInt32 m.group_id), ("content", .str m.content),
    ("content_type", .str m.content_type), ("timestamp", .int m.timestamp),
    ("delivered", .bool m.delivered), ("read", .bool m.read), ("edited", .bool m.edited),
    ("deleted", .bool m.deleted), ("edited_at", .int m.edited_at),
    ("deleted_at", .int m.deleted_at), ("reactions", .str m.reactions)]

def fromRow (row : Row) : StoredMessage where
  msg_id := rowInt64 row "msg_id"
  from_id := rowInt row "from_id"
  to_id := rowInt row "to_id"
  group_id := rowInt row "group_id"
  content := rowString row "content" []
  content_type := rowString row "content_type" (lit "text")
  timestamp := rowInt64 row "timestamp"
  delivered := rowBool row "delivered"
  read := rowBool row "read"
  edited := rowBool row "edited"
  deleted := rowBool row "deleted"
  edited_at := rowInt64 row "edited_at"
  deleted_at := rowInt64 row "deleted_at"
  reactions := rowString row "reactions" []

/-- The largest `msg_id` of the rows, at least zero. -/
def maxMessageId (rows : RowList) : Int64 :=
  rows.foldl (fun maxId row => max maxId (rowInt64 row "msg_id")) 0

def nextMessageId : DbM Int64 := do
  let rows ← queryAll env .messages
  pure (maxMessageId rows + 1)

/-- A message as `savePrivate` and `saveGroup` fill it in. -/
def newMessage (id : Int64) (fromId toId groupId : Int32) (content contentType : Bytes)
    (now : Int64) (delivered : Bool) : StoredMessage where
  msg_id := id
  from_id := fromId
  to_id := toId
  group_id := groupId
  content := content
  content_type := if contentType = [] then lit "text" else contentType
  timestamp := now
  delivered := delivered
  read := false
  edited := false
  deleted := false
  edited_at := 0
  deleted_at := 0
  reactions := []

def savePrivate (fromId toId : Int32) (content contentType : Bytes) (delivered : Bool) :
    DbM StoredMessage := do
  let id ← nextMessageId env
  let now ← time env
  let message := newMessage id fromId toId 0 content contentType now delivered
  insert env .messages (toRow message)
  pure message

def saveGroup (fromId groupId : Int32) (content contentType : Bytes) : DbM StoredMessage := do
  let id ← nextMessageId env
  let now ← time env
  let message := newMessage id fromId 0 groupId content contentType now true
  insert env .messages (toRow message)
  pure message

/-- The messages of the rows that the predicate selects, trimmed to the limit. -/
def select (p : Row → Bool) (limit : Int32) : DbM (List StoredMessage) := do
  let rows ← query env .messages fun row => .ok (p row)
  pure (trimToLimit env (rows.map fromRow) limit)

def hasMsgId (msgId : Int64) (row : Row) : Bool := rowInt64 row "msg_id" = msgId

def markDelivered (msgId : Int64) : DbM Unit := do
  let _ ← update env .messages (fun row => .ok (hasMsgId msgId row))
    fun row => row.put (lit "delivered") (.bool true)
  pure ()

def isOffline (userId : Int32) (row : Row) : Bool :=
  rowInt row "to_id" = userId && rowInt row "group_id" = 0 && !rowBool row "delivered"

def offlineForUser (userId : Int32) (limit : Int32) : DbM (List StoredMessage) := do
  let messages ← select env (isOffline userId) limit
  Cmd.each messages fun message => markDelivered env message.msg_id
  pure messages

def isBetween (userA userB : Int32) (row : Row) : Bool :=
  let fromId := rowInt row "from_id"
  let toId := rowInt row "to_id"
  rowInt row "group_id" = 0 &&
    ((fromId = userA && toId = userB) || (fromId = userB && toId = userA))

def privateHistory (userA userB : Int32) (limit : Int32) : DbM (List StoredMessage) :=
  select env (isBetween userA userB) limit

def isInGroup (groupId : Int32) (row : Row) : Bool := rowInt row "group_id" = groupId

def groupHistory (groupId : Int32) (limit : Int32) : DbM (List StoredMessage) :=
  select env (isInGroup groupId) limit

def matchesKeyword (keyword : Bytes) (row : Row) : Bool :=
  contains keyword (rowString row "content" [])

def search (keyword : Bytes) (limit : Int32) : DbM (List StoredMessage) :=
  if keyword = [] then pure []
  else select env (matchesKeyword keyword) limit

/-- The rows that the author may still change. -/
def isOwn (msgId : Int64) (actorId : Int32) (row : Row) : Bool :=
  hasMsgId msgId row && rowInt row "from_id" = actorId && !rowBool row "deleted"

def edit (msgId : Int64) (actorId : Int32) (content : Bytes) : DbM Bool := do
  let now ← time env
  update env .messages (fun row => .ok (isOwn msgId actorId row && !(content = [] : Bool)))
    fun row => ((row.put (lit "content") (.str content)).put (lit "edited") (.bool true)).put
      (lit "edited_at") (.int now)

def softDelete (msgId : Int64) (actorId : Int32) : DbM Bool := do
  let now ← time env
  update env .messages (fun row => .ok (isOwn msgId actorId row))
    fun row => ((row.put (lit "content") (text "")).put (lit "deleted") (.bool true)).put
      (lit "deleted_at") (.int now)

/-- The updater of `addReaction`. -/
def withReaction (encoded : Bytes) (row : Row) : Row :=
  let current := rowString row "reactions" []
  if contains encoded current then row
  else
    row.put (lit "reactions")
      (.str (if current = [] then encoded else current ++ Ascii.comma :: encoded))

def addReaction (msgId : Int64) (actorId : Int32) (reaction : Bytes) : DbM Bool :=
  if reaction = [] then pure false
  else
    update env .messages (fun row => .ok (hasMsgId msgId row && !rowBool row "deleted"))
      (withReaction (intText actorId.toInt64 ++ Ascii.colon :: reaction))

/-- The row after `markRead`. -/
def readBy (readerId : Int32) (row : Row) : Row :=
  (row.put (lit "read") (.bool true)).put (lit "read_by") (ofInt32 readerId)

def markRead (msgId : Int64) (readerId : Int32) : DbM Bool :=
  update env .messages (fun row => .ok (hasMsgId msgId row)) (readBy readerId)

/-! ## What the operations return -/

section Results

variable {env} {P : Database → Prop} {W : Empty → Prop}

theorem mem_trimToLimit {messages : List StoredMessage} {limit : Int32} {m : StoredMessage}
    (h : m ∈ trimToLimit env messages limit) : m ∈ messages := by
  have hsort : m ∈ env.sort messages := by
    simp only [trimToLimit] at h
    split at h
    · exact List.mem_of_mem_drop h
    · exact h
  exact (env.sort_perm messages).mem_iff.mp hsort

/-- A selected message is a row of the table that meets the predicate. -/
theorem sat_select (p : Row → Bool) (limit : Int32) :
    Cmd.Sat P (select env p limit)
      (fun messages db => ∀ m ∈ messages,
        ∃ row ∈ (db.tables .messages).getD [], p row = true ∧ m = fromRow row)
      (fun _ _ => True) W := by
  refine (sat_query p).bind fun rows => Cmd.sat_pure fun db hrows m hm => ?_
  obtain ⟨row, hrow, rfl⟩ := List.mem_map.mp (mem_trimToLimit hm)
  rw [hrows] at hrow
  obtain ⟨hmem, hp⟩ := List.mem_filter.mp hrow
  exact ⟨row, hmem, hp, rfl⟩

theorem sat_select_of {p : Row → Bool} {φ : StoredMessage → Prop}
    (h : ∀ row, p row = true → φ (fromRow row)) (limit : Int32) :
    Cmd.Sat P (select env p limit) (fun messages _ => ∀ m ∈ messages, φ m)
      (fun _ _ => True) W :=
  (sat_select p limit).post fun _ _ hrows m hm => by
    obtain ⟨row, -, hp, rfl⟩ := hrows m hm
    exact h row hp

theorem sat_offlineForUser (userId limit : Int32) :
    Cmd.Sat P (offlineForUser env userId limit)
      (fun messages _ => ∀ m ∈ messages, m.to_id = userId ∧ m.group_id = 0)
      (fun _ _ => True) W := by
  have hrow : ∀ row, isOffline userId row = true →
      (fromRow row).to_id = userId ∧ (fromRow row).group_id = 0 := by
    intro row h
    simp only [isOffline, Bool.and_eq_true, decide_eq_true_eq] at h
    exact h.1
  refine (sat_select_of (φ := fun m => m.to_id = userId ∧ m.group_id = 0) hrow limit).bind
    fun messages => ?_
  refine Cmd.Sat.of_fact (P := fun _ => True) (fun hsel => ?_) |>.pre fun _ h => ⟨h, trivial⟩
  exact (Cmd.sat_true _).bind fun _ => Cmd.sat_pure fun _ _ => hsel

theorem sat_privateHistory (userA userB limit : Int32) :
    Cmd.Sat P (privateHistory env userA userB limit)
      (fun messages _ => ∀ m ∈ messages, m.group_id = 0 ∧
        ((m.from_id = userA ∧ m.to_id = userB) ∨ (m.from_id = userB ∧ m.to_id = userA)))
      (fun _ _ => True) W := by
  refine sat_select_of (fun row h => ?_) limit
  simpa [isBetween, fromRow] using h

theorem sat_groupHistory (groupId limit : Int32) :
    Cmd.Sat P (groupHistory env groupId limit)
      (fun messages _ => ∀ m ∈ messages, m.group_id = groupId) (fun _ _ => True) W := by
  refine sat_select_of (fun row h => ?_) limit
  simpa [isInGroup, fromRow] using h

theorem privateHistory_result {userA userB limit : Int32} {db : Database}
    {messages : List StoredMessage}
    (h : (privateHistory env userA userB limit db).result = .ok messages) :
    ∀ m ∈ messages, m.group_id = 0 ∧
      ((m.from_id = userA ∧ m.to_id = userB) ∨ (m.from_id = userB ∧ m.to_id = userA)) :=
  (sat_privateHistory (P := fun _ => True) (W := fun _ => True) userA userB limit db trivial).2.1
    messages h

theorem groupHistory_result {groupId limit : Int32} {db : Database} {messages : List StoredMessage}
    (h : (groupHistory env groupId limit db).result = .ok messages) :
    ∀ m ∈ messages, m.group_id = groupId :=
  (sat_groupHistory (P := fun _ => True) (W := fun _ => True) groupId limit db trivial).2.1
    messages h

theorem sat_savePrivate (fromId toId : Int32) (content contentType : Bytes) (delivered : Bool) :
    Cmd.Sat P (savePrivate env fromId toId content contentType delivered)
      (fun m _ => m.from_id = fromId ∧ m.to_id = toId ∧ m.group_id = 0) (fun _ _ => True) W :=
  (Cmd.sat_true _).bind fun _ => (Cmd.sat_true _).bind fun _ => (Cmd.sat_true _).bind fun _ =>
    Cmd.sat_pure fun _ _ => ⟨rfl, rfl, rfl⟩

theorem sat_saveGroup (fromId groupId : Int32) (content contentType : Bytes) :
    Cmd.Sat P (saveGroup env fromId groupId content contentType)
      (fun m _ => m.from_id = fromId ∧ m.group_id = groupId) (fun _ _ => True) W :=
  (Cmd.sat_true _).bind fun _ => (Cmd.sat_true _).bind fun _ => (Cmd.sat_true _).bind fun _ =>
    Cmd.sat_pure fun _ _ => ⟨rfl, rfl⟩

end Results

/-! ## Tables other than `messages` -/

section Frames

variable {env} {other : TableName} (h : other ≠ .messages)

include h

theorem spares_select (p : Row → Bool) (limit : Int32) : Spares other (select env p limit) :=
  (spares_query h _).bind fun _ => spares_pure _

theorem spares_search (keyword : Bytes) (limit : Int32) : Spares other (search env keyword limit) :=
  (spares_pure []).ite (spares_select h _ limit)

theorem spares_markRead (msgId : Int64) (readerId : Int32) :
    Spares other (markRead env msgId readerId) :=
  spares_update h _ _

theorem spares_save (message : Int64 → Int64 → StoredMessage) :
    Spares other (do
      let id ← nextMessageId env
      let now ← time env
      insert env .messages (toRow (message id now))
      pure (message id now) : DbM StoredMessage) :=
  (((spares_loadTable h).bind fun _ => spares_asks _).bind fun _ => spares_pure _).bind fun _ =>
    spares_time.bind fun _ => (spares_insert h _).bind fun _ => spares_pure _

theorem spares_savePrivate (fromId toId : Int32) (content contentType : Bytes) (delivered : Bool) :
    Spares other (savePrivate env fromId toId content contentType delivered) :=
  spares_save h _

theorem spares_saveGroup (fromId groupId : Int32) (content contentType : Bytes) :
    Spares other (saveGroup env fromId groupId content contentType) :=
  spares_save h _

theorem spares_markDelivered (msgId : Int64) : Spares other (markDelivered env msgId) :=
  (spares_update h _ _).bind fun _ => spares_pure ()

theorem spares_offlineForUser (userId limit : Int32) : Spares other (offlineForUser env userId limit) :=
  (spares_select h _ limit).bind fun _ => (spares_each fun _ => spares_markDelivered h _).bind fun _ =>
    spares_pure _

theorem spares_edit (msgId : Int64) (actorId : Int32) (content : Bytes) :
    Spares other (edit env msgId actorId content) :=
  spares_time.bind fun _ => spares_update h _ _

theorem spares_softDelete (msgId : Int64) (actorId : Int32) : Spares other (softDelete env msgId actorId) :=
  spares_time.bind fun _ => spares_update h _ _

theorem spares_addReaction (msgId : Int64) (actorId : Int32) (reaction : Bytes) :
    Spares other (addReaction env msgId actorId reaction) :=
  (spares_pure false).ite (spares_update h _ _)

end Frames

end MessageRepository

end LanChat
