import LanChat.Lib.Mailbox
import LanChat.Lib.Run
import LanChat.Db.MessageHistory

/-!
# Offline messages

The table of messages is a mailbox: a private message that is saved without
being delivered waits for its recipient, and `offlineForUser` collects. The
calls of the repository take the steps of a mailbox (`yields_execute`), so that
no message is handed out twice and none is left behind (`delivered_exactly_once`).
-/

namespace LanChat

open Lib Json

namespace MessageRepository

open Database

/-- A call of the repository that changes the table. -/
inductive Call where
  | savePrivate (fromId toId : Int32) (content contentType : Bytes) (delivered : Bool)
  | saveGroup (fromId groupId : Int32) (content contentType : Bytes)
  | edit (msgId : Int64) (actorId : Int32) (content : Bytes)
  | softDelete (msgId : Int64) (actorId : Int32)
  | addReaction (msgId : Int64) (actorId : Int32) (reaction : Bytes)
  | markRead (msgId : Int64) (readerId : Int32)
  | offlineForUser (userId limit : Int32)
deriving DecidableEq

namespace Call

variable (env : Env)

/-- The call, with the messages that it returns. -/
def execute : Call → DbM (List StoredMessage)
  | savePrivate fromId toId content contentType delivered => do
    let message ← MessageRepository.savePrivate env fromId toId content contentType delivered
    pure [message]
  | saveGroup fromId groupId content contentType => do
    let message ← MessageRepository.saveGroup env fromId groupId content contentType
    pure [message]
  | edit msgId actorId content => do
    let _ ← MessageRepository.edit env msgId actorId content
    pure []
  | softDelete msgId actorId => do
    let _ ← MessageRepository.softDelete env msgId actorId
    pure []
  | addReaction msgId actorId reaction => do
    let _ ← MessageRepository.addReaction env msgId actorId reaction
    pure []
  | markRead msgId readerId => do
    let _ ← MessageRepository.markRead env msgId readerId
    pure []
  | offlineForUser userId limit => MessageRepository.offlineForUser env userId limit

/-- The limit of the call is at least one. -/
def Limited : Call → Prop
  | offlineForUser _ limit => 1 ≤ limit
  | _ => True

/-- Whom the call leaves a message for that is still to be delivered. -/
def addressee : Call → Option Int32
  | savePrivate _ toId _ _ false => some toId
  | _ => none

/-- The call saves a message. -/
def saves : Call → Bool
  | savePrivate .. => true
  | saveGroup .. => true
  | _ => false

end Call

/-- The calls that have returned, with their messages, and the database. -/
structure Ledger where
  db : Database
  log : List (Call × List StoredMessage)

namespace Ledger

/-- One call; `none` when it throws. -/
def step (env : Env) (ledger : Ledger) (call : Call) : Option Ledger :=
  match (call.execute env ledger.db).result with
  | .ok messages => some ⟨(call.execute env ledger.db).state, ledger.log ++ [(call, messages)]⟩
  | .error _ => none

def rows (ledger : Ledger) : RowList := (ledger.db.tables .messages).getD []

/-- The ids of the messages that are still to be delivered to the user. -/
def pending (ledger : Ledger) (userId : Int32) : List Int64 :=
  (ledger.rows.filter (isOffline userId)).map fun row => (fromRow row).msg_id

/-- The ids that `offlineForUser` has returned, in order. -/
def handedOut (log : List (Call × List StoredMessage)) : List Int64 :=
  log.flatMap fun entry =>
    match entry.1 with
    | .offlineForUser .. => entry.2.map (·.msg_id)
    | _ => []

end Ledger

/-! ## The table as a mailbox -/

/-- The table as a mailbox. -/
def mailbox (rows : RowList) : Mailbox Int32 Int64 where
  waiting userId := (rows.filter (isOffline userId)).map fun row => (fromRow row).msg_id
  used := rows.map fun row => (fromRow row).msg_id

/-- A call that has returned, as an event of the mailbox. -/
def event : Call × List StoredMessage → Mailbox.Event Int32 Int64 × List Int64
  | (.offlineForUser userId limit, messages) =>
    (.collect userId limit.toInt.toNat, messages.map (·.msg_id))
  | (call, messages) =>
    if call.saves then (.post call.addressee ((messages.head?.map (·.msg_id)).getD 0), [])
    else (.other, [])

/-- What the mailbox goes by of a message. -/
def address (m : StoredMessage) : Int64 × Int32 × Int32 × Bool :=
  (m.msg_id, m.to_id, m.group_id, m.delivered)

/-- The ids are distinct, and none of them exceeds the number of messages. -/
structure Numbered (rows : RowList) : Prop where
  nodup : (mailbox rows).used.Nodup
  le : ∀ row ∈ rows, (fromRow row).msg_id.toInt ≤ rows.length

section Mailbox

variable {env : Env} {rows : RowList}

theorem isOffline_eq (userId : Int32) (row : Row) :
    isOffline userId row = decide ((fromRow row).to_id = userId ∧ (fromRow row).group_id = 0 ∧
      (fromRow row).delivered = false) := by
  have hrow : isOffline userId row =
      (decide ((fromRow row).to_id = userId) && decide ((fromRow row).group_id = 0) && !(fromRow row).delivered) :=
    rfl
  rw [hrow, Bool.eq_iff_iff]
  simp [and_assoc]

theorem isOffline_of_address {row row' : Row} (h : address (fromRow row') = address (fromRow row))
    (userId : Int32) : isOffline userId row' = isOffline userId row := by
  obtain ⟨-, hto, hgroup, hdelivered⟩ : _ ∧ _ ∧ _ ∧ _ := by simpa only [address, Prod.mk.injEq] using h
  rw [isOffline_eq, isOffline_eq, hto, hgroup, hdelivered]

/-- A change that leaves the addresses alone leaves the mailbox alone. -/
theorem mailbox_map {f : Row → Row} (h : ∀ row, address (fromRow (f row)) = address (fromRow row)) :
    mailbox (rows.map f) = mailbox rows := by
  have hid : ∀ row, (fromRow (f row)).msg_id = (fromRow row).msg_id := fun row => congrArg Prod.fst (h row)
  unfold mailbox
  simp only [List.map_map, List.filter_map, Function.comp_def, hid, isOffline_of_address (h _)]

theorem numbered_map {f : Row → Row} (hrows : Numbered rows)
    (h : ∀ row, (fromRow (f row)).msg_id = (fromRow row).msg_id) : Numbered (rows.map f) := by
  refine ⟨?_, fun row hrow => ?_⟩
  · have hused : (mailbox (rows.map f)).used = (mailbox rows).used := by
      simp only [mailbox, List.map_map, Function.comp_def, h]
    rw [hused]
    exact hrows.nodup
  · obtain ⟨row', hrow', rfl⟩ := List.mem_map.mp hrow
    rw [h, List.length_map]
    exact hrows.le row' hrow'

/-- Nobody waits twice for one message. -/
theorem Numbered.sound (h : Numbered rows) : (mailbox rows).Sound := by
  refine ⟨fun u => ?_, fun u k hk => ?_, fun u v k hu hv => ?_⟩
  · exact h.nodup.sublist (List.filter_sublist.map _)
  · exact (List.filter_sublist.map _).mem hk
  · obtain ⟨row, hrow, rfl⟩ := List.mem_map.mp hu
    obtain ⟨row', hrow', hid⟩ := List.mem_map.mp hv
    obtain ⟨hmem, hoff⟩ := List.mem_filter.mp hrow
    obtain ⟨hmem', hoff'⟩ := List.mem_filter.mp hrow'
    have hsame : row' = row := List.inj_on_of_nodup_map h.nodup hmem' hmem hid
    rw [isOffline_eq, decide_eq_true_eq] at hoff hoff'
    rw [← hoff.1, ← hoff'.1, hsame]

/-! ### Saving -/

theorem maxMessageId_le {n : Int} (hn : 0 ≤ n) (h : ∀ row ∈ rows, (fromRow row).msg_id.toInt ≤ n) :
    (maxMessageId rows).toInt ≤ n := by
  have hfold : ∀ (rows : RowList) (start : Int64), start.toInt ≤ n →
      (∀ row ∈ rows, (fromRow row).msg_id.toInt ≤ n) →
      (rows.foldl (fun maxId row => max maxId (rowInt64 row "msg_id")) start).toInt ≤ n := by
    intro rows
    induction rows with
    | nil => exact fun start hstart _ => hstart
    | cons row rest ih =>
      intro start hstart hrows
      refine ih _ ?_ fun r hr => hrows r (List.mem_cons_of_mem _ hr)
      show (max start (rowInt64 row "msg_id")).toInt ≤ n
      rcases em (start ≤ rowInt64 row "msg_id") with hle | hle
      · rw [show max start (rowInt64 row "msg_id") = rowInt64 row "msg_id" from if_pos hle]
        exact hrows row List.mem_cons_self
      · rw [show max start (rowInt64 row "msg_id") = start from if_neg hle]
        exact hstart
  exact hfold rows 0 hn h

/-- The id after the largest, while there are ids left. -/
theorem Numbered.next (h : Numbered rows) (hfits : rows.length + 1 < 2 ^ 63) :
    (maxMessageId rows + 1).toInt = (maxMessageId rows).toInt + 1 ∧
      (maxMessageId rows + 1).toInt ≤ rows.length + 1 ∧ maxMessageId rows + 1 ∉ (mailbox rows).used := by
  have hle := maxMessageId_le (Int.natCast_nonneg rows.length) h.le
  have hone : (1 : Int64).toInt = 1 := rfl
  have hlow := (maxMessageId rows).le_toInt
  have hnext : (maxMessageId rows + 1).toInt = (maxMessageId rows).toInt + 1 := by
    rw [Int64.toInt_add, hone, Int.bmod]
    omega
  refine ⟨hnext, by omega, fun hused => ?_⟩
  obtain ⟨row, hrow, hid⟩ := List.mem_map.mp hused
  have hmax := le_maxMessageId hrow
  rw [hid, Int64.le_iff_toInt_le, hnext] at hmax
  omega

theorem mailbox_append (m : StoredMessage) (u : Int32) :
    (mailbox (rows ++ [toRow m])).waiting u = (mailbox rows).waiting u ++
      if m.to_id = u ∧ m.group_id = 0 ∧ m.delivered = false then [m.msg_id] else [] := by
  simp only [mailbox, List.filter_append, List.map_append, List.append_cancel_left_eq]
  rw [List.filter_cons, isOffline_eq, fromRow_toRow]
  split
  · next h => rw [if_pos (of_decide_eq_true h)]; simp [fromRow_toRow]
  · next h => rw [if_neg fun h' => h (decide_eq_true h')]; rfl

/-- A saved message is posted under its id. -/
theorem Numbered.post {m : StoredMessage} {addressee : Option Int32} (h : Numbered rows)
    (hfits : rows.length + 1 < 2 ^ 63) (hid : m.msg_id = maxMessageId rows + 1)
    (hto : ∀ u, (m.to_id = u ∧ m.group_id = 0 ∧ m.delivered = false) ↔ addressee = some u) :
    Numbered (rows ++ [toRow m]) ∧
      (mailbox rows).Step (.post addressee m.msg_id) [] (mailbox (rows ++ [toRow m])) := by
  obtain ⟨-, hle, hnew⟩ := h.next hfits
  rw [← hid] at hle hnew
  have hused : (mailbox (rows ++ [toRow m])).used = (mailbox rows).used ++ [m.msg_id] := by
    simp [mailbox, fromRow_toRow]
  refine ⟨⟨?_, fun row hrow => ?_⟩, .post addressee m.msg_id hnew hused fun u => ?_⟩
  · rw [hused]
    refine List.nodup_append.mpr ⟨h.nodup, List.nodup_singleton _, ?_⟩
    rintro k hk l hl rfl
    rw [List.mem_singleton.mp hl] at hk
    exact hnew hk
  · rw [List.length_append, List.length_singleton]
    rcases List.mem_append.mp hrow with hrow | hrow
    · have := h.le row hrow
      omega
    · rw [List.mem_singleton.mp hrow, fromRow_toRow]
      omega
  · rw [mailbox_append]
    simp only [hto u]

/-! ### Collecting -/

/-- The row after `markDelivered` for each of the messages. -/
def delivered (messages : List StoredMessage) (row : Row) : Row :=
  messages.foldl (fun row m => if hasMsgId m.msg_id row then row.put (lit "delivered") (.bool true) else row) row

theorem fromRow_delivered (messages : List StoredMessage) (row : Row) :
    fromRow (delivered messages row) = { fromRow row with
      delivered := (fromRow row).delivered || (messages.map (·.msg_id)).contains (fromRow row).msg_id } := by
  induction messages generalizing row with
  | nil => simp [delivered]
  | cons m messages ih =>
    have hcons : delivered (m :: messages) row = delivered messages
        (if hasMsgId m.msg_id row then row.put (lit "delivered") (.bool true) else row) := rfl
    have hhas : hasMsgId m.msg_id row = decide ((fromRow row).msg_id = m.msg_id) := rfl
    rw [hcons, ih, hhas]
    rcases eq_or_ne (fromRow row).msg_id m.msg_id with hid | hid
    · simp [hid, fromRow_put_delivered]
    · simp [hid]

theorem isOffline_delivered (messages : List StoredMessage) (userId : Int32) (row : Row) :
    isOffline userId (delivered messages row) =
      (decide ((fromRow row).msg_id ∉ messages.map (·.msg_id)) && isOffline userId row) := by
  rw [isOffline_eq, isOffline_eq, fromRow_delivered, Bool.eq_iff_iff]
  simp only [Bool.or_eq_false_iff, Bool.and_eq_true, decide_eq_true_eq, ← List.contains_iff_mem]
  simp only [Bool.not_eq_true]
  tauto

theorem waiting_delivered (messages : List StoredMessage) (userId : Int32) :
    (mailbox (rows.map (delivered messages))).waiting userId =
      ((mailbox rows).waiting userId).filter fun id => id ∉ messages.map (·.msg_id) := by
  have hid : ∀ row, (fromRow (delivered messages row)).msg_id = (fromRow row).msg_id :=
    fun row => by rw [fromRow_delivered]
  simp only [mailbox, List.map_map, List.filter_map, List.filter_filter, Function.comp_def, hid,
    isOffline_delivered]

/-- The limit leaves out the first messages in the order of the times. -/
theorem trimToLimit_eq (messages : List StoredMessage) {limit : Int32} (hlimit : 1 ≤ limit) :
    trimToLimit env messages limit =
      (env.sort messages).drop ((env.sort messages).length - limit.toInt.toNat) := by
  have hone : (1 : Int32).toInt = 1 := rfl
  have hzero : (0 : Int32).toInt = 0 := rfl
  rw [Int32.le_iff_toInt_le, hone] at hlimit
  have hpos : 0 < limit := by
    rw [Int32.lt_iff_toInt_lt, hzero]
    omega
  unfold trimToLimit
  dsimp only
  split
  · rfl
  · next h =>
    have hall : (env.sort messages).length - limit.toInt.toNat = 0 := by
      by_contra hmore
      exact h ⟨hpos, by omega⟩
    rw [hall, List.drop_zero]

theorem Numbered.collect (h : Numbered rows) {userId limit : Int32} (hlimit : 1 ≤ limit)
    {messages : List StoredMessage}
    (hmessages : messages = trimToLimit env ((rows.filter (isOffline userId)).map fromRow) limit) :
    Numbered (rows.map (delivered messages)) ∧
      (mailbox rows).Step (.collect userId limit.toInt.toNat) (messages.map (·.msg_id))
        (mailbox (rows.map (delivered messages))) := by
  have hid : ∀ row, (fromRow (delivered messages row)).msg_id = (fromRow row).msg_id :=
    fun row => by rw [fromRow_delivered]
  refine ⟨numbered_map h hid, ?_⟩
  obtain ⟨order, horder⟩ : ∃ order, order = (env.sort ((rows.filter (isOffline userId)).map fromRow)).map (·.msg_id) :=
    ⟨_, rfl⟩
  have hperm : order.Perm ((mailbox rows).waiting userId) := by
    rw [horder]
    have hsort := (env.sort_perm ((rows.filter (isOffline userId)).map fromRow)).map (·.msg_id)
    rwa [List.map_map] at hsort
  have hkeys : messages.map (·.msg_id) = order.drop (order.length - limit.toInt.toNat) := by
    rw [hmessages, trimToLimit_eq _ hlimit, List.map_drop, horder, List.length_map]
  have hothers : ∀ u, u ≠ userId →
      (mailbox (rows.map (delivered messages))).waiting u = (mailbox rows).waiting u := by
    intro u hu
    rw [waiting_delivered, List.filter_eq_self]
    refine fun id hwaits => decide_eq_true fun hmem => hu ?_
    rw [hkeys] at hmem
    exact h.sound.apart u userId id hwaits (hperm.mem_iff.mp (List.mem_of_mem_drop hmem))
  have hused : (mailbox (rows.map (delivered messages))).used = (mailbox rows).used := by
    simp only [mailbox, List.map_map, Function.comp_def, hid]
  have huser := @waiting_delivered rows messages userId
  rw [hkeys] at huser ⊢
  exact .collect userId _ order hperm hused huser hothers

/-! ### The calls -/

/-- What a call leaves: the rows, and a step of the mailbox while there are ids left. -/
def Executed (rows : RowList) (call : Call) (messages : List StoredMessage) (db : Database) : Prop :=
  (call.saves = true → ∃ m, messages = [m]) ∧ ∃ rows', Lists .messages rows' db ∧ rows.length ≤ rows'.length ∧
    (rows'.length < 2 ^ 63 → Numbered rows → Numbered rows' ∧
      (mailbox rows).Step (event (call, messages)).1 (event (call, messages)).2 (mailbox rows'))

theorem executed_map {f : Row → Row} {call : Call} {db : Database}
    (hmem : db.tables .messages = some (rows.map f))
    (hf : ∀ row, address (fromRow (f row)) = address (fromRow row)) (hcall : event (call, []) = (.other, [])) :
    Executed rows call [] db := by
  have hsaves : call.saves = false := by
    cases call <;> first | rfl | cases hcall
  refine ⟨fun h => absurd h (by simp [hsaves]), _, .inl hmem, by rw [List.length_map], fun _ hrows => ⟨numbered_map hrows fun row => ?_, ?_⟩⟩
  · exact congrArg Prod.fst (hf row)
  · rw [mailbox_map hf, hcall]
    exact .other rfl fun _ => rfl

/-- An update that leaves the addresses alone. -/
theorem yields_update_address {p : Row → Bool} {u : Row → Row} {call : Call}
    (hu : ∀ row, address (fromRow (u row)) = address (fromRow row)) (hcall : event (call, []) = (.other, [])) :
    Yields (Lists .messages rows) (do
      let _ ← update env .messages (fun row => .ok (p row)) u
      pure []) (Executed rows call) := by
  refine (yields_update p u).bind fun _ => Cmd.sat_pure fun db hdb => executed_map hdb.2 (fun row => ?_) hcall
  split
  · exact hu row
  · rfl

theorem yields_nextMessageId :
    Yields (Lists .messages rows) (nextMessageId env) fun id db =>
      id = maxMessageId rows + 1 ∧ db.tables .messages = some rows :=
  yields_queryAll.bind fun all => Cmd.sat_pure fun db hdb => ⟨by rw [hdb.1], hdb.2⟩

/-- A message is saved under the next id. -/
theorem yields_save (message : Int64 → Int64 → StoredMessage) :
    Yields (Lists .messages rows) (do
      let id ← nextMessageId env
      let now ← time env
      insert env .messages (toRow (message id now))
      pure (message id now)) fun m db =>
      (∃ now, m = message (maxMessageId rows + 1) now) ∧ db.tables .messages = some (rows ++ [toRow m]) := by
  refine yields_nextMessageId.bind fun id => ?_
  refine Cmd.Sat.bind (R := fun _ db => id = maxMessageId rows + 1 ∧ Lists .messages rows db) ?_ fun now => ?_
  · exact fun db hdb => ⟨nofun, fun _ _ => ⟨hdb.1, .inl hdb.2⟩, nofun⟩
  · refine Cmd.Sat.of_fact fun hid => (yields_insert _).bind fun _ => Cmd.sat_pure fun db hmem => ?_
    exact ⟨⟨now, by rw [hid]⟩, hmem⟩

theorem yields_saved {call : Call} {message : Int64 → Int64 → StoredMessage} (hcall : call.saves = true)
    (hid : ∀ id now, (message id now).msg_id = id)
    (hto : ∀ id now u, ((message id now).to_id = u ∧ (message id now).group_id = 0 ∧
      (message id now).delivered = false) ↔ call.addressee = some u) :
    Yields (Lists .messages rows) (do
      let m ← (do
        let id ← nextMessageId env
        let now ← time env
        insert env .messages (toRow (message id now))
        pure (message id now) : DbM StoredMessage)
      pure [m]) (Executed rows call) := by
  refine (yields_save message).bind fun m => Cmd.sat_pure fun db hdb => ?_
  obtain ⟨⟨now, rfl⟩, hmem⟩ := hdb
  have hevent : ∀ m : StoredMessage, event (call, [m]) = (.post call.addressee m.msg_id, []) := by
    intro m
    cases call with
    | offlineForUser => cases hcall
    | _ => simp [event, hcall]
  refine ⟨fun _ => ⟨_, rfl⟩, _, .inl hmem, by rw [List.length_append]; exact Nat.le_add_right _ _, fun hfits hrows => ?_⟩
  rw [List.length_append, List.length_singleton] at hfits
  rw [hevent]
  exact hrows.post hfits (hid _ _) (hto _ now)

theorem yields_markDelivered (msgId : Int64) :
    Yields (Lists .messages rows) (markDelivered env msgId) fun _ db => db.tables .messages =
      some (rows.map fun row => if hasMsgId msgId row then row.put (lit "delivered") (.bool true) else row) :=
  (yields_update _ _).bind fun _ => Cmd.sat_pure fun _ h => h.2

theorem yields_markAll (messages : List StoredMessage) :
    Yields (Lists .messages rows) (Cmd.each messages fun message => markDelivered env message.msg_id)
      fun _ => Lists .messages (rows.map (delivered messages)) := by
  induction messages generalizing rows with
  | nil =>
    refine Cmd.sat_pure fun db hdb => ?_
    rwa [show delivered [] = id from rfl, List.map_id]
  | cons m messages ih =>
    refine (yields_markDelivered m.msg_id).bind fun _ => (ih.pre fun db hdb => .inl hdb).post fun _ db hdb => ?_
    rwa [List.map_map] at hdb

theorem yields_select (p : Row → Bool) (limit : Int32) :
    Yields (Lists .messages rows) (select env p limit) fun messages db =>
      messages = trimToLimit env ((rows.filter p).map fromRow) limit ∧ db.tables .messages = some rows :=
  (yields_query p).bind fun found => Cmd.sat_pure fun db hdb => ⟨by rw [hdb.1], hdb.2⟩

theorem yields_offlineForUser (userId limit : Int32) :
    Yields (Lists .messages rows) (offlineForUser env userId limit) fun messages db =>
      messages = trimToLimit env ((rows.filter (isOffline userId)).map fromRow) limit ∧
        Lists .messages (rows.map (delivered messages)) db := by
  refine (yields_select _ limit).bind fun messages => ?_
  refine Cmd.Sat.of_fact fun hmessages => ((yields_markAll messages).pre fun db hdb => .inl hdb).bind fun _ => ?_
  exact Cmd.sat_pure fun db hdb => ⟨hmessages, hdb⟩

/-- Nothing of the address of a message is changed by `edit` and `softDelete`. -/
theorem address_edited (c : Bytes) (b : Bool) (t : Int64) (row : Row) :
    address (fromRow (((row.put (lit "content") (.str c)).put (lit "edited") (.bool b)).put
      (lit "edited_at") (.int t))) = address (fromRow row) := by
  rw [fromRow_put_edited_at, fromRow_put_edited, fromRow_put_content]
  rfl

theorem address_deleted (c : Bytes) (b : Bool) (t : Int64) (row : Row) :
    address (fromRow (((row.put (lit "content") (.str c)).put (lit "deleted") (.bool b)).put
      (lit "deleted_at") (.int t))) = address (fromRow row) := by
  rw [fromRow_put_deleted_at, fromRow_put_deleted, fromRow_put_content]
  rfl

theorem address_withReaction (encoded : Bytes) (row : Row) :
    address (fromRow (withReaction encoded row)) = address (fromRow row) := by
  unfold withReaction
  dsimp only
  split
  · rfl
  · rw [fromRow_put_reactions]
    rfl

/-- Each call returns, and takes its step of the mailbox. -/
theorem yields_execute {call : Call} (hcall : call.Limited) :
    Yields (Lists .messages rows) (call.execute env) (Executed rows call) := by
  cases call with
  | savePrivate fromId toId content contentType isDelivered =>
    refine @yields_saved env rows _ (fun id now => newMessage id fromId toId 0 content contentType now isDelivered)
      rfl (fun _ _ => rfl) fun id now u => ?_
    cases isDelivered <;> simp [newMessage, Call.addressee]
  | saveGroup fromId groupId content contentType =>
    refine @yields_saved env rows _ (fun id now => newMessage id fromId 0 groupId content contentType now true)
      rfl (fun _ _ => rfl) fun id now u => ?_
    simp [newMessage, Call.addressee]
  | edit msgId actorId content =>
    have hedit : Call.execute env (.edit msgId actorId content) = time env >>= fun now => (do
        let _ ← update env .messages (fun row => .ok (isOwn msgId actorId row && !(content = [] : Bool)))
          fun row => ((row.put (lit "content") (.str content)).put (lit "edited") (.bool true)).put
            (lit "edited_at") (.int now)
        pure []) := by
      show MessageRepository.edit env msgId actorId content >>= _ = _
      unfold MessageRepository.edit
      rw [bind_assoc]
    rw [hedit]
    exact yields_time.bind fun now => yields_update_address (address_edited content true now) rfl
  | softDelete msgId actorId =>
    have hdelete : Call.execute env (.softDelete msgId actorId) = time env >>= fun now => (do
        let _ ← update env .messages (fun row => .ok (isOwn msgId actorId row))
          fun row => ((row.put (lit "content") (text "")).put (lit "deleted") (.bool true)).put
            (lit "deleted_at") (.int now)
        pure []) := by
      show MessageRepository.softDelete env msgId actorId >>= _ = _
      unfold MessageRepository.softDelete
      rw [bind_assoc]
    rw [hdelete]
    exact yields_time.bind fun now => yields_update_address (address_deleted (lit "") true now) rfl
  | addReaction msgId actorId reaction =>
    show Yields _ (MessageRepository.addReaction env msgId actorId reaction >>= _) _
    unfold MessageRepository.addReaction
    split
    · intro db hdb
      exact ⟨nofun, fun messages hmessages => by
        cases hmessages
        exact ⟨nofun, rows, hdb, Nat.le_refl _, fun _ hrows => ⟨hrows, .other rfl fun _ => rfl⟩⟩, nofun⟩
    · exact yields_update_address (address_withReaction _) rfl
  | markRead msgId readerId =>
    exact yields_update_address (fun row => by rw [fromRow_readBy]; rfl) rfl
  | offlineForUser userId limit =>
    refine (yields_offlineForUser userId limit).post fun messages db hdb => ?_
    obtain ⟨hmessages, hlists⟩ := hdb
    exact ⟨nofun, _, hlists, by rw [List.length_map], fun _ hrows => hrows.collect hcall hmessages⟩

/-! ## Runs -/

theorem lists_getD {db : Database} (h : db.Lists .messages rows) : (db.tables .messages).getD [] = rows := by
  rcases h with hmem | ⟨hmem, rfl, -⟩
  · rw [hmem]
    rfl
  · rw [hmem]
    rfl

/-- The calls of a run all return, and together they are a run of the mailbox. -/
theorem run_simulates {ledger : Ledger} (h : ledger.db.Lists .messages rows) {calls : List Call}
    (hcalls : ∀ call ∈ calls, call.Limited) :
    ∃ ledger' rows' log, run (Ledger.step env) ledger calls = some ledger' ∧
      ledger'.db.Lists .messages rows' ∧ rows.length ≤ rows'.length ∧ ledger'.log = ledger.log ++ log ∧
      log.map (·.1) = calls ∧ (∀ entry ∈ log, entry.1.saves = true → ∃ m, entry.2 = [m]) ∧ (rows'.length < 2 ^ 63 → Numbered rows →
        Numbered rows' ∧ (mailbox rows).Runs (log.map event) (mailbox rows')) := by
  induction calls generalizing ledger rows with
  | nil => exact ⟨ledger, rows, [], rfl, h, Nat.le_refl _, by simp, rfl, nofun, fun _ hrows => ⟨hrows, rfl⟩⟩
  | cons call calls ih =>
    obtain ⟨-, hok, herror⟩ := @yields_execute env rows call (hcalls call List.mem_cons_self) ledger.db h
    cases hresult : (call.execute env ledger.db).result with
    | error e => exact (herror e hresult).elim
    | ok messages =>
      obtain ⟨hsaved, rows₁, hlists, hlength, hstep⟩ := hok messages hresult
      have hnext : Ledger.step env ledger call =
          some ⟨(call.execute env ledger.db).state, ledger.log ++ [(call, messages)]⟩ := by
        rw [Ledger.step, hresult]
      obtain ⟨ledger', rows', log, hrun, hlists', hlength', hlog, hcall, hsaves, hruns⟩ :=
        @ih rows₁ ⟨(call.execute env ledger.db).state, ledger.log ++ [(call, messages)]⟩ hlists
          fun c hc => hcalls c (List.mem_cons_of_mem _ hc)
      refine ⟨ledger', rows', (call, messages) :: log, ?_, hlists', hlength.trans hlength', ?_, ?_, ?_, ?_⟩
      · exact run_cons_eq_some.mpr ⟨_, hnext, hrun⟩
      · rw [hlog, List.append_assoc]
        rfl
      · rw [List.map_cons, hcall]
      · exact List.forall_mem_cons.mpr ⟨hsaved, hsaves⟩
      · intro hfits hrows
        obtain ⟨hrows₁, hfirst⟩ := hstep (hlength'.trans_lt hfits) hrows
        obtain ⟨hrows', hrest⟩ := hruns hfits hrows₁
        exact ⟨hrows', _, hfirst, hrest⟩

theorem handedOut_eq (log : List (Call × List StoredMessage)) :
    Ledger.handedOut log = Mailbox.collected (log.map event) := by
  unfold Ledger.handedOut Mailbox.collected
  rw [List.flatMap_map]
  congr 1
  funext ⟨call, messages⟩
  cases call <;> rfl

theorem event_saved {call : Call} {m : StoredMessage} (h : call.saves = true) :
    event (call, [m]) = (.post call.addressee m.msg_id, []) := by
  cases call with
  | offlineForUser => cases h
  | _ => simp_all [event]

theorem addressee_of_event {call : Call} {messages : List StoredMessage} {userId : Int32} {key : Int64}
    (h : (event (call, messages)).1 = .post (some userId) key) : call.addressee = some userId := by
  cases call with
  | savePrivate | saveGroup =>
    simp only [event, Call.saves, if_true, Mailbox.Event.post.injEq] at h
    exact h.1
  | offlineForUser => cases h
  | _ => simp [event, Call.saves] at h

theorem collect_of_event {call : Call} {messages : List StoredMessage} {userId : Int32} {atMost : Nat}
    {keys : List Int64} (h : event (call, messages) = (.collect userId atMost, keys)) :
    ∃ limit, call = .offlineForUser userId limit ∧ keys = messages.map (·.msg_id) := by
  cases call with
  | offlineForUser userId' limit =>
    cases h
    exact ⟨limit, rfl, rfl⟩
  | _ => simp [event, Call.saves] at h

theorem pos_of_limit {limit : Int32} (h : 1 ≤ limit) : 0 < limit.toInt.toNat := by
  have hone : (1 : Int32).toInt = 1 := rfl
  rw [Int32.le_iff_toInt_le, hone] at h
  omega

theorem le_mul_ceil {k n : Nat} (hn : 0 < n) : k ≤ n * ((k + n - 1) / n) := by
  have hdiv := Nat.div_add_mod (k + n - 1) n
  have hmod := Nat.mod_lt (k + n - 1) hn
  omega

theorem numbered_nil : Numbered [] := ⟨.nil, nofun⟩

/-- Calls on a table that is empty at first all return, those of `before` and
then those of `after`. Then, as long as a vector can hold the rows:

* no message is handed out twice;
* a message is handed out to nobody but the user for whom it has been saved
  without being delivered;
* until it is handed out to this user, it is pending;
* what is pending before calls that add nothing to it is handed out by them if
  they collect often enough. -/
theorem delivered_exactly_once (env : Env) {db : Database} (h : db.Lists .messages []) {before after : List Call}
    (hbefore : ∀ call ∈ before, call.Limited) (hafter : ∀ call ∈ after, call.Limited) :
    ∃ ledger ledger' log, run (Ledger.step env) ⟨db, []⟩ before = some ledger ∧
      run (Ledger.step env) ledger after = some ledger' ∧ ledger'.log = ledger.log ++ log ∧
      (ledger'.rows.length < 2 ^ 63 →
        (Ledger.handedOut ledger'.log).Nodup ∧
        (∀ call saved, (call, saved) ∈ ledger'.log → call.saves = true → ∀ m ∈ saved,
          (∀ userId limit messages, (.offlineForUser userId limit, messages) ∈ ledger'.log →
            m.msg_id ∈ messages.map (·.msg_id) → call.addressee = some userId) ∧
          ∀ userId, call.addressee = some userId →
            m.msg_id ∈ ledger'.pending userId ∨ m.msg_id ∈ Ledger.handedOut ledger'.log) ∧
        ∀ userId limit, 1 ≤ limit → (∀ call ∈ after, call.addressee ≠ some userId) →
          ((ledger.pending userId).length + limit.toInt.toNat - 1) / limit.toInt.toNat ≤
            after.count (.offlineForUser userId limit) →
          ∀ id ∈ ledger.pending userId, ∃ limit' messages,
            (.offlineForUser userId limit', messages) ∈ log ∧ id ∈ messages.map (·.msg_id)) := by
  obtain ⟨ledger, rows, log₁, hrun₁, hlists₁, -, hlog₁, -, hsaves₁, hruns₁⟩ :=
    @run_simulates env [] ⟨db, []⟩ h before hbefore
  obtain ⟨ledger', rows', log, hrun, hlists, hlength, hlog, hcalls, hsaves, hruns⟩ :=
    @run_simulates env rows ledger hlists₁ after hafter
  refine ⟨ledger, ledger', log, hrun₁, hrun, hlog, fun hfits => ?_⟩
  have hrows : ledger.rows = rows := lists_getD hlists₁
  have hrows' : ledger'.rows = rows' := lists_getD hlists
  rw [hrows'] at hfits
  obtain ⟨hnumbered, hfirst⟩ := hruns₁ (hlength.trans_lt hfits) numbered_nil
  obtain ⟨-, hsecond⟩ := hruns hfits hnumbered
  have hwhole := hfirst.append hsecond
  rw [← List.map_append] at hwhole
  have hall : ledger'.log = log₁ ++ log := by rw [hlog, hlog₁, List.nil_append]
  have hempty : (mailbox []).Sound := numbered_nil.sound
  rw [hall]
  refine ⟨?_, fun call saved hentry hcall m hm => ?_, ?_⟩
  · rw [handedOut_eq]
    exact hwhole.nodup_collected hempty
  · obtain ⟨m', rfl⟩ : ∃ m', saved = [m'] := by
      rcases List.mem_append.mp hentry with hentry | hentry
      · exact hsaves₁ _ hentry hcall
      · exact hsaves _ hentry hcall
    cases List.mem_singleton.mp hm
    have hpost : (.post call.addressee m.msg_id, []) ∈ (log₁ ++ log).map event :=
      event_saved hcall ▸ List.mem_map_of_mem hentry
    refine ⟨fun userId limit messages hcollect hid => ?_, fun userId haddressee => ?_⟩
    · exact hwhole.addressee_of_collected hempty hpost (List.mem_map_of_mem hcollect) hid
    · rw [haddressee] at hpost
      rw [handedOut_eq, Ledger.pending, hrows']
      exact hwhole.posted hpost
  · intro userId limit hlimit hnone hcount id hid
    rw [Ledger.pending, hrows] at hcount hid
    have hadds : ∀ entry ∈ log.map event, ∀ key, entry.1 ≠ .post (some userId) key := by
      intro entry hentry key hpost
      obtain ⟨⟨call, messages⟩, hmem, rfl⟩ := List.mem_map.mp hentry
      exact hnone call (hcalls ▸ List.mem_map_of_mem hmem) (addressee_of_event hpost)
    have hcollects : after.count (.offlineForUser userId limit) ≤
        (log.map event).countP fun entry => entry.1 = .collect userId limit.toInt.toNat := by
      rw [← hcalls, List.count, List.countP_map, List.countP_map]
      refine List.countP_mono_left fun ⟨call, messages⟩ _ hcall => ?_
      cases eq_of_beq hcall
      exact decide_eq_true rfl
    obtain ⟨atMost, keys, hcollect, hkeys⟩ := hsecond.collects_all hnumbered.sound hadds
      ((le_mul_ceil (pos_of_limit hlimit)).trans (Nat.mul_le_mul_left _ (hcount.trans hcollects))) hid
    obtain ⟨⟨call, messages⟩, hmem, hevent⟩ := List.mem_map.mp hcollect
    obtain ⟨limit', rfl, rfl⟩ := collect_of_event hevent
    exact ⟨limit', messages, hmem, hkeys⟩

/-- Two messages that wait for user 2, and one that does not. -/
def threeMessages : List Call :=
  [.savePrivate 1 2 (lit "a") [] false, .savePrivate 1 2 (lit "b") [] true, .savePrivate 3 2 (lit "c") [] false]

/-- User 2 collects one message at a time. -/
def twoLogins : List Call := [.offlineForUser 2 1, .markRead 1 2, .offlineForUser 2 1]

theorem delivered_exactly_once_pair :
    ∃ ledger ledger' log, run (Ledger.step .ideal) ⟨connect .empty, []⟩ threeMessages = some ledger ∧
      run (Ledger.step .ideal) ledger twoLogins = some ledger' ∧ ledger'.log = ledger.log ++ log ∧
      (ledger'.rows.length < 2 ^ 63 →
        (Ledger.handedOut ledger'.log).Nodup ∧
        (∀ call saved, (call, saved) ∈ ledger'.log → call.saves = true → ∀ m ∈ saved,
          (∀ userId limit messages, (.offlineForUser userId limit, messages) ∈ ledger'.log →
            m.msg_id ∈ messages.map (·.msg_id) → call.addressee = some userId) ∧
          ∀ userId, call.addressee = some userId →
            m.msg_id ∈ ledger'.pending userId ∨ m.msg_id ∈ Ledger.handedOut ledger'.log) ∧
        ∀ userId limit, 1 ≤ limit → (∀ call ∈ twoLogins, call.addressee ≠ some userId) →
          ((ledger.pending userId).length + limit.toInt.toNat - 1) / limit.toInt.toNat ≤
            twoLogins.count (.offlineForUser userId limit) →
          ∀ id ∈ ledger.pending userId, ∃ limit' messages,
            (.offlineForUser userId limit', messages) ∈ log ∧ id ∈ messages.map (·.msg_id)) := by
  have hlists : (connect .empty).Lists .messages [] := .inr ⟨rfl, rfl, rfl⟩
  have hbefore : ∀ call ∈ threeMessages, call.Limited := by simp [threeMessages, Call.Limited]
  have hafter : ∀ call ∈ twoLogins, call.Limited := by simp [twoLogins, Call.Limited]
  exact delivered_exactly_once .ideal hlists hbefore hafter

end Mailbox

end MessageRepository

end LanChat
