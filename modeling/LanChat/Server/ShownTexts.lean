import LanChat.Server.Authentication
import LanChat.Server.Authorship
import LanChat.Server.Confidentiality
import LanChat.Server.FrameTypes
import LanChat.Server.HandedOnce
import LanChat.Server.OfflineLoss
import LanChat.Server.Passwords

/-!
# What is shown of a message

A payload that contains a message is made from a row that is in the table when the
payload is handed out, whatever fails, and the announcement of an edit has the text
that is stored by then (`current_of_mem_handle`). So the text that is shown of a
message is its last one, and nothing is shown of a message any more once it has been
deleted (`deleted_shown_no_more`).
-/

namespace LanChat

open Lib Json

namespace MessageRepository

open Database

/-- The row is that of the message; a message that has been waiting has been marked as
delivered after it was read. -/
def Agrees (row : Row) (m : StoredMessage) : Prop := { fromRow row with delivered := m.delivered } = m

/-- The table has a row for each of the messages. -/
def HasRows (messages : List StoredMessage) (rows : RowList) : Prop := ∀ m ∈ messages, ∃ row ∈ rows, Agrees row m

/-- The table is in memory, or will be loaded, and has a row for each of the messages. -/
abbrev Shows (env : Env) (messages : List StoredMessage) : Database → Prop :=
  Tracks env True .messages (HasRows messages)

section Rows

variable {env : Env} {messages : List StoredMessage} {rows : RowList} {db : Database}

theorem agrees_fromRow (row : Row) : Agrees row (fromRow row) := rfl

theorem hasRows_map {f : Row → Row} (h : HasRows messages rows) (hf : ∀ row m, Agrees row m → Agrees (f row) m) :
    HasRows messages (rows.map f) := fun m hm => by
  obtain ⟨row, hrow, hagrees⟩ := h m hm
  exact ⟨f row, List.mem_map_of_mem hrow, hf row m hagrees⟩

theorem take_hasRows (hpart : ¬True) (rows : RowList) (n : Nat) (_ : HasRows messages rows) :
    HasRows messages (rows.take n) := absurd trivial hpart

theorem reads_shows (env : Env) (messages : List StoredMessage) :
    Reads env (fun _ _ => True) (Shows env messages) (Shows env messages) :=
  reads_tracks take_hasRows

theorem shows_of_cached (hmem : db.tables .messages = some rows) (h : HasRows messages rows) : Shows env messages db where
  settled := settled_of_cached (by rw [hmem]; rfl)
  rows := by rw [content_of_cached hmem]; exact h
  loads _ := .inr (by rw [hmem]; rfl)

theorem guarded_markDelivered_shows (msgId : Int64) :
    Guarded (Shows env messages) (Shows env messages) (markDelivered env msgId) := by
  refine Guarded.bind (guarded_update_tracks take_hasRows fun rows hrows => hasRows_map hrows fun row m hagrees => ?_)
    fun _ => guarded_pure ()
  split
  · unfold Agrees at hagrees ⊢
    rw [fromRow_put_delivered]
    exact hagrees
  · exact hagrees

/-! ## What the queries find -/

theorem sat_select_shows (p : Row → Bool) (limit : Int32) :
    Cmd.Sat (fun _ => True) (select env p limit) (fun messages => Shows env messages) (fun _ _ => True) fun _ => True := by
  intro db _
  obtain ⟨-, hrows, -⟩ := @sat_select env (fun _ => True) (fun _ => True) p limit db trivial
  obtain ⟨-, hloaded, -⟩ := @sat_select_loaded env p limit db trivial
  refine ⟨nofun, fun messages hmessages => ?_, fun _ _ => trivial⟩
  obtain ⟨rows, hmem⟩ := Option.isSome_iff_exists.mp (hloaded messages hmessages)
  refine shows_of_cached hmem fun m hm => ?_
  obtain ⟨row, hrow, -, rfl⟩ := hrows messages hmessages m hm
  rw [hmem] at hrow
  exact ⟨row, hrow, agrees_fromRow row⟩

theorem sat_offlineForUser_shows (userId limit : Int32) :
    Cmd.Sat (fun _ => True) (offlineForUser env userId limit) (fun messages => Shows env messages) (fun _ _ => True)
      fun _ => True :=
  (sat_select_shows _ limit).bind fun _ =>
    (Guarded.lax (guarded_each fun _ => guarded_markDelivered_shows _)).bind fun _ => Cmd.sat_pure fun _ h => h

theorem shows_of_savedLast {delivered : Bool} {m : StoredMessage} (h : MessageRouter.SavedLast delivered m db) :
    Shows env [m] db := by
  obtain ⟨-, rows, hmem⟩ := h
  refine shows_of_cached hmem fun m' hm' => ?_
  obtain rfl := List.mem_singleton.mp hm'
  exact ⟨toRow m', List.mem_append_right _ (List.mem_singleton_self _), by rw [Agrees, fromRow_toRow]⟩

end Rows

end MessageRepository

namespace MessageRouter

open Database MessageRepository

/-- The types of the payloads that contain messages as they are stored. -/
def messageTypes : List MsgType := [.ReceiveMsg, .ReceiveGroupMsg, .OfflineMessages, .HistoryResponse]

/-- The other types. -/
def plainTypes : List MsgType := MsgType.all.filter fun type => type ∉ messageTypes

/-- How the messages are put into the payload. An announcement of an edit has the text
that one of the rows has under the id. -/
inductive Presents (rows : RowList) : Object → List StoredMessage → Prop
  | nothing {payload : Object} (h : OfType plainTypes payload) : Presents rows payload []
  | message (type : MsgType) (m : StoredMessage) : Presents rows (messageToJson type m) [m]
  | offline (messages : List StoredMessage) : Presents rows (offlineReply messages) messages
  | history (messages : List StoredMessage) : Presents rows (historyReply messages) messages
  | found (requestId query : Bytes) (messages : List StoredMessage) :
    Presents rows (searchReply requestId query messages) messages
  | summary (requestId : Bytes) (history : List StoredMessage) (chunkIndex : Nat) :
    Presents rows (summaryChunk requestId (summarizeMessages history) chunkIndex) (quoted history)
  | edit {row : Row} {messages : List StoredMessage} {msgId : Int64} (hrow : row ∈ rows)
    (hid : (fromRow row).msg_id = msgId) (hmessages : ∀ m ∈ messages, m.msg_id = msgId)
    (fromId : Int32) (now : Int64) (toId groupId : Int32) :
    Presents rows (editReply true msgId fromId (fromRow row).content now toId groupId) messages

/-- What the delivery carries is what its payload presents, and in the table when it
is handed out. -/
structure Current (d : Delivery) : Prop where
  presents : Presents (d.at_.db.content .messages) d.payload d.carries
  stored : ∀ m ∈ d.carries, ∃ row ∈ d.at_.db.content .messages, Agrees row m

/-- Whatever the command hands out is current. -/
def Truthful {α : Type} (c : RouterM α) : Prop :=
  Cmd.Sat (fun _ => True) c (fun _ _ => True) (fun _ _ => True) Current

section Truthful

variable {env : Env} {α β : Type} {session : SessionId} {request payload : Object} {messages : List StoredMessage}
  {I : Database → Prop} {carries : Server → List StoredMessage}

theorem truthful_of_out {c : RouterM α} (h : ∀ st, (c st).out = []) : Truthful c := fun st _ =>
  ⟨by rw [h]; exact nofun, fun _ _ => trivial, fun _ _ => trivial⟩

theorem truthful_pure (a : α) : Truthful (pure a : RouterM α) := truthful_of_out fun _ => rfl

theorem truthful_throw (e : Exn) : Truthful (Cmd.throw e : RouterM α) := truthful_of_out fun _ => rfl

theorem truthful_asks (f : Server → α) : Truthful (Cmd.asks f : RouterM α) := truthful_of_out fun _ => rfl

theorem truthful_modify (f : Server → Server) : Truthful (Cmd.modify f : RouterM Unit) :=
  truthful_of_out fun _ => rfl

theorem truthful_onDb (c : DbM α) : Truthful (onDb c) := truthful_of_out fun st => by simp [onDb]

theorem Truthful.bind {c : RouterM α} {f : α → RouterM β} (hc : Truthful c) (hf : ∀ a, Truthful (f a)) :
    Truthful (c >>= f) := Cmd.Sat.bind hc hf

theorem Truthful.ite {b : Prop} [Decidable b] {c d : RouterM α} (hc : Truthful c) (hd : Truthful d) :
    Truthful (if b then c else d) := Cmd.sat_ite (fun _ => hc) fun _ => hd

theorem Truthful.when {b : Prop} [Decidable b] {c : RouterM Unit} (hc : Truthful c) : Truthful (Cmd.when b c) :=
  hc.ite (truthful_pure ())

theorem truthful_each {xs : List β} {body : β → RouterM Unit} (h : ∀ x, Truthful (body x)) :
    Truthful (Cmd.each xs body) := Cmd.sat_each fun x _ => h x

theorem truthful_andAlso {b : Prop} [Decidable b] {c : DbM Bool} : Truthful (Cmd.andAlso b (onDb c)) :=
  (truthful_onDb c).ite (truthful_pure false)

/-! ## Handing out while the database meets a condition -/

/-- In every state that meets the condition the payload is current. -/
def CurrentIn (I : Database → Prop) (payload : Object) (carries : Server → List StoredMessage) : Prop :=
  ∀ (target : SessionId) (st : Server), I st.db → Current ⟨target, payload, carries st, st⟩

theorem sat_deliverContent_current (h : CurrentIn I payload carries) (target : SessionId) :
    Cmd.Sat (fun st => I st.db) (deliverContent target payload carries) (fun _ st => I st.db) (fun _ _ => True)
      Current := by
  intro st hst
  have hcurrent := h target st hst
  simp only [deliverContent]
  split
  · exact ⟨fun d hd => List.mem_singleton.mp hd ▸ hcurrent, fun _ _ => hst, fun _ herror => by cases herror⟩
  · exact ⟨fun d hd => List.mem_singleton.mp hd ▸ hcurrent, fun _ hok => (by cases hok), fun _ _ => trivial⟩

theorem sat_deliverIfFound_current (h : CurrentIn I payload carries) (target : Option SessionId) :
    Cmd.Sat (fun st => I st.db) (deliverIfFound target payload carries) (fun _ st => I st.db) (fun _ _ => True)
      Current := by
  cases target with
  | none => exact Cmd.sat_pure fun _ h => h
  | some target => exact sat_deliverContent_current h target

theorem sat_deliverToUser_current (h : CurrentIn I payload carries) (user : Int32) :
    Cmd.Sat (fun st => I st.db) (deliverToUser user payload carries) (fun _ st => I st.db) (fun _ _ => True)
      Current := by
  have hfound : Cmd.Sat (fun st => I st.db) (findByUserId user) (fun _ st => I st.db) (fun _ _ => True) Current :=
    Cmd.sat_asks fun _ h => h
  exact hfound.bind fun target => sat_deliverIfFound_current h target

theorem sat_deliverToConversation_current (h : CurrentIn I payload carries) (senderId toId groupId : Int32)
    (hmembers : Guarded I I (ChannelRepository.members env groupId)) :
    Cmd.Sat (fun st => I st.db) (deliverToConversation env payload senderId toId groupId carries)
      (fun _ st => I st.db) (fun _ _ => True) Current := by
  refine Cmd.sat_ite (fun _ => ?_) fun _ => ?_
  · have hread : Cmd.Sat (fun st => I st.db) (onDb (ChannelRepository.members env groupId)) (fun _ st => I st.db)
        (fun _ _ => True) Current := by
      refine Cmd.sat_zoom fun st hst db hdb => ?_
      obtain ⟨-, hok, -⟩ := hmembers db (hdb ▸ hst)
      exact ⟨fun w => w.elim, hok, fun _ _ => trivial⟩
    exact hread.bind fun members => Cmd.sat_each fun memberId _ => sat_deliverToUser_current h memberId
  · refine (sat_deliverToUser_current h senderId).bind fun _ => Cmd.sat_ite (fun _ => ?_) fun _ => ?_
    · exact sat_deliverToUser_current h toId
    · exact Cmd.sat_pure fun _ h => h

/-! ## Payloads without messages -/

theorem currentIn_nothing (h : OfType plainTypes payload) : CurrentIn (fun _ => True) payload fun _ => [] :=
  fun _ _ _ => ⟨.nothing h, fun _ hm => (List.not_mem_nil hm).elim⟩

theorem truthful_deliver (h : OfType plainTypes payload) : Truthful (deliver session payload) :=
  sat_deliverContent_current (currentIn_nothing h) session

theorem truthful_errorReply {type : MsgType} (h : type ∈ plainTypes) (code : Int32) (msg : String) :
    Truthful (deliver session (errorReply type code msg)) :=
  truthful_deliver (ofType_errorReply h code msg)

theorem truthful_okReply {type : MsgType} (h : type ∈ plainTypes) (msg : String) :
    Truthful (deliver session (okReply type msg)) :=
  truthful_deliver (ofType_okReply h msg)

theorem truthful_notify (user : Int32) (h : OfType plainTypes payload) :
    Truthful (deliverToUser user payload fun _ => []) :=
  sat_deliverToUser_current (currentIn_nothing h) user

theorem truthful_deliverToConversation (h : OfType plainTypes payload) (senderId toId groupId : Int32) :
    Truthful (deliverToConversation env payload senderId toId groupId fun _ => []) :=
  sat_deliverToConversation_current (currentIn_nothing h) senderId toId groupId
    fun _ _ => ⟨nofun, fun _ _ => trivial, fun _ _ => trivial⟩

theorem truthful_answerChange (ok : Bool) (h : OfType plainTypes payload) (fromId toId groupId : Int32) :
    Truthful (answerChange env session ok payload fromId toId groupId fun _ => []) :=
  (truthful_deliverToConversation h fromId toId groupId).ite (truthful_deliver h)

theorem truthful_broadcastPresence (type : MsgType) (userId : Int32) :
    Truthful (broadcastPresence env type userId) := by
  refine (truthful_onDb _).bind fun user => ?_
  cases user with
  | none => exact truthful_pure ()
  | some user =>
    refine (truthful_onDb _).bind fun friends => truthful_each fun friend => truthful_notify _ ?_
    exact ofType_object (t := .FriendOnline) (by decide) (by simp)

/-! ## Messages that have been read or saved -/

/-- If there are messages, the table has a row for each of them. -/
def Found (env : Env) (messages : List StoredMessage) (db : Database) : Prop := messages ≠ [] → Shows env messages db

/-- The messages go on being in the table while they are handed out. -/
theorem currentIn_found (h : ∀ rows, Presents rows payload messages) :
    CurrentIn (Found env messages) payload fun _ => messages :=
  fun _ _ hst => ⟨h _, fun m hm => (hst (List.ne_nil_of_mem hm)).rows m hm⟩

/-- A call whose result is shown. -/
theorem sat_onDb_found {c : DbM α} {shown : α → List StoredMessage}
    (h : Cmd.Sat (fun _ => True) c (fun a => Found env (shown a)) (fun _ _ => True) fun _ => True) :
    Cmd.Sat (fun _ => True) (onDb c) (fun a st => Found env (shown a) st.db) (fun _ _ => True) Current := by
  refine Cmd.sat_zoom fun st _ db _ => ?_
  obtain ⟨-, hok, -⟩ := h db trivial
  exact ⟨fun w => w.elim, hok, fun _ _ => trivial⟩

/-- An answer made from the results of a query. -/
theorem truthful_answer {c : DbM (List StoredMessage)} {payload : List StoredMessage → Object}
    (h : Cmd.Sat (fun _ => True) c (fun messages => Found env messages) (fun _ _ => True) fun _ => True)
    (hpresents : ∀ rows messages, Presents rows (payload messages) messages) :
    Truthful (onDb c >>= fun messages => deliverContent session (payload messages) fun _ => messages) := by
  refine (@sat_onDb_found env _ _ id h).bind fun messages => ?_
  have hcurrent : CurrentIn (Found env messages) (payload messages) fun _ => messages :=
    currentIn_found fun rows => hpresents rows messages
  exact (sat_deliverContent_current hcurrent session).post fun _ _ _ => trivial

theorem sat_select_found (p : Row → Bool) (limit : Int32) :
    Cmd.Sat (fun _ => True) (select env p limit) (fun messages => Found env messages) (fun _ _ => True) fun _ => True :=
  (sat_select_shows p limit).post fun _ _ h _ => h

theorem truthful_handlePrivateMessage : Truthful (handlePrivateMessage env session request) := by
  refine (truthful_asks _).bind fun fromId => Truthful.ite (truthful_errorReply (by decide) _ _) ?_
  refine (truthful_asks _).bind fun target => ?_
  have hsaved : Cmd.Sat (fun _ => True) (onDb (savePrivate env fromId (intField request "toId" 0)
      (stringField request "msg" []) (stringField request "content_type" (lit "text")) target.isSome))
      (fun message st => Found env [message] st.db) (fun _ _ => True) Current := by
    refine @sat_onDb_found env _ _ (fun message => [message]) fun db _ => ?_
    obtain ⟨-, hok, -⟩ := @sat_savePrivate_last env fromId (intField request "toId" 0) (stringField request "msg" [])
      (stringField request "content_type" (lit "text")) target.isSome (fun _ => True) db trivial
    exact ⟨nofun, fun message hmessage _ => shows_of_savedLast (hok message hmessage), fun _ _ => trivial⟩
  refine hsaved.bind fun message => ?_
  have hcurrent : CurrentIn (Found env [message]) (messageToJson .ReceiveMsg message) fun _ => [message] :=
    currentIn_found fun _ => .message _ _
  exact (sat_deliverIfFound_current hcurrent target).bind fun _ =>
    (sat_deliverContent_current hcurrent session).post fun _ _ _ => trivial

theorem truthful_handleGroupMessage : Truthful (handleGroupMessage env session request) := by
  refine (truthful_asks _).bind fun fromId => Truthful.ite (truthful_errorReply (by decide) _ _) ?_
  have hsaved : Cmd.Sat (fun _ => True) (onDb (saveGroup env fromId (intField request "groupId" 0)
      (stringField request "msg" []) (stringField request "content_type" (lit "text"))))
      (fun message st => Found env [message] st.db) (fun _ _ => True) Current := by
    refine @sat_onDb_found env _ _ (fun message => [message]) fun db _ => ?_
    obtain ⟨-, hok, -⟩ := @sat_saveGroup_last env fromId (intField request "groupId" 0) (stringField request "msg" [])
      (stringField request "content_type" (lit "text")) (fun _ => True) db trivial
    exact ⟨nofun, fun message hmessage _ => shows_of_savedLast (hok message hmessage), fun _ _ => trivial⟩
  refine hsaved.bind fun message => ?_
  have hmembers : Cmd.Sat (fun st => Found env [message] st.db)
      (onDb (ChannelRepository.members env (intField request "groupId" 0)))
      (fun _ st => Found env [message] st.db) (fun _ _ => True) Current := by
    refine Cmd.sat_zoom fun st hst db hdb => ?_
    obtain ⟨-, hok, -⟩ := (reads_shows env [message]).members (intField request "groupId" 0) db
      (hdb ▸ hst (List.cons_ne_nil _ _))
    exact ⟨fun w => w.elim, fun members hread _ => hok members hread, fun _ _ => trivial⟩
  refine hmembers.bind fun members => ?_
  have hcurrent : CurrentIn (Found env [message]) (messageToJson .ReceiveGroupMsg message) fun _ => [message] :=
    currentIn_found fun _ => .message _ _
  have heach : Cmd.Sat (fun st => Found env [message] st.db) (Cmd.each members fun memberId =>
      deliverToUser memberId (messageToJson .ReceiveGroupMsg message) fun _ => [message])
      (fun _ st => Found env [message] st.db) (fun _ _ => True) Current :=
    Cmd.sat_each fun memberId _ => sat_deliverToUser_current hcurrent memberId
  exact heach.post fun _ _ _ => trivial

/-! ## Queries -/

theorem sat_requestedHistory_found (userId : Int32) :
    Cmd.Sat (fun _ => True) (requestedHistory env userId request) (fun messages => Found env messages) (fun _ _ => True)
      fun _ => True :=
  (Cmd.sat_true _).bind fun _ => Cmd.sat_ite (fun _ => sat_select_found _ _) fun _ =>
    Cmd.sat_ite (fun _ => sat_select_found _ _) fun _ => Cmd.sat_pure fun _ _ h => absurd rfl h

theorem truthful_handleHistory : Truthful (handleHistory env session request) :=
  (truthful_asks _).bind fun userId => truthful_answer (sat_requestedHistory_found userId) fun _ => .history

theorem sat_orNone_found {c : DbM (List StoredMessage)}
    (h : Cmd.Sat (fun _ => True) c (fun messages => Found env messages) (fun _ _ => True) fun _ => True) :
    Cmd.Sat (fun _ => True) (orNone c) (fun history => Found env (quoted (history.getD []))) (fun _ _ => True)
      fun _ => True := by
  intro db _
  obtain ⟨-, hok, -⟩ := h db trivial
  unfold orNone
  split
  · next messages hmessages =>
    refine ⟨nofun, fun history hhistory hne => ?_, nofun⟩
    cases hhistory
    have hnonempty : messages ≠ [] := by
      rintro rfl
      exact hne rfl
    have hshows := hok messages hmessages hnonempty
    exact ⟨hshows.settled, fun m hm => hshows.rows m (mem_of_mem_quoted hm), hshows.loads⟩
  · refine ⟨nofun, fun history hhistory hne => ?_, nofun⟩
    cases hhistory
    exact absurd rfl hne

theorem sat_summaryHistory_found (userId : Int32) (query : Bytes) :
    Cmd.Sat (fun _ => True) (summaryHistory env userId query)
      (fun history => Found env (quoted (history.getD []))) (fun _ _ => True) fun _ => True := by
  unfold summaryHistory
  split
  · exact sat_orNone_found (sat_select_found _ _)
  · exact sat_orNone_found (sat_select_found _ _)
  · exact Cmd.sat_pure fun _ _ h => absurd rfl h
  · exact Cmd.sat_pure fun _ _ h => absurd rfl h

theorem truthful_handleSummarize (requestId query : Bytes) :
    Truthful (handleSummarize env session requestId query) := by
  refine (truthful_asks _).bind fun userId => ?_
  refine (sat_onDb_found (sat_summaryHistory_found userId query)).bind fun history => ?_
  cases history with
  | none => exact (truthful_errorReply (by decide) _ _).pre fun _ _ => trivial
  | some history =>
    have hstart : CurrentIn (Found env (quoted history)) (summaryStart requestId) fun _ => [] := by
      intro _ _ _
      exact ⟨.nothing (ofType_object (t := .AIResponse) (by decide) (by simp)),
        fun _ hm => (List.not_mem_nil hm).elim⟩
    have hchunk : ∀ chunkIndex, CurrentIn (Found env (quoted history))
        (summaryChunk requestId (summarizeMessages history) chunkIndex) fun _ => quoted history :=
      fun chunkIndex => currentIn_found fun _ => .summary requestId history chunkIndex
    refine (sat_deliverContent_current hstart session).bind fun _ => ?_
    have heach : Cmd.Sat (fun st => Found env (quoted history) st.db)
        (Cmd.each (List.range (chunkCount (summarizeMessages history))) fun chunkIndex =>
          deliverContent session (summaryChunk requestId (summarizeMessages history) chunkIndex) fun _ =>
            quoted history) (fun _ st => Found env (quoted history) st.db) (fun _ _ => True) Current :=
      Cmd.sat_each fun chunkIndex _ => sat_deliverContent_current (hchunk chunkIndex) session
    exact heach.post fun _ _ _ => trivial

theorem truthful_handleAIRequest : Truthful (handleAIRequest env session request) := by
  refine Truthful.ite (truthful_handleSummarize _ _) ?_
  refine Truthful.ite (truthful_errorReply (by decide) _ _) ?_
  refine @truthful_answer env _ _ _ ?_ fun _ => .found _ _
  refine Cmd.sat_ite (fun _ => ?_) fun _ => sat_select_found _ _
  exact Cmd.sat_pure fun _ _ hne => absurd rfl hne

/-! ## Edits -/

/-- The table has a row with this id and this text. -/
def HasText (msgId : Int64) (content : Bytes) (rows : RowList) : Prop :=
  ∃ row ∈ rows, (fromRow row).msg_id = msgId ∧ (fromRow row).content = content

/-- An edit that is reported as done leaves a row with the id and the text. -/
theorem sat_edit_hasText (msgId : Int64) (actorId : Int32) (content : Bytes) :
    Cmd.Sat (fun _ => True) (edit env msgId actorId content)
      (fun ok db => ok = true → Tracks env True .messages (HasText msgId content) db) (fun _ _ => True)
      fun _ => True := by
  refine (Cmd.sat_true (P := fun _ => True) (Database.time env)).bind fun now db _ => ?_
  refine ⟨nofun, fun ok hok htrue => ?_, fun _ _ => trivial⟩
  subst htrue
  obtain ⟨rows, hmem, row, hrow, hselected⟩ := cached_of_update hok
  have htext : HasText msgId content (rows.map fun row =>
      if isOwn msgId actorId row && !(content = [] : Bool) then
        ((row.put (lit "content") (.str content)).put (lit "edited") (.bool true)).put (lit "edited_at") (.int now)
      else row) := by
    refine ⟨_, List.mem_map_of_mem hrow, ?_⟩
    rw [if_pos hselected, fromRow_put_edited_at, fromRow_put_edited, fromRow_put_content]
    simp only [isOwn, hasMsgId, Bool.and_eq_true, decide_eq_true_eq] at hselected
    exact ⟨hselected.1.1.1, rfl⟩
  exact {
    settled := settled_of_cached (by rw [hmem]; rfl)
    rows := by rw [content_of_cached hmem]; exact htext
    loads := fun _ => .inr (by rw [hmem]; rfl) }

theorem reads_hasText (env : Env) (msgId : Int64) (content : Bytes) :
    Reads env (fun _ _ => True) (Tracks env True .messages (HasText msgId content))
      (Tracks env True .messages (HasText msgId content)) :=
  reads_tracks fun hpart => absurd trivial hpart

theorem currentIn_edit (msgId : Int64) (fromId : Int32) (content : Bytes) (now : Int64) (toId groupId : Int32) :
    CurrentIn (Tracks env True .messages (HasText msgId content))
      (editReply true msgId fromId content now toId groupId) (storedMessages msgId fromId) := by
  intro target st hst
  obtain ⟨row, hrow, hid, rfl⟩ := hst.rows
  refine ⟨.edit hrow hid (fun m hm => ?_) fromId now toId groupId, fun m hm => ?_⟩
  · obtain ⟨stored, hstored, rfl⟩ := List.mem_map.mp hm
    have hselected := (List.mem_filter.mp hstored).2
    simp only [hasMsgId, Bool.and_eq_true, decide_eq_true_eq] at hselected
    exact hselected.1
  · obtain ⟨stored, hstored, rfl⟩ := List.mem_map.mp hm
    exact ⟨stored, mem_content (List.mem_filter.mp hstored).1, agrees_fromRow stored⟩

/-- The announcement of an edit has the text that is stored by then. -/
theorem truthful_handleMessageEdit : Truthful (handleMessageEdit env session request) := by
  refine (truthful_asks _).bind fun fromId => ?_
  generalize int64Field request "msg_id" 0 = msgId
  generalize stringField request "msg" [] = content
  generalize intField request "toId" 0 = toId
  generalize intField request "groupId" 0 = groupId
  let Edited (ok : Bool) (st : Server) := ok = true → Tracks env True .messages (HasText msgId content) st.db
  have hedit : Cmd.Sat (fun _ => True) (Cmd.andAlso (0 < fromId ∧ 0 < msgId) (onDb (edit env msgId fromId content)))
      Edited (fun _ _ => True) Current := by
    refine Cmd.sat_ite (fun _ => ?_) fun _ => Cmd.sat_pure fun _ _ hok => by cases hok
    refine Cmd.sat_zoom fun st _ db _ => ?_
    obtain ⟨-, hok, -⟩ := @sat_edit_hasText env msgId fromId content db trivial
    exact ⟨fun w => w.elim, hok, fun _ _ => trivial⟩
  refine hedit.bind fun ok => ?_
  have htime : Cmd.Sat (Edited ok) (nowSeconds env) (fun _ => Edited ok) (fun _ _ => True) Current := by
    unfold nowSeconds onDb
    refine Cmd.sat_zoom fun st hst db hdb => ?_
    refine ⟨fun w => w.elim, fun now hnow hok => ?_, fun _ _ => trivial⟩
    exact ((reads_hasText env msgId content).time db (hdb ▸ hst hok)).2.1 now hnow
  refine htime.bind fun now => ?_
  cases ok with
  | false =>
    have hfailed : OfType plainTypes (editReply false msgId fromId content now toId groupId) :=
      ofType_append_targetFields (t := .MessageEditReturn) (by decide) (by simp)
    exact (truthful_deliver hfailed).pre fun _ _ => trivial
  | true =>
    have hcurrent := @currentIn_edit env msgId fromId content now toId groupId
    have hconversation := sat_deliverToConversation_current hcurrent fromId toId groupId
      ((reads_hasText env msgId content).members groupId)
    exact (hconversation.pre fun st hst => hst rfl).post fun _ _ _ => trivial

/-! ## The other handlers -/

theorem truthful_handleRegister : Truthful (handleRegister env session request) := by
  refine Truthful.ite (truthful_errorReply (by decide) _ _) ?_
  refine (truthful_onDb _).bind fun created => ?_
  refine Truthful.ite (truthful_errorReply (by decide) _ _) ?_
  exact truthful_deliver (ofType_object (t := .RegisterUserReturn) (by decide) (by simp))

theorem truthful_deliverOffline (uid : Int32) : Truthful (deliverOffline env session uid) := by
  have hread : Cmd.Sat (fun _ => True) (offlineForUser env uid 100) (fun messages => Found env messages)
      (fun _ _ => True) fun _ => True := (sat_offlineForUser_shows uid 100).post fun _ _ h _ => h
  refine (@sat_onDb_found env _ _ id hread).bind fun offline => ?_
  refine Cmd.sat_ite (fun _ => Cmd.sat_pure fun _ _ => trivial) fun _ => ?_
  have hcurrent : CurrentIn (Found env offline) (offlineReply offline) fun _ => offline :=
    currentIn_found fun _ => .offline offline
  exact (sat_deliverContent_current hcurrent session).post fun _ _ _ => trivial

theorem truthful_acceptLogin (uid : Int32) (user : UserInfo) : Truthful (acceptLogin env session uid user) := by
  refine (truthful_modify _).bind fun _ => ?_
  refine (truthful_modify _).bind fun _ => ?_
  refine (truthful_onDb _).bind fun _ => ?_
  refine (truthful_asks _).bind fun presence => ?_
  refine (truthful_onDb _).bind fun knownUsers => ?_
  refine (truthful_onDb _).bind fun friendUsers => ?_
  refine (truthful_onDb _).bind fun groups => ?_
  refine (truthful_deliver (ofType_object (t := .LoginSuccessReturn) (by decide) (by simp))).bind fun _ => ?_
  exact (truthful_deliverOffline uid).bind fun _ => truthful_broadcastPresence _ _

theorem truthful_handleLogin : Truthful (handleLogin env session request) := by
  refine Truthful.ite (truthful_errorReply (by decide) _ _) ?_
  refine (truthful_onDb _).bind fun verified => ?_
  refine Truthful.ite (truthful_errorReply (by decide) _ _) ?_
  refine (truthful_onDb _).bind fun user => ?_
  cases user with
  | none => exact truthful_errorReply (by decide) _ _
  | some user => exact truthful_acceptLogin _ user

theorem truthful_handleLogout : Truthful (handleLogout env session) := by
  refine (truthful_asks _).bind fun uid => ?_
  have hleaves : Truthful (Cmd.when (0 < uid) do
      modifyPresence fun presence => presence.setOffline uid
      onDb (UserRepository.setOnlineStatus env uid false)
      modifyPool fun pool => pool.unbindUser uid
      broadcastPresence env .UserOffline uid) := by
    refine Truthful.when ?_
    refine (truthful_modify _).bind fun _ => (truthful_onDb _).bind fun _ => ?_
    exact (truthful_modify _).bind fun _ => truthful_broadcastPresence _ _
  exact hleaves.bind fun _ => truthful_okReply (by decide) _

theorem truthful_handleFileTransfer : Truthful (handleFileTransfer env session request) := by
  refine (truthful_asks _).bind fun fromId => Truthful.ite (truthful_errorReply (by decide) _ _) ?_
  have hcopy : OfType plainTypes (incomingFile request) := ofType_put (by decide) request
  refine (truthful_deliverToConversation hcopy _ _ _).bind fun _ => ?_
  exact truthful_deliver (ofType_object (t := .FileTransferDone) (by decide) (by simp))

theorem truthful_handleCreateGroup : Truthful (handleCreateGroup env session request) := by
  refine (truthful_asks _).bind fun hostId => Truthful.ite (truthful_errorReply (by decide) _ _) ?_
  refine (truthful_onDb _).bind fun group => truthful_deliver ?_
  exact (ofType_put (t := .CreateGroupReturn) (by decide) (groupToJson group)).put (by decide) _

theorem truthful_handleSearchGroup : Truthful (handleSearchGroup env session request) := by
  refine (truthful_onDb _).bind fun groups => ?_
  exact truthful_deliver (ofType_object (t := .SearchGroupReturn) (by decide) (by simp))

theorem truthful_handleJoinGroup : Truthful (handleJoinGroup env session request) := by
  refine (truthful_asks _).bind fun userId => (truthful_onDb _).bind fun joined => ?_
  refine Truthful.ite (truthful_errorReply (by decide) _ _) ?_
  refine (truthful_onDb _).bind fun memberIds => (truthful_onDb _).bind fun members => ?_
  refine (truthful_asks _).bind fun presence => ?_
  exact truthful_deliver (ofType_object (t := .JoinGroupReturn) (by decide) (by simp))

theorem truthful_handleLeaveGroup : Truthful (handleLeaveGroup env session request) :=
  (truthful_asks _).bind fun _ => (truthful_onDb _).bind fun _ => truthful_okReply (by decide) _

theorem truthful_handleProfileUpdate : Truthful (handleProfileUpdate env session request) := by
  refine (truthful_asks _).bind fun userId => Truthful.ite (truthful_errorReply (by decide) _ _) ?_
  refine (truthful_onDb _).bind fun found => ?_
  exact Truthful.ite (truthful_errorReply (by decide) _ _) (truthful_okReply (by decide) _)

theorem truthful_handleFriendRequest : Truthful (handleFriendRequest env session request) := by
  have hack : ∀ fromId toId ok, OfType plainTypes (friendAck fromId toId ok) := by
    intro fromId toId ok
    refine ofType_object (t := .FriendRequestAck) (by decide) ?_
    split <;> simp
  refine (truthful_asks _).bind fun fromId => truthful_andAlso.bind fun sent => ?_
  refine Truthful.ite (truthful_deliver (hack ..)) ?_
  refine (truthful_deliver (hack ..)).bind fun _ => truthful_notify _ ?_
  exact ofType_object (t := .FriendRequest) (by decide) (by simp)

theorem truthful_handleFriendAccept : Truthful (handleFriendAccept env session request) := by
  have hreply : ∀ ok friendId user, OfType plainTypes (acceptReply ok friendId user) := by
    intro ok friendId user
    refine ofType_object (t := .FriendAcceptReturn) (by decide) ?_
    cases user <;> cases ok <;> simp
  refine (truthful_asks _).bind fun toId => truthful_andAlso.bind fun ok => ?_
  refine (truthful_onDb _).bind fun fromUser => (truthful_onDb _).bind fun toUser => ?_
  exact (truthful_deliver (hreply ..)).bind fun _ => truthful_notify _ (hreply ..)

theorem truthful_handleFriendRemove : Truthful (handleFriendRemove env session request) := by
  have hreply : ∀ ok rejected removedId, OfType plainTypes (removeReply ok rejected removedId) := by
    intro ok rejected removedId
    refine ofType_object (t := .FriendRemoveReturn) (by decide) ?_
    cases rejected <;> cases ok <;> simp
  refine (truthful_asks _).bind fun uid => (truthful_onDb _).bind fun outcome => ?_
  exact (truthful_deliver (hreply ..)).bind fun _ => truthful_notify _ (hreply ..)

theorem truthful_handleFriendList : Truthful (handleFriendList env session) := by
  refine (truthful_asks _).bind fun uid => (truthful_onDb _).bind fun friends => ?_
  refine (truthful_asks _).bind fun presence => ?_
  exact truthful_deliver (ofType_object (t := .FriendListReturn) (by decide) (by simp))

theorem truthful_handleSystemBroadcast (htype : typeField request = some .SystemBroadcast) :
    Truthful (handleSystemBroadcast env session request) := by
  have hrequest : OfType plainTypes request := ⟨_, by decide, htype⟩
  refine Truthful.ite (truthful_okReply (by decide) _) ?_
  refine (truthful_asks _).bind fun fromId => Truthful.ite (truthful_errorReply (by decide) _ _) ?_
  refine Truthful.ite (truthful_notify _ hrequest) (Truthful.ite ?_ (truthful_pure ()))
  exact (truthful_onDb _).bind fun members => truthful_each fun memberId => truthful_notify _ hrequest

theorem truthful_handleMessageDelete : Truthful (handleMessageDelete env session request) := by
  refine (truthful_asks _).bind fun fromId => truthful_andAlso.bind fun ok => (truthful_onDb _).bind fun now => ?_
  exact truthful_answerChange _
    (ofType_append_targetFields (t := .MessageDeleteReturn) (by decide) (by simp)) _ _ _

theorem truthful_handleMessageReaction : Truthful (handleMessageReaction env session request) := by
  refine (truthful_asks _).bind fun fromId => truthful_andAlso.bind fun ok => ?_
  exact truthful_answerChange _
    (ofType_append_targetFields (t := .MessageReactionReturn) (by decide) (by simp)) _ _ _

theorem truthful_handleReadReceipt : Truthful (handleReadReceipt env session request) := by
  refine (truthful_asks _).bind fun fromId => truthful_andAlso.bind fun marked => ?_
  refine Truthful.ite (truthful_errorReply (by decide) _ _) ((truthful_onDb _).bind fun now => ?_)
  have hreceipt : OfType plainTypes (receiptPayload request fromId now) :=
    ((ofType_put (t := .ReadReceipt) (by decide) request).put (by decide) _).put (by decide) _
  exact truthful_deliverToConversation hreceipt _ _ _

theorem truthful_handleProtocolHello : Truthful (handleProtocolHello session request) := by
  refine truthful_deliver (ofType_object (t := .ProtocolHello) (by decide) ?_)
  split <;> simp

/-- Whatever a request hands out is current. -/
theorem truthful_dispatch : Truthful (dispatch env session request) := by
  have hunknown : Truthful (deliver session (okReply .SystemBroadcast "server-next v1.2.0 routed frame")) :=
    truthful_okReply (by decide) _
  unfold dispatch
  cases htype : typeField request with
  | none => exact hunknown
  | some type =>
    cases type with
    | RegisterUser => exact truthful_handleRegister
    | Login => exact truthful_handleLogin
    | Logout => exact truthful_handleLogout
    | SendMsg => exact truthful_handlePrivateMessage
    | SendGroupMsg => exact truthful_handleGroupMessage
    | SendFile => exact truthful_handleFileTransfer
    | CreateGroup => exact truthful_handleCreateGroup
    | SearchGroup => exact truthful_handleSearchGroup
    | JoinGroup => exact truthful_handleJoinGroup
    | LeaveGroup => exact truthful_handleLeaveGroup
    | RequestHistory => exact truthful_handleHistory
    | AIRequest => exact truthful_handleAIRequest
    | UserProfileUpdate => exact truthful_handleProfileUpdate
    | FriendRequest => exact truthful_handleFriendRequest
    | FriendAccept => exact truthful_handleFriendAccept
    | FriendRemove => exact truthful_handleFriendRemove
    | FriendList => exact truthful_handleFriendList
    | SystemBroadcast => exact truthful_handleSystemBroadcast htype
    | MessageEdit => exact truthful_handleMessageEdit
    | MessageDelete => exact truthful_handleMessageDelete
    | MessageReaction => exact truthful_handleMessageReaction
    | ReadReceipt => exact truthful_handleReadReceipt
    | ProtocolHello => exact truthful_handleProtocolHello
    | _ => exact hunknown

end Truthful

end MessageRouter

namespace TcpServer

open Database MessageRepository MessageRouter

section Events

variable {env : Env} {st st' : Server} {event : Event} {session : SessionId}

theorem truthful_removeSession : Truthful (removeSession env session) := by
  refine (truthful_asks _).bind fun userId => (truthful_modify _).bind fun _ => ?_
  refine Truthful.ite ?_ (truthful_pure ())
  refine (truthful_modify _).bind fun _ => (truthful_onDb _).bind fun _ => (truthful_onDb _).bind fun user => ?_
  cases user with
  | none => exact truthful_pure ()
  | some user =>
    refine (truthful_asks _).bind fun sessions => truthful_each fun target => truthful_deliver ?_
    exact ofType_object (t := .UserOffline) (by decide) (by simp)

theorem truthful_onMessage (json : Bytes) (now later : Int) : Truthful (onMessage env session json now later) := by
  refine (truthful_asks _).bind fun counted => (truthful_modify _).bind fun _ => ?_
  refine Truthful.ite truthful_removeSession (Truthful.ite ?_ ?_)
  · refine (truthful_modify _).bind fun _ => truthful_deliver ?_
    exact ofType_object (t := .HeartbeatAck) (by decide) (by simp)
  · exact route_rule env (truthful_throw _) (truthful_errorReply (by decide) _ _) fun _ _ => truthful_dispatch

/-- Whatever an event hands out is current, from any state. -/
theorem current_of_mem_handle : ∀ d ∈ (handle env event st).out, Current d := by
  have htruthful : Truthful (handle env event) := by
    cases event with
    | accept now =>
      refine (truthful_asks _).bind fun session => (truthful_modify _).bind fun _ => ?_
      refine (truthful_modify _).bind fun _ => (truthful_asks _).bind fun count => ?_
      exact (truthful_modify _).bind fun _ => Truthful.ite (truthful_modify _) (truthful_pure ())
    | frame session json now later =>
      exact (truthful_asks _).bind fun _ => Truthful.ite (truthful_onMessage _ _ _) (truthful_pure ())
    | readError session =>
      refine (truthful_asks _).bind fun handled => Truthful.ite ?_ (truthful_pure ())
      exact (truthful_modify _).bind fun _ => truthful_removeSession
    | sweep now => exact (truthful_asks _).bind fun timedOut => truthful_each fun session => truthful_removeSession
  exact (htruthful st trivial).1

end Events

section Runs

variable {env : Env} {file : Content} {events later : List Event} {st st' : Server} {row : Row}

/-- The history of the messages is kept where something is handed out, too. -/
theorem history_of_mem_handle (hst : Orderly st) (event : Event) : ∀ d ∈ (handle env event st).out,
    KeepsHistory env (Complete env st) (writerOf st event) (st.db.content .messages) d.at_.db := by
  have hreads := reads_history env (Complete env st) (writerOf st event) (st.db.content .messages)
  have hkept : KeepsHistory env (Complete env st) (writerOf st event) (st.db.content .messages) st.db :=
    ⟨hst.settled, .of_sound hst.sound, id⟩
  refine (sat_handle_of_dispatch hreads (fun id => (writesTo_tracks (by decide)).setOnlineStatus hreads id false) ?_
    hkept st rfl).1
  rintro session json now later request rfl - hparse
  have hwriter : writerOf st (.frame session json now later) = writer (st.userId session) request := by
    rw [writerOf, hparse]
    rfl
  rw [hwriter] at hreads hkept ⊢
  exact dispatchSat_of_calls hreads hkept guardsCalls_history

theorem complete_run (hst : Orderly st) (hall : Complete env st) (hrun : run (step env) st later = some st') :
    Complete env st' :=
  (invariant_run (fun _ _ _ (hs : Orderly _ ∧ Complete env _) hstep =>
    ⟨hs.1.step hstep, (history_step hs.1 hstep).loads hs.2⟩) ⟨hst, hall⟩ hrun).2

/-- A row with a positive id has the text that is shown under this id. -/
theorem content_of_agrees {db : Database} {shown : Row} {m : StoredMessage} (hsound : Sound (db.content .messages))
    (hshown : shown ∈ db.content .messages) (hagrees : Agrees shown m) (hrow : row ∈ db.content .messages)
    (hpos : 0 < (fromRow row).msg_id) (hid : m.msg_id = (fromRow row).msg_id) : Agrees row m := by
  have hsame : (fromRow row).msg_id = (fromRow shown).msg_id := by
    rw [← hid, ← hagrees]
  rw [hsound.eq_of_msg_id hrow hshown hpos hsame]
  exact hagrees

/-- A step hands out nothing of a message that has been deleted. -/
theorem empty_of_mem_handle (hst : Orderly st) (hall : Complete env st) (hrow : row ∈ st.db.content .messages)
    (hdeleted : (fromRow row).deleted = true) (hpos : 0 < (fromRow row).msg_id) (event : Event) :
    ∀ d ∈ (handle env event st).out, ∀ m ∈ d.carries, m.msg_id = (fromRow row).msg_id →
      m.content = [] ∧ m.deleted = true := by
  intro d hd m hm hid
  have hkept := history_of_mem_handle hst event d hd
  obtain ⟨shown, hshown, hagrees⟩ := (current_of_mem_handle d hd).stored m hm
  obtain ⟨i, hi⟩ := List.mem_iff_getElem?.mp hrow
  obtain ⟨n, hn, hrows⟩ := hkept.rows.retained
  have hlt := Nat.lt_of_lt_of_le (List.getElem?_eq_some_iff.mp hi).1 (hn hall)
  obtain ⟨row', hrow', hfollows⟩ := hrows i hlt row hi
  have hmem := List.mem_of_getElem? hrow'
  have hsame := hfollows.lasts.msg_id
  have hstays := hfollows.lasts.deleted hdeleted
  have hagrees' := content_of_agrees hkept.rows.sound hshown hagrees hmem (hsame ▸ hpos) (hid.trans hsame.symm)
  rw [← hagrees']
  exact ⟨hkept.rows.sound.emptied row' hmem hstays, hstays⟩

/-- In every run, once a message has been deleted, nothing of its text is handed out
any more, whoever asks for it and however he does. -/
theorem deleted_shown_no_more (hsound : Sound ((Server.boot env file).db.content .messages))
    (hrun : run (step env) (.boot env file) events = some st) (hall : Complete env st)
    (hrow : row ∈ st.db.content .messages) (hdeleted : (fromRow row).deleted = true) (hpos : 0 < (fromRow row).msg_id)
    (hlater : run (step env) st later = some st') (event : Event) :
    ∀ d ∈ (handle env event st').out, ∀ m ∈ d.carries, m.msg_id = (fromRow row).msg_id →
      m.content = [] ∧ m.deleted = true := by
  have hst := orderly_of_run hsound hrun
  have hst' : Orderly st' := invariant_run (fun _ _ _ hst hstep => Orderly.step hst hstep) hst hlater
  obtain ⟨i, hi⟩ := List.mem_iff_getElem?.mp hrow
  obtain ⟨n, hn, hrows⟩ := retains_run hst hlater
  have hlt := Nat.lt_of_lt_of_le (List.getElem?_eq_some_iff.mp hi).1 (hn hall)
  obtain ⟨row', hrow', hlasts⟩ := hrows i hlt row hi
  rw [← hlasts.msg_id] at hpos ⊢
  exact empty_of_mem_handle hst' (complete_run hst hall hlater) (List.mem_of_getElem? hrow') (hlasts.deleted hdeleted)
    hpos event

end Runs

/-! ## A message that is deleted -/

/-- The user 1000 writes to himself and deletes the message. -/
def retracting : List Event :=
  [.accept 0, zeroByte, firstLogin, request 1 .SendMsg [("toId", .int 1000), ("msg", text "hi")],
    request 1 .MessageDelete [("msg_id", .int 1)]]

def rereading : Event := request 1 .RequestHistory [("toId", .int 1000)]

theorem run_retracting : ∃ st row, run (step .ideal) (.boot .ideal .empty) retracting = some st ∧
    row ∈ st.db.content .messages ∧ (fromRow row).deleted = true ∧ (fromRow row).msg_id = 1 := by
  have hruns : (run (step .ideal) (.boot .ideal .empty) retracting).map (fun st =>
      (st.db.content .messages).any fun row => (fromRow row).deleted && (fromRow row).msg_id == 1) = some true := by
    decide +kernel
  obtain ⟨st, hrun, hany⟩ := Option.map_eq_some_iff.mp hruns
  obtain ⟨row, hrow, h⟩ := List.any_eq_true.mp hany
  rw [Bool.and_eq_true, beq_iff_eq] at h
  exact ⟨st, row, hrun, hrow, h⟩

theorem sound_boot_empty : Sound ((Server.boot .ideal .empty).db.content .messages) := sound_nil

theorem deleted_shown_no_more_rereading : ∃ st, run (step .ideal) (.boot .ideal .empty) retracting = some st ∧
    ∀ d ∈ (handle .ideal rereading st).out, ∀ m ∈ d.carries, m.msg_id = 1 → m.content = [] ∧ m.deleted = true := by
  obtain ⟨st, row, hrun, hrow, hdeleted, hid⟩ := run_retracting
  have hshown := deleted_shown_no_more sound_boot_empty hrun (.inl serves_ideal) hrow hdeleted (by rw [hid]; decide)
    (run_nil st) rereading
  rw [hid] at hshown
  exact ⟨st, hrun, hshown⟩

end TcpServer

end LanChat
