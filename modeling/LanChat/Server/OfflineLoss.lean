import Mathlib.Algebra.Order.BigOperators.Group.List
import LanChat.Db.OfflineMessages
import LanChat.Server.TcpServer

/-!
# Offline messages that cannot be handed over

`deliverOffline` marks the messages as delivered before it hands them to the
session. When they do not fit into a frame, `deliver` throws, and they stay
marked (`failed_delivery_loses`).
-/

namespace LanChat

open Lib Json

namespace MessageRepository

open Database

variable {env : Env} {db : Database} {messages : List StoredMessage}

/-- After a selection the table is in memory. -/
theorem sat_select_loaded (p : Row → Bool) (limit : Int32) :
    Cmd.Sat (fun _ => True) (select env p limit) (fun _ => InMemory .messages) (fun _ _ => True)
      fun _ => True :=
  (sat_query_loaded _).bind fun _ => Cmd.sat_pure fun _ h => h

/-- The messages that `offlineForUser` returns are marked in the table. -/
theorem marked_of_offlineForUser {userId limit : Int32}
    (h : (offlineForUser env userId limit db).result = .ok messages) :
    ∃ rows : RowList,
      (offlineForUser env userId limit db).state.Lists .messages (rows.map (delivered messages)) := by
  obtain ⟨selected, hselect, hrest⟩ := Cmd.result_bind_eq_ok.mp h
  obtain ⟨_, hmark, hpure⟩ := Cmd.result_bind_eq_ok.mp hrest
  cases hpure
  have hloaded := (sat_select_loaded (isOffline userId) limit db trivial).2.1 messages hselect
  obtain ⟨rows, hrows⟩ := Option.isSome_iff_exists.mp hloaded
  refine ⟨rows, ?_⟩
  have hlists := (@yields_markAll env rows messages _ (.inl hrows)).2.1 _ hmark
  have hstate : (offlineForUser env userId limit db).state =
      (Cmd.each messages (fun message => markDelivered env message.msg_id)
        (select env (isOffline userId) limit db).state).state := by
    unfold offlineForUser
    rw [Cmd.bind_ok _ hselect, Cmd.bind_ok _ hmark]
    rfl
  rw [hstate]
  exact hlists

theorem delivered_of_mem {rows : RowList} {m : StoredMessage} (hm : m ∈ messages) {row : Row}
    (hrow : row ∈ rows.map (delivered messages)) (hid : (fromRow row).msg_id = m.msg_id) :
    (fromRow row).delivered = true := by
  obtain ⟨row', -, rfl⟩ := List.mem_map.mp hrow
  rw [fromRow_delivered] at hid ⊢
  have hsame : (fromRow row').msg_id = m.msg_id := hid
  have hmem : (messages.map (·.msg_id)).contains (fromRow row').msg_id = true :=
    List.contains_iff_mem.mpr (hsame ▸ List.mem_map_of_mem hm)
  show ((fromRow row').delivered || _) = true
  rw [hmem, Bool.or_true]

end MessageRepository

namespace MessageRouter

open MessageRepository AsyncSession

/-- Every message of the batch is still undelivered. -/
def StillPending (batch : List StoredMessage) (st : Server) : Prop :=
  ∀ m ∈ batch, ∃ row ∈ st.cached .messages, (fromRow row).msg_id = m.msg_id ∧ (fromRow row).delivered = false

/-- A later `offlineForUser` may return the message. -/
def Returns (env : Env) (m : StoredMessage) (st : Server) : Prop :=
  ∃ userId limit messages, (offlineForUser env userId limit st.db).result = .ok messages ∧
    m.msg_id ∈ messages.map (·.msg_id)

section Failure

variable {env : Env} {session : SessionId} {userId : Int32} {st : Server} {batch : List StoredMessage}

/-- The error of a delivery leaves the state that `offlineForUser` has left. -/
theorem run_deliverOffline (hbatch : (offlineForUser env userId 100 st.db).result = .ok batch)
    (hsize : FrameCodec.MaxFrameBytes < (serialize (offlineReply batch)).length) :
    (deliverOffline env session userId st).result = .error .frameTooLarge ∧
      (deliverOffline env session userId st).state.db = (offlineForUser env userId 100 st.db).state := by
  have hne : batch ≠ [] := by
    rintro rfl
    exact absurd hsize (by decide)
  have hthrows : ∀ s : AsyncSession, s.deliver (serialize (offlineReply batch)) = .error .frameTooLarge := by
    intro s
    have hnone : FrameCodec.encode (serialize (offlineReply batch)) = none := by
      rw [← Option.not_isSome_iff_eq_none, FrameCodec.encode_isSome]
      exact Nat.not_le.mpr hsize
    rw [AsyncSession.deliver, hnone]
  have hread : (onDb (offlineForUser env userId 100) st).result = .ok batch := hbatch
  unfold deliverOffline
  rw [Cmd.bind_ok _ hread]
  simp only [if_neg hne, deliverContent, hthrows, true_and]
  rfl

/-- Whenever the batch does not fit into a frame, every message of it is
delivered for the server, and no later login returns it. -/
theorem failed_delivery_loses (hbatch : (offlineForUser env userId 100 st.db).result = .ok batch)
    (hsize : FrameCodec.MaxFrameBytes < (serialize (offlineReply batch)).length) :
    (deliverOffline env session userId st).result = .error .frameTooLarge ∧
      ¬StillPending batch (deliverOffline env session userId st).state ∧
      ∀ m ∈ batch, ¬Returns env m (deliverOffline env session userId st).state := by
  obtain ⟨hresult, hdb⟩ := @run_deliverOffline env session userId st batch hbatch hsize
  obtain ⟨rows, hlists⟩ := marked_of_offlineForUser hbatch
  rw [← hdb] at hlists
  have hcached : (deliverOffline env session userId st).state.cached .messages = rows.map (delivered batch) :=
    lists_getD hlists
  refine ⟨hresult, fun hpending => ?_, ?_⟩
  · have hne : batch ≠ [] := by
      rintro rfl
      exact absurd hsize (by decide)
    obtain ⟨m, hm⟩ := List.exists_mem_of_ne_nil batch hne
    obtain ⟨row, hrow, hid, hundelivered⟩ := hpending m hm
    rw [hcached] at hrow
    rw [delivered_of_mem hm hrow hid] at hundelivered
    cases hundelivered
  · rintro m hm ⟨user, limit, messages, hreturned, hid⟩
    obtain ⟨hmessages, -⟩ := (@yields_offlineForUser env _ user limit _ hlists).2.1 messages hreturned
    obtain ⟨m', hm', hid⟩ := List.mem_map.mp hid
    rw [hmessages] at hm'
    obtain ⟨row, hrow, rfl⟩ := List.mem_map.mp (mem_trimToLimit hm')
    obtain ⟨hrow, hoff⟩ := List.mem_filter.mp hrow
    rw [isOffline_eq, decide_eq_true_eq] at hoff
    rw [delivered_of_mem hm hrow hid] at hoff
    cases hoff.2.2

end Failure

/-! ## A batch that does not fit -/

theorem length_le_serializeString (s : Bytes) : s.length ≤ (serializeString s).length := by
  have hescape : ∀ c, 1 ≤ (escape c).length := by
    intro c
    unfold escape
    repeat' split
    all_goals exact Nat.succ_le_of_lt (List.length_pos_of_ne_nil nofun)
  have hflat : s.length ≤ (s.flatMap escape).length := by
    induction s with
    | nil => exact Nat.zero_le _
    | cons c s ih =>
      rw [List.flatMap_cons, List.length_append, List.length_cons]
      have := hescape c
      omega
  rw [serializeString, List.cons_append, List.length_cons, List.length_append]
  omega

theorem length_le_serializeMembers {o : List (Bytes × Value)} {e : Bytes × Value} (he : e ∈ o) :
    e.2.serialize.length ≤ (serializeMembers o).length := by
  induction o with
  | nil => cases he
  | cons f fs ih =>
    obtain ⟨k, v⟩ := f
    rcases List.mem_cons.mp he with rfl | he
    · cases fs <;>
      · simp only [serializeMembers, List.length_append, List.length_cons]
        omega
    · cases fs with
      | nil => cases he
      | cons f' fs' =>
        have hrest := ih he
        simp only [serializeMembers, List.length_append, List.length_cons]
        omega

theorem length_le_serializeElements (a : List Value) :
    (a.map fun v => v.serialize.length).sum ≤ (serializeElements a).length := by
  induction a with
  | nil => exact Nat.zero_le _
  | cons v vs ih =>
    cases vs with
    | nil => simp [serializeElements]
    | cons w ws =>
      simp only [serializeElements, List.length_append, List.length_cons, List.map_cons, List.sum_cons] at ih ⊢
      omega

theorem find?_msg_messageToJson (type : MsgType) (m : StoredMessage) :
    OrdMap.find? (messageToJson type m) (lit "msg") = some (.str m.content) := by
  rw [messageToJson, find?_object]
  split <;> split <;> split <;> simp

/-- The frame is longer than the contents of its messages together. -/
theorem length_le_offlineReply (batch : List StoredMessage) :
    (batch.map fun m => m.content.length).sum ≤ (serialize (offlineReply batch)).length := by
  have hmessage : ∀ type m, m.content.length ≤ (Value.obj (messageToJson type m)).serialize.length := by
    intro type m
    have hfield := length_le_serializeMembers (OrdMap.mem_of_find? (find?_msg_messageToJson type m))
    rw [Value.serialize, List.length_cons]
    exact (length_le_serializeString _).trans (hfield.trans (Nat.le_succ _))
  have helements : (batch.map fun m => m.content.length).sum ≤
      ((messagesToArray batch).map fun v => v.serialize.length).sum := by
    rw [messagesToArray, List.map_map]
    exact List.sum_le_sum fun m _ => hmessage _ m
  have hfield : OrdMap.find? (offlineReply batch) (lit "messages") = some (.arr (messagesToArray batch)) := by
    simp [offlineReply, find?_object]
  have hmember := length_le_serializeMembers (OrdMap.mem_of_find? hfield)
  rw [serialize, Value.serialize, List.length_cons]
  rw [Value.serialize, List.length_cons] at hmember
  have harray := length_le_serializeElements (messagesToArray batch)
  omega

def longContent : Bytes := List.replicate 140000 97

/-- Two messages of 140000 characters each wait for user 2. -/
def waitingMessages : List StoredMessage :=
  [newMessage 1 1 2 0 longContent [] 0 false, newMessage 2 1 2 0 longContent [] 0 false]

/-- They are in the file, and in memory. -/
def waitingServer : Server :=
  .start { Database.connect { Content.empty with
      docs := Function.update (fun _ => none) .messages
        (some (waitingMessages.map fun m => serialize (toRow m))) } with
    tables := Function.update (fun _ => none) .messages (some (waitingMessages.map toRow)) }

theorem batch_waitingServer :
    ∃ batch, (offlineForUser .ideal 2 100 waitingServer.db).result = .ok batch ∧
      FrameCodec.MaxFrameBytes < (serialize (offlineReply batch)).length ∧ batch.Perm waitingMessages := by
  have hlists : waitingServer.db.Lists .messages (waitingMessages.map toRow) := .inl rfl
  obtain ⟨-, hok, herror⟩ := @yields_offlineForUser .ideal _ 2 100 _ hlists
  cases hresult : (offlineForUser .ideal 2 100 waitingServer.db).result with
  | error e => exact (herror e hresult).elim
  | ok batch =>
    obtain ⟨hbatch, -⟩ := hok batch hresult
    have hall : (((waitingMessages.map toRow).filter (isOffline 2)).map fromRow) = waitingMessages := by
      simp [waitingMessages, isOffline_eq, fromRow_toRow, newMessage]
    have hperm : batch.Perm waitingMessages := by
      rw [hall] at hbatch
      have hsort := Env.ideal.sort_perm waitingMessages
      rw [hbatch, trimToLimit_eq _ (by decide), hsort.length_eq]
      exact hsort
    refine ⟨batch, rfl, ?_, hperm⟩
    have hsum : (batch.map fun m => m.content.length).sum = 280000 := by
      have hlong : longContent.length = 140000 := List.length_replicate
      rw [(hperm.map _).sum_eq]
      simp [waitingMessages, newMessage, hlong]
    have hlength := length_le_offlineReply batch
    rw [hsum] at hlength
    exact Nat.lt_of_lt_of_le (by decide) hlength

theorem failed_delivery_loses_waiting :
    ∃ batch, (offlineForUser .ideal 2 100 waitingServer.db).result = .ok batch ∧
      FrameCodec.MaxFrameBytes < (serialize (offlineReply batch)).length ∧
      (deliverOffline .ideal 1 2 waitingServer).result = .error .frameTooLarge ∧
      ¬StillPending batch (deliverOffline .ideal 1 2 waitingServer).state ∧
      ∀ m ∈ batch, ¬Returns .ideal m (deliverOffline .ideal 1 2 waitingServer).state := by
  obtain ⟨batch, hbatch, hsize, -⟩ := batch_waitingServer
  exact ⟨batch, hbatch, hsize, failed_delivery_loses hbatch hsize⟩

/-- The login of user 2 fails, and both messages are marked as delivered. -/
theorem waiting_messages_lost :
    ∃ batch, (offlineForUser .ideal 2 100 waitingServer.db).result = .ok batch ∧ batch.Perm waitingMessages ∧
      (deliverOffline .ideal 1 2 waitingServer).result = .error .frameTooLarge ∧
      ¬StillPending batch (deliverOffline .ideal 1 2 waitingServer).state := by
  obtain ⟨batch, hbatch, hsize, hperm⟩ := batch_waitingServer
  obtain ⟨hresult, hdb⟩ := @run_deliverOffline .ideal 1 2 waitingServer batch hbatch hsize
  obtain ⟨rows, hlists⟩ := marked_of_offlineForUser hbatch
  refine ⟨batch, hbatch, hperm, hresult, fun hpending => ?_⟩
  obtain ⟨m, hm⟩ : ∃ m, m ∈ batch := ⟨_, hperm.mem_iff.mpr List.mem_cons_self⟩
  obtain ⟨row, hrow, hid, hundelivered⟩ := hpending m hm
  rw [Server.cached, hdb, lists_getD hlists] at hrow
  rw [delivered_of_mem hm hrow hid] at hundelivered
  cases hundelivered

end MessageRouter

end LanChat
