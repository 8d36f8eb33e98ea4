import LanChat.Client.World
import LanChat.Server.FrameTypes
import LanChat.Server.Friendship

/-!
# The conversation of a direct payload

A conversation of two users is kept under the id of the other one. Every case of
`handleIncomingMessage` finds that id by itself: messages, changes and receipts by
`directPeerId`, files by `fromId` alone. The server hands a file to its sender too,
who then has it in a conversation with themselves (`filed_under_peer_iff`).
-/

namespace LanChat

open Lib Json

namespace Client

/-- The payloads that `handleIncomingMessage` handles one by one. -/
def carried (payload : Object) : List Object :=
  if typeField payload = some .OfflineMessages then elements (member payload "messages") else [payload]

/-- What the server puts into the payloads: a private message has a recipient, and a
file has a name. -/
structure Shaped (raw : Object) : Prop where
  message : typeField raw = some .ReceiveMsg →
    ∃ m : StoredMessage, 0 < m.to_id ∧ raw = MessageRouter.messageToJson .ReceiveMsg m
  file : typeField raw = some .ReceiveFile → ∃ name, member raw "file_name" = some (.str name)

end Client

/-! ## What the server hands out -/

namespace MessageRouter

open Client

section Shape

variable {env : Env} {session : SessionId} {request payload : Object}

theorem Emits.imp {α : Type} {T T' : Object → Prop} {c : RouterM α} (h : Emits T c)
    (hT : ∀ payload, T payload → T' payload) : Emits T' c :=
  h.weaken (fun _ h => h) (fun _ _ h => h) (fun _ _ h => h) fun d => hT d.payload

/-- Every payload that is carried has its shape. -/
def CarriesShaped (payload : Object) : Prop := ∀ raw ∈ carried payload, Shaped raw

theorem shaped_of_type {types : List MsgType} (h : OfType types payload)
    (hnone : ∀ type ∈ types, type ∉ [.ReceiveMsg, .ReceiveFile, .OfflineMessages]) : CarriesShaped payload := by
  obtain ⟨type, hmem, htype⟩ := h
  have hother := hnone type hmem
  simp only [List.mem_cons, List.not_mem_nil, or_false, not_or] at hother
  intro raw hraw
  rw [carried, htype, if_neg (by simpa using hother.2.2), List.mem_singleton] at hraw
  subst hraw
  exact ⟨fun h => absurd (Option.some.inj (htype.symm.trans h)) hother.1,
    fun h => absurd (Option.some.inj (htype.symm.trans h)) hother.2.1⟩

theorem typeField_messageToJson (type : MsgType) (m : StoredMessage) : typeField (messageToJson type m) = some type := by
  have hmessage : OfType [type] (messageToJson type m) := ofType_messageToJson List.mem_cons_self m
  obtain ⟨type', hmem, htype⟩ := hmessage
  rwa [List.mem_singleton.mp hmem] at htype

theorem shaped_messageToJson {m : StoredMessage} (hto : 0 < m.to_id) : Shaped (messageToJson .ReceiveMsg m) :=
  ⟨fun _ => ⟨m, hto, rfl⟩, fun h => nomatch (typeField_messageToJson .ReceiveMsg m).symm.trans h⟩

/-- A payload that is no batch carries itself. -/
theorem carriesShaped_of_shaped (h : Shaped payload) (htype : typeField payload ≠ some .OfflineMessages) :
    CarriesShaped payload := by
  intro raw hraw
  rw [carried, if_neg htype, List.mem_singleton] at hraw
  rw [hraw]
  exact h

theorem emits_handlePrivateMessage_shaped : Emits CarriesShaped (handlePrivateMessage env session request) := by
  refine (emits_asks _).bind fun fromId => Cmd.sat_ite (fun _ => ?_) fun hvalid => ?_
  · exact emits_deliver session (@shaped_of_type _ [.SystemBroadcast] (ofType_errorReply (by decide) _ _) (by decide))
  · rw [not_or, not_or, Int32.not_le, Int32.not_le] at hvalid
    refine (emits_asks _).bind fun target => Cmd.Sat.bind (R := fun m _ => m.to_id = intField request "toId" 0)
      (fun st _ => ⟨nofun, fun m hm => ?_, fun _ _ => trivial⟩) fun m => ?_
    · exact ((MessageRepository.sat_savePrivate (P := fun _ => True) (W := fun _ => True) _ _ _ _ _ st.db trivial).2.1
        m hm).2.1
    · refine Cmd.Sat.of_fact (P := fun _ => True) (fun hto => ?_) |>.pre fun _ h => ⟨h, trivial⟩
      have hshaped : CarriesShaped (messageToJson .ReceiveMsg m) := by
        refine carriesShaped_of_shaped (shaped_messageToJson (hto ▸ hvalid.2.1)) ?_
        rw [typeField_messageToJson]
        decide
      exact (emits_deliverIfFound _ _ hshaped).bind fun _ => emits_deliverContent session _ hshaped

theorem emits_handleFileTransfer_shaped : Emits CarriesShaped (handleFileTransfer env session request) := by
  refine (emits_asks _).bind fun fromId => Cmd.sat_ite (fun _ => ?_) fun hvalid => ?_
  · exact emits_deliver session (@shaped_of_type _ [.FileTransferDone] (ofType_errorReply (by decide) _ _) (by decide))
  · have htype : typeField (incomingFile request) = some .ReceiveFile := typeField_of_find? (OrdMap.find?_put_self ..)
    have hname : ∃ name, member (incomingFile request) "file_name" = some (.str name) := by
      have hsame : member (incomingFile request) "file_name" = member request "file_name" :=
        OrdMap.find?_put_of_ne (by decide)
      rw [not_or, not_or] at hvalid
      have hnonempty := hvalid.2.1
      unfold stringField at hnonempty
      rw [hsame]
      split at hnonempty
      · next name hname => exact ⟨name, hname⟩
      · exact absurd rfl hnonempty
    have hshaped : CarriesShaped (incomingFile request) := by
      refine carriesShaped_of_shaped ⟨fun h => (nomatch htype.symm.trans h), fun _ => hname⟩ ?_
      rw [htype]
      decide
    exact (emits_deliverToConversation _ _ _ _ hshaped).bind fun _ => emits_deliver session
      (@shaped_of_type _ [.FileTransferDone] (ofType_object (t := .FileTransferDone) (by decide) (by simp)) (by decide))

/-- The messages of a batch are for the user. -/
theorem carriesShaped_offlineReply {uid : Int32} {messages : List StoredMessage} (huid : 0 < uid)
    (h : ∀ m ∈ messages, m.to_id = uid ∧ m.group_id = 0) : CarriesShaped (offlineReply messages) := by
  have htype : typeField (offlineReply messages) = some .OfflineMessages :=
    typeField_of_find? (by rw [offlineReply, find?_object]; simp)
  have hmember : member (offlineReply messages) "messages" = some (.arr (messagesToArray messages)) := by
    rw [member, offlineReply, find?_object]
    simp
  intro raw hraw
  rw [carried, if_pos htype, hmember, elements] at hraw
  obtain ⟨v, hv, hobj⟩ := List.mem_filterMap.mp hraw
  obtain ⟨m, hm, rfl⟩ := List.mem_map.mp hv
  obtain ⟨hto, hgroup⟩ := h m hm
  cases hobj
  rw [hgroup, if_neg (by decide)]
  exact shaped_messageToJson (hto ▸ huid)

theorem emits_deliverOffline_shaped {uid : Int32} (huid : 0 < uid) :
    Emits CarriesShaped (deliverOffline env session uid) := by
  refine Cmd.Sat.bind (R := fun messages _ => ∀ m ∈ messages, m.to_id = uid ∧ m.group_id = 0)
    (fun st _ => ⟨nofun, fun messages hm => ?_, fun _ _ => trivial⟩) fun messages => ?_
  · exact (MessageRepository.sat_offlineForUser (P := fun _ => True) (W := fun _ => True) uid 100 st.db trivial).2.1
      messages hm
  · refine Cmd.Sat.of_fact (P := fun _ => True) (fun hmessages => ?_) |>.pre fun _ h => ⟨h, trivial⟩
    exact (emits_pure ()).ite (emits_deliverContent session _ (carriesShaped_offlineReply huid hmessages))

theorem emits_handleLogin_shaped : Emits CarriesShaped (handleLogin env session request) := by
  have hrefused : ∀ code msg, Emits CarriesShaped (deliver session (errorReply .LoginFailedReturn code msg)) :=
    fun code msg => emits_deliver session
      (@shaped_of_type _ [.LoginFailedReturn] (ofType_errorReply (by decide) _ _) (by decide))
  refine Cmd.sat_ite (fun _ => hrefused _ _) fun huid => (emits_onDb _).bind fun verified =>
    Emits.ite (hrefused _ _) ((emits_onDb _).bind fun user => ?_)
  cases user with
  | none => exact hrefused _ _
  | some user =>
    rw [Int32.not_le] at huid
    refine (emits_modify _).bind fun _ => (emits_modify _).bind fun _ => (emits_onDb _).bind fun _ =>
      (emits_asks _).bind fun _ => (emits_onDb _).bind fun _ => (emits_onDb _).bind fun _ =>
      (emits_onDb _).bind fun _ => Emits.bind ?_ fun _ => (emits_deliverOffline_shaped huid).bind fun _ => ?_
    · exact emits_deliver session
        (@shaped_of_type _ [.LoginSuccessReturn] (ofType_object (t := .LoginSuccessReturn) (by decide) (by simp)) (by decide))
    · exact emits_broadcastPresence _ _ fun _ _ =>
        @shaped_of_type _ [.FriendOnline] (ofType_object (t := .FriendOnline) (by decide) (by simp)) (by decide)

theorem emits_dispatch_shaped : Emits CarriesShaped (dispatch env session request) := by
  have hemits := @emits_dispatch env session request
  rcases em (typeField request = some .Login) with hlogin | hlogin
  · simp only [dispatch, hlogin]
    exact emits_handleLogin_shaped
  rcases em (typeField request = some .SendMsg) with hsend | hsend
  · simp only [dispatch, hsend]
    exact emits_handlePrivateMessage_shaped
  rcases em (typeField request = some .SendFile) with hfile | hfile
  · simp only [dispatch, hfile]
    exact emits_handleFileTransfer_shaped
  refine hemits.imp fun payload h => shaped_of_type h ?_
  generalize typeField request = type at hlogin hsend hfile
  unfold answers
  split <;> simp_all

end Shape

end MessageRouter

namespace TcpServer

open MessageRouter Client

variable {env : Env} {T : Object → Prop}

theorem emits_broadcast {payload : Object} (h : T payload) (session : SessionId) :
    Emits T (broadcast env payload session) :=
  (emits_asks _).bind fun _ => emits_each fun _ => emits_deliver _ h

theorem emits_removeSession (h : ∀ payload, OfType [.UserOffline] payload → T payload) (session : SessionId) :
    Emits T (removeSession env session) := by
  refine (emits_asks _).bind fun uid => (emits_modify _).bind fun _ => Emits.ite ?_ (emits_pure ())
  refine (emits_modify _).bind fun _ => (emits_onDb _).bind fun _ => (emits_onDb _).bind fun user => ?_
  cases user with
  | none => exact emits_pure ()
  | some user => exact emits_broadcast (h _ (ofType_object List.mem_cons_self (by simp))) 0

/-- Besides the answers to requests, the server sends acknowledgements of heartbeats
and tells who has gone. -/
theorem emits_handle (hdispatch : ∀ session request, Emits T (dispatch env session request))
    (hother : ∀ payload, OfType [.SystemBroadcast, .HeartbeatAck, .UserOffline] payload → T payload) (event : Event) :
    Emits T (handle env event) := by
  have hremove : ∀ session, Emits T (removeSession env session) :=
    emits_removeSession fun payload ⟨type, hmem, htype⟩ =>
      hother payload ⟨type, by rw [List.mem_singleton.mp hmem]; decide, htype⟩
  cases event with
  | accept now =>
    refine (emits_asks _).bind fun _ => (emits_modify _).bind fun _ => (emits_modify _).bind fun _ =>
      (emits_asks _).bind fun _ => (emits_modify _).bind fun _ => Emits.ite (emits_modify _) (emits_pure ())
  | frame session json now later =>
    refine (emits_asks _).bind fun _ => Emits.ite ((emits_asks _).bind fun _ => (emits_modify _).bind fun _ =>
      Emits.ite (hremove session) (Emits.ite ((emits_modify _).bind fun _ => emits_deliver session
        (hother _ (ofType_okReply (by decide) _))) ?_)) (emits_pure ())
    exact route_rule env (emits_throw _)
      (emits_deliver session (hother _ (ofType_errorReply (by decide) _ _)))
      fun request _ => hdispatch session request
  | readError session =>
    exact (emits_asks _).bind fun _ => Emits.ite ((emits_modify _).bind fun _ => hremove session) (emits_pure ())
  | sweep now => exact (emits_asks _).bind fun _ => emits_each hremove

/-- What the server hands out has its shape. -/
theorem carriesShaped_of_handle {event : Event} {st : Server} {d : Delivery} (hd : d ∈ (handle env event st).out) :
    CarriesShaped d.payload :=
  (emits_handle (fun _ _ => emits_dispatch_shaped) (fun _ h => shaped_of_type h (by decide)) event st trivial).1 d hd

end TcpServer

/-! ## Which conversation changes -/

namespace Client

open MessageRouter

/-- The participant other than the user: `toId` if `fromId` is the user, else `fromId`. -/
def otherParticipant (raw : Object) (userId : Int64) : Option Value :=
  if (member raw "fromId").any fun fromId => same fromId userId then member raw "toId" else member raw "fromId"

/-- The payload changes no conversation but the one with the other participant. -/
def FiledUnderPeer (js : Js) (s : Store) (raw : Object) : Prop :=
  ∀ kind key, (s.handleIncomingMessage js raw).conversations kind key ≠ s.conversations kind key →
    kind = .direct ∧ ∃ peer, otherParticipant raw s.userId = some peer ∧ key = js.string (some peer)

/-- The payloads of the server that are about a message or a file. -/
def directTypes : List MsgType :=
  [.ReceiveMsg, .ReceiveFile, .MessageEditReturn, .MessageDeleteReturn, .MessageReactionReturn, .ReadReceipt]

/-- The file names its sender, and that is not the user, unless the user is also the recipient. -/
def FromPeer (js : Js) (raw : Object) (userId : Int64) : Prop :=
  ∃ fromId, member raw "fromId" = some fromId ∧ fromId ≠ .null ∧ (same fromId userId = true →
    ∃ toId, member raw "toId" = some toId ∧ js.string (some toId) = js.string (some fromId))

section Filing

variable {js : Js} {s : Store} {raw : Object} {kind kind' : Kind} {key key' : Bytes}

theorem conversations_put_ne {messages : List ChatMessage}
    (h : (s.put kind key messages).conversations kind' key' ≠ s.conversations kind' key') : kind' = kind ∧ key' = key := by
  by_contra hne
  exact h (if_neg hne)

/-- A conversation that has got one more message has changed. -/
theorem conversations_append_ne {message : ChatMessage} :
    (s.put kind key (s.messages kind key ++ [message])).conversations kind key ≠ s.conversations kind key := by
  have hput : (s.put kind key (s.messages kind key ++ [message])).conversations kind key =
      some ⟨s.references, s.messages kind key ++ [message]⟩ := if_pos ⟨rfl, rfl⟩
  rw [hput]
  intro h
  have hmessages : s.messages kind key = s.messages kind key ++ [message] := by
    conv_lhs => rw [Store.messages, ← h]
  simpa using congrArg List.length hmessages

/-- `directPeerId` is the other participant, if there is one. -/
theorem otherParticipant_of_truthy {userId : Int64} (h : truthy (some (Store.directPeerId raw userId)) = true) :
    otherParticipant raw userId = some (Store.directPeerId raw userId) := by
  have horElse : ∀ v, truthy (some (orElse v (.int 0))) = true → v = some (orElse v (.int 0)) := by
    intro v hv
    rcases v with _ | v
    · cases hv
    · cases v with
      | null => cases hv
      | _ => rfl
  unfold Store.directPeerId otherParticipant at *
  split at h
  · next hfrom =>
    rw [if_pos hfrom, if_pos hfrom]
    exact horElse _ h
  · next hfrom =>
    rw [if_neg hfrom, if_neg hfrom]
    exact horElse _ h

/-- Edits, deletions, reactions and receipts. -/
theorem filed_change (hdirect : truthy (member raw "groupId") = false) {updater : ChatMessage → ChatMessage}
    (h : (s.change js raw updater).conversations kind key ≠ s.conversations kind key) :
    kind = .direct ∧ ∃ peer, otherParticipant raw s.userId = some peer ∧ key = js.string (some peer) := by
  unfold Store.change Store.changedConversation at h
  rw [hdirect, if_neg Bool.false_ne_true] at h
  by_cases hpeer : truthy (some (Store.directPeerId raw s.userId)) = true
  · rw [if_pos hpeer] at h
    obtain ⟨hkind, hkey⟩ := conversations_put_ne h
    exact ⟨hkind, _, otherParticipant_of_truthy hpeer, hkey⟩
  · rw [if_neg hpeer] at h
    exact absurd rfl h

theorem filed_changeIfOk (hdirect : truthy (member raw "groupId") = false) {updater : ChatMessage → ChatMessage}
    (h : (if Store.isOk raw then s.change js raw updater else s).conversations kind key ≠ s.conversations kind key) :
    kind = .direct ∧ ∃ peer, otherParticipant raw s.userId = some peer ∧ key = js.string (some peer) := by
  split at h
  · exact filed_change hdirect h
  · exact absurd rfl h

theorem filed_receiveMsg (huser : s.userId ≠ 0)
    (hpeer : otherParticipant raw s.userId = some (Store.directPeerId raw s.userId))
    (h : (s.receiveMsg js raw).conversations kind key ≠ s.conversations kind key) :
    kind = .direct ∧ ∃ peer, otherParticipant raw s.userId = some peer ∧ key = js.string (some peer) := by
  unfold Store.receiveMsg Store.merge at h
  rw [if_pos huser] at h
  dsimp only [Store.count] at h
  split at h
  · obtain ⟨hkind, hkey⟩ := conversations_put_ne h
    exact ⟨hkind, _, hpeer, hkey⟩
  · exact absurd rfl h

/-- A private message names both participants. -/
theorem otherParticipant_messageToJson {m : StoredMessage} (hto : 0 < m.to_id) (userId : Int64) :
    otherParticipant (messageToJson .ReceiveMsg m) userId =
      some (Store.directPeerId (messageToJson .ReceiveMsg m) userId) := by
  have hfrom : member (messageToJson .ReceiveMsg m) "fromId" = some (ofInt32 m.from_id) := by
    rw [member, messageToJson, find?_object]
    split <;> split <;> split <;> simp
  have hto : member (messageToJson .ReceiveMsg m) "toId" = some (ofInt32 m.to_id) := by
    rw [member, messageToJson, find?_object, if_pos hto]
    split <;> split <;> simp
  unfold otherParticipant Store.directPeerId
  rw [hfrom, hto]
  split <;> rfl

/-- A file changes the conversation of its `fromId`, and no other. -/
theorem changed_receiveFile_iff {name : Bytes} (hname : member raw "file_name" = some (.str name))
    (hdirect : truthy (member raw "groupId") = false) :
    (s.receiveFile js raw).conversations kind key ≠ s.conversations kind key ↔
      kind = .direct ∧ key = js.string (some (orElse (member raw "fromId") (.int 0))) := by
  unfold Store.receiveFile
  simp only [hname, hdirect, if_neg Bool.false_ne_true]
  constructor
  · exact conversations_put_ne
  · rintro ⟨rfl, rfl⟩
    exact conversations_append_ne

/-- So it has to name a sender other than the user. -/
theorem sender_is_peer_iff (hnull : js.textOf .null = lit "null") {userId : Int64} :
    (∃ peer, otherParticipant raw userId = some peer ∧
      js.string (some (orElse (member raw "fromId") (.int 0))) = js.string (some peer)) ↔ FromPeer js raw userId := by
  unfold otherParticipant FromPeer
  cases hfrom : member raw "fromId" with
  | none => exact iff_of_false (by simp) (by simp)
  | some fromId =>
    by_cases hzero : fromId = .null
    · subst hzero
      refine iff_of_false ?_ (by simp)
      rintro ⟨peer, hpeer, hkey⟩
      cases hpeer
      have htext : lit "0" = js.textOf .null := hkey
      rw [hnull] at htext
      exact absurd htext (by decide)
    · have hvalue : orElse (some fromId) (.int 0) = fromId := by
        cases fromId with
        | null => exact absurd rfl hzero
        | _ => rfl
      rw [hvalue]
      by_cases hsame : same fromId userId = true
      · rw [if_pos (by simpa using hsame)]
        constructor
        · rintro ⟨toId, hto, hkey⟩
          exact ⟨fromId, rfl, hzero, fun _ => ⟨toId, hto, hkey.symm⟩⟩
        · rintro ⟨fromId', hsome, -, hto⟩
          cases hsome
          obtain ⟨toId, hto, hkey⟩ := hto hsame
          exact ⟨toId, hto, hkey.symm⟩
      · rw [if_neg (by simpa using hsame)]
        exact iff_of_true ⟨fromId, rfl, rfl⟩ ⟨fromId, rfl, hzero, fun h => absurd h hsame⟩

theorem filed_receiveFile_iff (hnull : js.textOf .null = lit "null") {name : Bytes}
    (hname : member raw "file_name" = some (.str name)) (hdirect : truthy (member raw "groupId") = false) :
    (∀ kind key, (s.receiveFile js raw).conversations kind key ≠ s.conversations kind key →
      kind = .direct ∧ ∃ peer, otherParticipant raw s.userId = some peer ∧ key = js.string (some peer)) ↔
      FromPeer js raw s.userId := by
  rw [← sender_is_peer_iff hnull]
  constructor
  · intro h
    exact (h .direct _ ((changed_receiveFile_iff hname hdirect).mpr ⟨rfl, rfl⟩)).2
  · rintro ⟨peer, hpeer, hkey⟩ kind key hchanged
    obtain ⟨hkind, rfl⟩ := (changed_receiveFile_iff hname hdirect).mp hchanged
    exact ⟨hkind, peer, hpeer, hkey⟩

end Filing

/-- A payload that the server hands out changes no conversation but the one with the
other participant, unless it is a file: then it has to name a sender other than the user. -/
theorem filed_under_peer_iff {env : Env} {st : Server} {event : TcpServer.Event} {d : Delivery}
    (hd : d ∈ (TcpServer.handle env event st).out) {raw : Object} (hraw : raw ∈ carried d.payload)
    (htype : ∃ type ∈ directTypes, typeField raw = some type) (hdirect : truthy (member raw "groupId") = false)
    {js : Js} (hnull : js.textOf .null = lit "null") {s : Store} (huser : s.userId ≠ 0) :
    FiledUnderPeer js s raw ↔ (typeField raw = some .ReceiveFile → FromPeer js raw s.userId) := by
  have hshaped := TcpServer.carriesShaped_of_handle hd raw hraw
  obtain ⟨type, hmem, htype⟩ := htype
  simp only [directTypes, List.mem_cons, List.not_mem_nil, or_false] at hmem
  have hone : s.handleIncomingMessage js raw = s.handleOne js raw := by
    unfold Store.handleIncomingMessage
    rw [htype]
    rcases hmem with rfl | rfl | rfl | rfl | rfl | rfl <;> rfl
  unfold FiledUnderPeer
  rw [hone]
  unfold Store.handleOne
  rcases hmem with rfl | rfl | rfl | rfl | rfl | rfl
  · obtain ⟨m, hto, hm⟩ := hshaped.message htype
    rw [htype]
    refine iff_of_true (fun kind key h => filed_receiveMsg huser ?_ h) nofun
    rw [hm]
    exact otherParticipant_messageToJson hto s.userId
  · obtain ⟨name, hname⟩ := hshaped.file htype
    rw [htype]
    exact (filed_receiveFile_iff hnull hname hdirect).trans ⟨fun h _ => h, fun h => h rfl⟩
  · rw [htype]
    exact iff_of_true (fun kind key h => filed_changeIfOk hdirect h) nofun
  · rw [htype]
    exact iff_of_true (fun kind key h => filed_changeIfOk hdirect h) nofun
  · rw [htype]
    exact iff_of_true (fun kind key h => filed_changeIfOk hdirect h) nofun
  · rw [htype]
    exact iff_of_true (fun kind key h => filed_change hdirect h) nofun

/-! ### The echo of a file -/

/-- User 1000 sends a file to user 1001. -/
def sendFile : TcpServer.Event :=
  TcpServer.request 1 .SendFile [("fromId", .int 1000), ("toId", .int 1001), ("file_name", text "a.txt"),
    ("file_hash", text "h")]

/-- The stores of a user who has logged in. -/
def loggedInAs (id : Int64) : Store := { Store.initial with currentUser := some (0, ⟨id, [], 0⟩) }

/-- As `String(null)` in JavaScript. -/
def Js.withNull : Js := { Js.plain with textOf := fun _ => lit "null" }

/-- The recipient has the file in the conversation with its sender. -/
theorem filed_under_peer_iff_received :
    ∃ st d, TcpServer.Reachable .ideal (Server.boot .ideal .empty).db st ∧ d ∈ (TcpServer.handle .ideal sendFile st).out ∧
      st.userId d.target = 1001 ∧ (FiledUnderPeer .withNull (loggedInAs 1001) d.payload ↔
        (typeField d.payload = some .ReceiveFile → FromPeer .withNull d.payload 1001)) := by
  have hrun : ((run (TcpServer.step .ideal) (.boot .ideal .empty) TcpServer.threeUsers).bind fun st =>
      ((TcpServer.handle .ideal sendFile st).out[1]?).map fun d => (st.userId d.target, typeField d.payload,
        (member d.payload "groupId").isNone)) = some (1001, some .ReceiveFile, true) := by
    decide +kernel
  obtain ⟨st, hst, hout⟩ := Option.bind_eq_some_iff.mp hrun
  obtain ⟨d, hd, hfacts⟩ := Option.map_eq_some_iff.mp hout
  simp only [Prod.mk.injEq] at hfacts
  obtain ⟨huser, htype, hgroup⟩ := hfacts
  have hmem := List.mem_of_getElem? hd
  have hcarried : d.payload ∈ carried d.payload := by
    rw [carried, htype, if_neg (by decide)]
    exact List.mem_singleton_self _
  have hdirect : truthy (member d.payload "groupId") = false := by
    rw [Option.isNone_iff_eq_none.mp hgroup]
    rfl
  exact ⟨st, d, ⟨_, hst⟩, hmem, huser, filed_under_peer_iff hmem hcarried ⟨_, by decide, htype⟩ hdirect rfl (by decide)⟩

/-- The sender has it in a conversation with itself. -/
theorem file_filed_under_sender :
    ∃ st d, TcpServer.Reachable .ideal (Server.boot .ideal .empty).db st ∧ d ∈ (TcpServer.handle .ideal sendFile st).out ∧
      st.userId d.target = 1000 ∧ typeField d.payload = some .ReceiveFile ∧ member d.payload "groupId" = none ∧
      ¬FiledUnderPeer .withNull (loggedInAs 1000) d.payload := by
  have hrun : ((run (TcpServer.step .ideal) (.boot .ideal .empty) TcpServer.threeUsers).bind fun st =>
      ((TcpServer.handle .ideal sendFile st).out[0]?).map fun d => (st.userId d.target, typeField d.payload,
        (member d.payload "groupId").isNone,
        (((loggedInAs 1000).handleIncomingMessage .withNull d.payload).conversations .direct (lit "1000")).isSome,
        (otherParticipant d.payload 1000).any fun peer => Js.withNull.string (some peer) ≠ lit "1000")) =
      some (1000, some .ReceiveFile, true, true, true) := by
    decide +kernel
  obtain ⟨st, hst, hout⟩ := Option.bind_eq_some_iff.mp hrun
  obtain ⟨d, hd, hfacts⟩ := Option.map_eq_some_iff.mp hout
  simp only [Prod.mk.injEq] at hfacts
  obtain ⟨huser, htype, hgroup, hchanged, hother⟩ := hfacts
  refine ⟨st, d, ⟨_, hst⟩, List.mem_of_getElem? hd, huser, htype, Option.isNone_iff_eq_none.mp hgroup, fun hfiled => ?_⟩
  have hdiffers : ((loggedInAs 1000).handleIncomingMessage .withNull d.payload).conversations .direct (lit "1000") ≠
      (loggedInAs 1000).conversations .direct (lit "1000") := by
    intro hsame
    rw [hsame] at hchanged
    cases hchanged
  obtain ⟨-, peer, hpeer, hkey⟩ := hfiled .direct _ hdiffers
  have hpeer : otherParticipant d.payload 1000 = some peer := hpeer
  rw [hpeer, Option.any_some, decide_eq_true_eq] at hother
  exact hother hkey.symm

end Client

end LanChat
