import LanChat.Server.Routing

/-!
# The types of the frames

Which types of frames answering a request can lead to, whoever gets them:
`emits_dispatch`, by one lemma for each handler.
-/

namespace LanChat

open Lib Json

namespace MessageRouter

/-- Every payload that the command hands over meets `T`. -/
def Emits {α : Type} (T : Object → Prop) (c : RouterM α) : Prop :=
  Cmd.Sat (fun _ => True) c (fun _ _ => True) (fun _ _ => True) fun d => T d.payload

/-- The payload has one of the types. -/
def OfType (types : List MsgType) (payload : Object) : Prop := ∃ type ∈ types, typeField payload = some type

/-- The types of the frames that a request of the type leads to. -/
def answers : Option MsgType → List MsgType
  | some .RegisterUser => [.RegisterUserReturn]
  | some .Login => [.LoginFailedReturn, .LoginSuccessReturn, .OfflineMessages, .FriendOnline]
  | some .Logout => [.FriendOnline, .SystemBroadcast]
  | some .SendMsg => [.SystemBroadcast, .ReceiveMsg]
  | some .SendGroupMsg => [.SystemBroadcast, .ReceiveGroupMsg]
  | some .SendFile => [.FileTransferDone, .ReceiveFile]
  | some .CreateGroup => [.CreateGroupReturn]
  | some .SearchGroup => [.SearchGroupReturn]
  | some .JoinGroup => [.JoinGroupReturn]
  | some .RequestHistory => [.HistoryResponse]
  | some .AIRequest => [.AIResponse, .AIStreamChunk]
  | some .FriendRequest => [.FriendRequestAck, .FriendRequest]
  | some .FriendAccept => [.FriendAcceptReturn]
  | some .FriendRemove => [.FriendRemoveReturn]
  | some .FriendList => [.FriendListReturn]
  | some .MessageEdit => [.MessageEditReturn]
  | some .MessageDelete => [.MessageDeleteReturn]
  | some .MessageReaction => [.MessageReactionReturn]
  | some .ReadReceipt => [.SystemBroadcast, .ReadReceipt]
  | some .ProtocolHello => [.ProtocolHello]
  | _ => [.SystemBroadcast]

section Emits

variable {α β : Type} {env : Env} {T : Object → Prop} {session : SessionId} {request payload : Object}

theorem emits_pure (a : α) : Emits T (pure a : RouterM α) := Cmd.sat_pure fun _ h => h

theorem emits_throw (e : Exn) : Emits T (Cmd.throw e : RouterM α) := Cmd.sat_throw fun _ _ => trivial

theorem emits_asks (f : Server → α) : Emits T (Cmd.asks f : RouterM α) := Cmd.sat_asks fun _ h => h

theorem emits_modify (f : Server → Server) : Emits T (Cmd.modify f : RouterM Unit) := Cmd.sat_modify fun _ h => h

theorem emits_onDb (c : DbM α) : Emits T (onDb c) := fun _ _ => ⟨nofun, fun _ _ => trivial, fun _ _ => trivial⟩

theorem Emits.bind {c : RouterM α} {f : α → RouterM β} (hc : Emits T c) (hf : ∀ a, Emits T (f a)) :
    Emits T (c >>= f) :=
  Cmd.Sat.bind (hc.post fun _ _ _ => trivial) hf

theorem Emits.ite {b : Prop} [Decidable b] {c d : RouterM α} (hc : Emits T c) (hd : Emits T d) :
    Emits T (if b then c else d) :=
  Cmd.sat_ite (fun _ => hc) fun _ => hd

theorem Emits.when {b : Prop} [Decidable b] {c : RouterM Unit} (hc : Emits T c) : Emits T (Cmd.when b c) :=
  Emits.ite hc (emits_pure ())

theorem emits_andAlso {b : Prop} [Decidable b] (c : DbM Bool) : Emits T (Cmd.andAlso b (onDb c)) :=
  Emits.ite (emits_onDb c) (emits_pure false)

theorem emits_each {xs : List β} {body : β → RouterM Unit} (h : ∀ x, Emits T (body x)) :
    Emits T (Cmd.each xs body) :=
  Cmd.sat_each fun x _ => h x

theorem emits_deliverContent (session : SessionId) (carries : Server → List StoredMessage) (h : T payload) :
    Emits T (deliverContent session payload carries) := by
  intro st _
  refine ⟨fun d hd => ?_, fun _ _ => trivial, fun _ _ => trivial⟩
  unfold deliverContent at hd
  split at hd <;> rw [List.mem_singleton.mp hd] <;> exact h

theorem emits_deliver (session : SessionId) (h : T payload) : Emits T (deliver session payload) :=
  emits_deliverContent session _ h

theorem emits_deliverIfFound (target : Option SessionId) (carries : Server → List StoredMessage) (h : T payload) :
    Emits T (deliverIfFound target payload carries) := by
  cases target with
  | none => exact emits_pure ()
  | some target => exact emits_deliverContent target carries h

theorem emits_deliverToUser (user : Int32) (carries : Server → List StoredMessage) (h : T payload) :
    Emits T (deliverToUser user payload carries) :=
  (emits_asks _).bind fun _ => emits_deliverIfFound _ carries h

theorem emits_deliverToConversation (senderId toId groupId : Int32) (carries : Server → List StoredMessage)
    (h : T payload) : Emits T (deliverToConversation env payload senderId toId groupId carries) :=
  Emits.ite ((emits_onDb _).bind fun _ => emits_each fun _ => emits_deliverToUser _ carries h)
    ((emits_deliverToUser _ carries h).bind fun _ => (emits_deliverToUser _ carries h).when)

theorem emits_answerChange (ok : Bool) (fromId toId groupId : Int32) (carries : Server → List StoredMessage)
    (h : T payload) : Emits T (answerChange env session ok payload fromId toId groupId carries) :=
  Emits.ite (emits_deliverToConversation _ _ _ carries h) (emits_deliver session h)

theorem emits_broadcastPresence (type : MsgType) (userId : Int32)
    (h : ∀ online user, T (presencePayload online user userId)) : Emits T (broadcastPresence env type userId) := by
  refine (emits_onDb _).bind fun user => ?_
  cases user with
  | none => exact emits_pure ()
  | some user => exact (emits_onDb _).bind fun _ => emits_each fun _ => emits_deliverToUser _ _ (h _ user)

/-! ## The types of the payloads -/

theorem ofType_object {types : List MsgType} {t : MsgType} {fields : List (String × Value)} (h : t ∈ types)
    (hfind : (fields.reverse.find? fun field => field.1 = "type").map (·.2) = some (ofInt32 t.toInt)) :
    OfType types (object fields) :=
  ⟨t, h, typeField_of_find? (by rw [find?_object]; simpa only [lit_inj] using hfind)⟩

theorem ofType_put {types : List MsgType} {t : MsgType} (h : t ∈ types) (payload : Object) :
    OfType types (payload.put (lit "type") (ofInt32 t.toInt)) :=
  ⟨t, h, typeField_of_find? (OrdMap.find?_put_self ..)⟩

theorem OfType.put {types : List MsgType} (h : OfType types payload) {key : String} (hkey : key ≠ "type") (v : Value) :
    OfType types (payload.put (lit key) v) := by
  obtain ⟨type, hmem, htype⟩ := h
  refine ⟨type, hmem, ?_⟩
  have hsame : OrdMap.find? (payload.put (lit key) v) (lit "type") = payload.find? (lit "type") :=
    OrdMap.find?_put_of_ne fun heq => hkey (lit_inj.mp heq).symm
  rwa [typeField, intField, hsame]

theorem ofType_errorReply {types : List MsgType} {t : MsgType} (h : t ∈ types) (code : Int32) (msg : String) :
    OfType types (errorReply t code msg) :=
  ofType_object h (by simp)

theorem ofType_okReply {types : List MsgType} {t : MsgType} (h : t ∈ types) (msg : String) :
    OfType types (okReply t msg) :=
  ofType_object h (by simp)

theorem ofType_append_targetFields {types : List MsgType} {t : MsgType} {fields : List (String × Value)}
    {toId groupId : Int32} (h : t ∈ types)
    (hfind : (fields.reverse.find? fun field => field.1 = "type").map (·.2) = some (ofInt32 t.toInt)) :
    OfType types (object (fields ++ targetFields toId groupId)) := by
  refine ⟨t, h, typeField_of_find? ?_⟩
  rw [find?_append_targetFields fields toId groupId (by decide) (by decide), find?_object]
  simpa only [lit_inj] using hfind

theorem ofType_messageToJson {types : List MsgType} {t : MsgType} (h : t ∈ types) (message : StoredMessage) :
    OfType types (messageToJson t message) := by
  refine ofType_object h ?_
  split <;> split <;> split <;> simp

/-! ## The handlers -/

theorem emits_deliverOffline (userId : Int32) (h : ∀ messages, T (offlineReply messages)) :
    Emits T (deliverOffline env session userId) :=
  (emits_onDb _).bind fun messages => (emits_pure ()).ite (emits_deliverContent session _ (h messages))

theorem emits_acceptLogin (uid : Int32) (user : UserInfo) :
    Emits (OfType (answers (some .Login))) (acceptLogin env session uid user) := by
  refine (emits_modify _).bind fun _ => (emits_modify _).bind fun _ => (emits_onDb _).bind fun _ =>
    (emits_asks _).bind fun _ => (emits_onDb _).bind fun _ => (emits_onDb _).bind fun _ =>
    (emits_onDb _).bind fun _ => (emits_deliver session ?_).bind fun _ => (emits_deliverOffline uid ?_).bind fun _ =>
    emits_broadcastPresence _ uid ?_
  · exact ofType_object (t := .LoginSuccessReturn) (by decide) (by simp)
  · exact fun _ => ofType_object (t := .OfflineMessages) (by decide) (by simp)
  · exact fun _ _ => ofType_object (t := .FriendOnline) (by decide) (by simp)

theorem emits_handleLogin : Emits (OfType (answers (some .Login))) (handleLogin env session request) := by
  have hrefused : ∀ code msg, OfType (answers (some .Login)) (errorReply .LoginFailedReturn code msg) :=
    fun code msg => ofType_errorReply (by decide) code msg
  refine Emits.ite (emits_deliver session (hrefused ..)) ((emits_onDb _).bind fun _ =>
    Emits.ite (emits_deliver session (hrefused ..)) ((emits_onDb _).bind fun user => ?_))
  cases user with
  | none => exact emits_deliver session (hrefused ..)
  | some user => exact emits_acceptLogin _ user

theorem emits_handleLogout : Emits (OfType (answers (some .Logout))) (handleLogout env session) := by
  refine (emits_asks _).bind fun uid => (Emits.when ?_).bind fun _ =>
    emits_deliver session (ofType_okReply (by decide) _)
  refine (emits_modify _).bind fun _ => (emits_onDb _).bind fun _ => (emits_modify _).bind fun _ =>
    emits_broadcastPresence _ uid fun _ _ => ?_
  exact ofType_object (t := .FriendOnline) (by decide) (by simp)

theorem emits_handlePrivateMessage :
    Emits (OfType (answers (some .SendMsg))) (handlePrivateMessage env session request) := by
  have hmessage : ∀ message, OfType (answers (some .SendMsg)) (messageToJson .ReceiveMsg message) :=
    fun message => ofType_messageToJson (by decide) message
  exact (emits_asks _).bind fun _ => Emits.ite (emits_deliver session (ofType_errorReply (by decide) _ _))
    ((emits_asks _).bind fun _ => (emits_onDb _).bind fun message =>
      (emits_deliverIfFound _ _ (hmessage message)).bind fun _ => emits_deliverContent session _ (hmessage message))

theorem emits_handleGroupMessage :
    Emits (OfType (answers (some .SendGroupMsg))) (handleGroupMessage env session request) :=
  (emits_asks _).bind fun _ => Emits.ite (emits_deliver session (ofType_errorReply (by decide) _ _))
    ((emits_onDb _).bind fun message => (emits_onDb _).bind fun _ => emits_each fun _ =>
      emits_deliverToUser _ _ (ofType_messageToJson (by decide) message))

theorem emits_handleFileTransfer :
    Emits (OfType (answers (some .SendFile))) (handleFileTransfer env session request) :=
  (emits_asks _).bind fun _ => Emits.ite (emits_deliver session (ofType_errorReply (by decide) _ _))
    ((emits_deliverToConversation _ _ _ _ (ofType_put (by decide) request)).bind fun _ =>
      emits_deliver session (ofType_object (t := .FileTransferDone) (by decide) (by simp)))

theorem emits_handleJoinGroup :
    Emits (OfType (answers (some .JoinGroup))) (handleJoinGroup env session request) :=
  (emits_asks _).bind fun _ => (emits_onDb _).bind fun _ => Emits.ite
    (emits_deliver session (ofType_errorReply (by decide) _ _)) ((emits_onDb _).bind fun _ =>
      (emits_onDb _).bind fun _ => (emits_asks _).bind fun _ =>
        emits_deliver session (ofType_object (t := .JoinGroupReturn) (by decide) (by simp)))

theorem emits_handleAIRequest :
    Emits (OfType (answers (some .AIRequest))) (handleAIRequest env session request) := by
  refine Emits.ite ?_ (Emits.ite (emits_deliver session (ofType_errorReply (by decide) _ _)) ?_)
  · refine (emits_asks _).bind fun _ => (emits_onDb _).bind fun history => ?_
    cases history with
    | none => exact emits_deliver session (ofType_errorReply (by decide) _ _)
    | some history =>
      refine (emits_deliver session ?_).bind fun _ => emits_each fun _ => emits_deliverContent session _ ?_
      · exact ofType_object (t := .AIResponse) (by decide) (by simp)
      · exact ofType_object (t := .AIStreamChunk) (by decide) (by simp)
  · exact (emits_onDb _).bind fun _ => emits_deliverContent session _
      (ofType_object (t := .AIResponse) (by decide) (by simp))

theorem emits_handleProfileUpdate :
    Emits (OfType (answers (some .UserProfileUpdate))) (handleProfileUpdate env session request) :=
  (emits_asks _).bind fun _ => Emits.ite (emits_deliver session (ofType_errorReply (by decide) _ _))
    ((emits_onDb _).bind fun _ => Emits.ite (emits_deliver session (ofType_errorReply (by decide) _ _))
      (emits_deliver session (ofType_okReply (by decide) _)))

theorem emits_handleFriendRequest :
    Emits (OfType (answers (some .FriendRequest))) (handleFriendRequest env session request) := by
  have hack : ∀ fromId toId ok, OfType (answers (some .FriendRequest)) (friendAck fromId toId ok) := by
    intro fromId toId ok
    refine ofType_object (t := .FriendRequestAck) (by decide) ?_
    split <;> simp
  exact (emits_asks _).bind fun _ => (emits_andAlso _).bind fun _ => Emits.ite (emits_deliver session (hack ..))
    ((emits_deliver session (hack ..)).bind fun _ => emits_deliverToUser _ _
      (ofType_object (t := .FriendRequest) (by decide) (by simp)))

theorem emits_handleFriendAccept :
    Emits (OfType (answers (some .FriendAccept))) (handleFriendAccept env session request) := by
  have hreply : ∀ ok friendId user, OfType (answers (some .FriendAccept)) (acceptReply ok friendId user) := by
    intro ok friendId user
    refine ofType_object (t := .FriendAcceptReturn) (by decide) ?_
    cases user <;> cases ok <;> simp
  exact (emits_asks _).bind fun _ => (emits_andAlso _).bind fun _ => (emits_onDb _).bind fun _ =>
    (emits_onDb _).bind fun _ => (emits_deliver session (hreply ..)).bind fun _ => emits_deliverToUser _ _ (hreply ..)

theorem emits_handleFriendRemove :
    Emits (OfType (answers (some .FriendRemove))) (handleFriendRemove env session request) := by
  have hreply : ∀ ok rejected removedId, OfType (answers (some .FriendRemove)) (removeReply ok rejected removedId) := by
    intro ok rejected removedId
    refine ofType_object (t := .FriendRemoveReturn) (by decide) ?_
    cases rejected <;> cases ok <;> simp
  exact (emits_asks _).bind fun _ => (emits_onDb _).bind fun _ => (emits_deliver session (hreply ..)).bind fun _ =>
    emits_deliverToUser _ _ (hreply ..)

theorem emits_handleSystemBroadcast (htype : typeField request = some .SystemBroadcast) :
    Emits (OfType (answers (some .SystemBroadcast))) (handleSystemBroadcast env session request) := by
  have hrequest : OfType (answers (some .SystemBroadcast)) request := ⟨_, by decide, htype⟩
  exact Emits.ite (emits_deliver session (ofType_okReply (by decide) _)) ((emits_asks _).bind fun _ =>
    Emits.ite (emits_deliver session (ofType_errorReply (by decide) _ _)) (Emits.ite
      (emits_deliverToUser _ _ hrequest) (Emits.ite ((emits_onDb _).bind fun _ => emits_each fun _ =>
        emits_deliverToUser _ _ hrequest) (emits_pure ()))))

theorem emits_handleReadReceipt :
    Emits (OfType (answers (some .ReadReceipt))) (handleReadReceipt env session request) := by
  have hreceipt : ∀ uid now, OfType (answers (some .ReadReceipt)) (receiptPayload request uid now) := fun uid now =>
    ((ofType_put (t := .ReadReceipt) (by decide) request).put (by decide) _).put (by decide) _
  exact (emits_asks _).bind fun _ => (emits_andAlso _).bind fun _ => Emits.ite
    (emits_deliver session (ofType_errorReply (by decide) _ _))
    ((emits_onDb _).bind fun _ => emits_deliverToConversation _ _ _ _ (hreceipt ..))

/-- Every request leads to frames of the types that `answers` lists. -/
theorem emits_dispatch : Emits (OfType (answers (typeField request))) (dispatch env session request) := by
  unfold dispatch
  split
  all_goals try rename_i htype; rw [htype]
  · exact Emits.ite (emits_deliver session (ofType_errorReply (by decide) _ _)) ((emits_onDb _).bind fun _ =>
      Emits.ite (emits_deliver session (ofType_errorReply (by decide) _ _))
        (emits_deliver session (ofType_object (t := .RegisterUserReturn) (by decide) (by simp))))
  · exact emits_handleLogin
  · exact emits_handleLogout
  · exact emits_handlePrivateMessage
  · exact emits_handleGroupMessage
  · exact emits_handleFileTransfer
  · refine (emits_asks _).bind fun _ => Emits.ite (emits_deliver session (ofType_errorReply (by decide) _ _))
      ((emits_onDb _).bind fun group => emits_deliver session ?_)
    exact (ofType_put (t := .CreateGroupReturn) (by decide) (groupToJson group)).put (by decide) _
  · exact (emits_onDb _).bind fun _ =>
      emits_deliver session (ofType_object (t := .SearchGroupReturn) (by decide) (by simp))
  · exact emits_handleJoinGroup
  · exact (emits_asks _).bind fun _ => (emits_onDb _).bind fun _ =>
      emits_deliver session (ofType_okReply (by decide) _)
  · exact (emits_asks _).bind fun _ => (emits_onDb _).bind fun _ => emits_deliverContent session _
      (ofType_object (t := .HistoryResponse) (by decide) (by simp))
  · exact emits_handleAIRequest
  · exact emits_handleProfileUpdate
  · exact emits_handleFriendRequest
  · exact emits_handleFriendAccept
  · exact emits_handleFriendRemove
  · exact (emits_asks _).bind fun _ => (emits_onDb _).bind fun _ => (emits_asks _).bind fun _ =>
      emits_deliver session (ofType_object (t := .FriendListReturn) (by decide) (by simp))
  · exact emits_handleSystemBroadcast htype
  · exact (emits_asks _).bind fun _ => (emits_andAlso _).bind fun _ => (emits_onDb _).bind fun _ =>
      emits_answerChange _ _ _ _ _ (ofType_append_targetFields (t := .MessageEditReturn) (by decide) (by simp))
  · exact (emits_asks _).bind fun _ => (emits_andAlso _).bind fun _ => (emits_onDb _).bind fun _ =>
      emits_answerChange _ _ _ _ _ (ofType_append_targetFields (t := .MessageDeleteReturn) (by decide) (by simp))
  · exact (emits_asks _).bind fun _ => (emits_andAlso _).bind fun _ =>
      emits_answerChange _ _ _ _ _ (ofType_append_targetFields (t := .MessageReactionReturn) (by decide) (by simp))
  · exact emits_handleReadReceipt
  · refine emits_deliver session (ofType_object (t := .ProtocolHello) (by decide) ?_)
    split <;> simp
  · refine emits_deliver session (ofType_okReply ?_ _)
    unfold answers
    split <;> simp_all

end Emits

end MessageRouter

end LanChat
