import LanChat.Db.Refusals
import LanChat.Server.FrameTypes
import LanChat.Server.Friendship
import LanChat.Server.Unauthenticated

/-!
# Whom a refused request disturbs

Most handlers that refuse a request answer the requester and return. The two
that end a friendship or a request for one tell the other user whatever has come
of it. `undisturbed_iff_unheard` goes through all handlers.
-/

namespace LanChat

open Lib Json Database

namespace MessageRouter

/-- A copy of a request that is passed on. -/
def isCopy (payload : Object) : Bool :=
  typeField payload = some .ReceiveFile || typeField payload = some .ReadReceipt ||
    (typeField payload = some .SystemBroadcast && stringField payload "event" [] = lit "typing")

/-- A reply with the status `error`. -/
def isRefusal (payload : Object) : Bool := !isCopy payload && stringField payload "status" [] = lit "error"

/-- The requester is refused, and the refusal fits a frame. -/
def Refused (session : SessionId) (c : RouterM Unit) (st : Server) : Prop :=
  ∃ d ∈ (c st).out, d.target = session ∧ isRefusal d.payload = true ∧ (FrameCodec.encode (serialize d.payload)).isSome

/-- Nobody else is handed anything, and the data are as in `db`. -/
def Undisturbed (session : SessionId) (db : Database) (c : RouterM Unit) (st : Server) : Prop :=
  (∀ d ∈ (c st).out, d.target = session) ∧ Unchanged db (c st).state.db

/-- If the command refuses the requester, `P` decides whether others are disturbed. -/
def Decides (P : Prop) (session : SessionId) (db : Database) (c : RouterM Unit) (st : Server) : Prop :=
  Refused session c st → (Undisturbed session db c st ↔ P)

section Decides

variable {P : Prop} {α : Type} {env : Env} {session : SessionId} {db : Database} {st : Server} {payload : Object}

theorem decides_onDb {c : DbM α} {f : α → RouterM Unit}
    (h : ∀ a, (c st.db).result = .ok a → Decides P session db (f a) { st with db := (c st.db).state }) :
    Decides P session db (onDb c >>= f) st := by
  cases hr : (c st.db).result with
  | error e =>
    rintro ⟨d, hd, -⟩
    rw [Cmd.bind_error f (by exact hr)] at hd
    cases hd
  | ok a =>
    have hrun : onDb c st = ⟨.ok a, { st with db := (c st.db).state }, []⟩ := by
      rw [← hr]
      rfl
    unfold Decides Refused Undisturbed
    rw [Cmd.bind_of_run f hrun]
    exact h a hr

theorem decides_throw (e : Exn) : Decides P session db (Cmd.throw e) st := by
  rintro ⟨d, hd, -⟩
  cases hd

theorem decides_andAlso {b : Prop} [Decidable b] {c : DbM Bool} {f : Bool → RouterM Unit}
    (h : ∀ ok, (Cmd.andAlso b c st.db).result = .ok ok →
      Decides P session db (f ok) { st with db := (Cmd.andAlso b c st.db).state }) :
    Decides P session db (Cmd.andAlso b (onDb c) >>= f) st := by
  rw [andAlso_onDb]
  exact decides_onDb h

theorem decides_auth {f : Int32 → RouterM Unit} (h : Decides P session db (f (st.userId session)) st) :
    Decides P session db (authenticatedUserId session >>= f) st := by
  unfold Decides Refused Undisturbed
  rw [Cmd.bind_of_run f (run_authenticatedUserId st session)]
  exact h

theorem decides_ite {b : Prop} [Decidable b] {c d : RouterM Unit} (hc : b → Decides P session db c st)
    (hd : ¬b → Decides P session db d st) : Decides P session db (if b then c else d) st := by
  split
  · next h => exact hc h
  · next h => exact hd h

/-- A command that hands out no refusal. -/
theorem decides_of_emits {c : RouterM Unit} (h : Emits (fun payload => isRefusal payload = false) c) :
    Decides P session db c st := by
  rintro ⟨d, hd, -, hrefusal, -⟩
  rw [(h st trivial).1 d hd] at hrefusal
  cases hrefusal

theorem out_deliverContent (session : SessionId) (payload : Object) (carries : Server → List StoredMessage) (st : Server) :
    (deliverContent session payload carries st).out = [⟨session, payload, carries st, st⟩] := by
  unfold deliverContent
  split <;> rfl

theorem db_deliverContent (session : SessionId) (payload : Object) (carries : Server → List StoredMessage) (st : Server) :
    (deliverContent session payload carries st).state.db = st.db := by
  unfold deliverContent
  split <;> rfl

/-- The answer to the requester is all there is. -/
theorem decides_deliver_iff (hdb : Unchanged db st.db ↔ P) : Decides P session db (deliver session payload) st := by
  intro _
  unfold Undisturbed
  rw [deliver, out_deliverContent, db_deliverContent, ← hdb]
  exact and_iff_right fun d hd => by rw [List.mem_singleton.mp hd]

theorem decides_deliver (hP : P) (hdb : Unchanged db st.db) : Decides P session db (deliver session payload) st :=
  decides_deliver_iff (iff_of_true hdb hP)

/-- The answer is told to another user as well. -/
theorem decides_deliverBoth {user : Int32} {payload' : Object} (hdb : Unchanged db st.db) :
    Decides (∀ t, st.pool.findByUserId user = some t → t = session) session db
      (deliver session payload >>= fun _ => deliverToUser user payload' fun _ => []) st := by
  cases hsent : (st.pool.object session).deliver (serialize payload) with
  | error e =>
    have hfirst : (deliver session payload st).result = .error e := by simp only [deliver, deliverContent, hsent]
    rintro ⟨d, hd, -, -, hfits⟩
    rw [Cmd.bind_error _ hfirst, deliver, out_deliverContent] at hd
    rw [List.mem_singleton.mp hd] at hfits
    unfold AsyncSession.deliver at hsent
    cases hframe : FrameCodec.encode (serialize payload) with
    | none =>
      rw [hframe] at hfits
      cases hfits
    | some frame =>
      rw [hframe] at hsent
      cases hsent
  | ok s =>
    intro _
    have hfirst : (deliver session payload st).result = .ok () := by simp only [deliver, deliverContent, hsent]
    have hstate : (deliver session payload st).state = { st with pool := st.pool.setObject session s } := by
      simp only [deliver, deliverContent, hsent]
    have hfind : findByUserId user { st with pool := st.pool.setObject session s } =
        ⟨.ok (st.pool.findByUserId user), { st with pool := st.pool.setObject session s }, []⟩ := rfl
    unfold Undisturbed
    rw [Cmd.bind_ok _ hfirst, hstate, deliver, out_deliverContent, deliverToUser, Cmd.bind_of_run _ hfind]
    cases st.pool.findByUserId user with
    | none => simpa [deliverIfFound] using hdb
    | some t =>
      simp only [deliverIfFound, out_deliverContent, db_deliverContent]
      simp [hdb]

end Decides

/-! ## Payloads that are no refusals -/

section Mild

variable {payload : Object}

theorem mild_of_status (h : stringField payload "status" [] ≠ lit "error") : isRefusal payload = false := by
  simp [isRefusal, h]

theorem mild_of_copy (h : isCopy payload = true) : isRefusal payload = false := by
  simp [isRefusal, h]

/-- What an object that is written out says of its status. -/
theorem mild_object {fields : List (String × Value)}
    (h : (fields.reverse.find? fun field => field.1 = "status").map (·.2) ≠ some (text "error")) :
    isRefusal (object fields) = false := by
  refine mild_of_status fun herror => h ?_
  unfold stringField at herror
  rw [find?_object] at herror
  simp only [lit_inj] at herror
  split at herror
  · next s hs => rw [hs, herror]; rfl
  · exact absurd herror (by decide)

theorem mild_of_type {type : MsgType} (htype : typeField payload = some type) (h : type ∈ [.ReceiveFile, .ReadReceipt]) :
    isRefusal payload = false := by
  refine mild_of_copy ?_
  simp only [List.mem_cons, List.not_mem_nil, or_false] at h
  rcases h with rfl | rfl <;> simp [isCopy, htype]

theorem mild_okReply (type : MsgType) (msg : String) : isRefusal (okReply type msg) = false :=
  mild_object (by simp [text, lit_inj])

theorem mild_messageToJson (type : MsgType) (message : StoredMessage) : isRefusal (messageToJson type message) = false := by
  refine mild_object ?_
  split <;> split <;> split <;> simp

theorem mild_append_targetFields {fields : List (String × Value)} {toId groupId : Int32}
    (h : (fields.reverse.find? fun field => field.1 = "status").map (·.2) ≠ some (text "error")) :
    isRefusal (object (fields ++ targetFields toId groupId)) = false := by
  refine mild_object ?_
  rw [List.reverse_append, List.find?_append]
  have hnone : (targetFields toId groupId).reverse.find? (fun field => decide (field.1 = "status")) = none := by
    unfold targetFields
    split <;> split <;> simp
  rw [hnone, Option.none_or]
  exact h

theorem mild_incomingFile (request : Object) : isRefusal (incomingFile request) = false :=
  mild_of_type (typeField_of_find? (OrdMap.find?_put_self ..)) (by decide)

theorem mild_receiptPayload (request : Object) (fromId : Int32) (now : Int64) :
    isRefusal (receiptPayload request fromId now) = false := by
  have htype : typeField (receiptPayload request fromId now) = some .ReadReceipt := by
    refine typeField_of_find? ?_
    unfold receiptPayload
    rw [OrdMap.find?_put_of_ne (by simp [lit_inj]), OrdMap.find?_put_of_ne (by simp [lit_inj])]
    exact OrdMap.find?_put_self ..
  exact mild_of_type htype (by decide)

theorem mild_presencePayload (online : Bool) (user : UserInfo) (userId : Int32) :
    isRefusal (presencePayload online user userId) = false := by
  refine mild_object ?_
  cases online <;> simp [text, lit_inj]

theorem mild_createdReply (group : ChannelInfo) : isRefusal (createdReply group) = false := by
  refine mild_of_status ?_
  rw [stringField, createdReply, OrdMap.find?_put_self]
  decide

end Mild

/-! ## The handlers -/

/-- Who would hear of a refusal, and what it would change. -/
def Unheard (st : Server) (session : SessionId) (request : Object) : Prop :=
  let fromId := intField request "fromId" 0
  let toId := intField request "toId" 0
  match typeField request with
  | some .FriendAccept => ∀ t, st.pool.findByUserId fromId = some t → t = session
  | some .FriendRemove =>
    ∀ t, st.pool.findByUserId (if st.userId session = fromId then toId else fromId) = some t → t = session
  | some .RegisterUser =>
    let nickname := stringField request "nickname" (stringField request "name" [])
    nickname ≠ [] → stringField request "password" [] ≠ [] → ¬UserRepository.RunsOver (st.db.content .users) nickname
  | _ => True

section Handlers

variable {env : Env} {session : SessionId} {st : Server} {request : Object} {rows : TableName → RowList}

theorem decides_handleLogin : Decides True session st.db (handleLogin env session request) st := by
  refine decides_ite (fun _ => decides_deliver trivial (.refl _)) fun _ => decides_onDb fun verified hverified =>
    decides_ite (fun hno => ?_) fun hyes => decides_onDb fun found hfound => ?_
  · refine decides_deliver trivial ?_
    rw [Bool.not_eq_true'] at hno
    exact (UserRepository.cleanlyRefused_verifyPassword _ _).unchanged (hno ▸ hverified)
  · rw [Bool.not_eq_true', Bool.not_eq_false] at hyes
    have hthere := (UserRepository.sat_verifyPassword_hasUser _ _ st.db trivial).2.1 _ hverified hyes
    cases found with
    | none => exact absurd hfound (UserRepository.findById_of_hasUser hthere)
    | some user =>
      refine decides_of_emits ?_
      refine (emits_modify _).bind fun _ => (emits_modify _).bind fun _ => (emits_onDb _).bind fun _ =>
        (emits_asks _).bind fun _ => (emits_onDb _).bind fun _ => (emits_onDb _).bind fun _ =>
        (emits_onDb _).bind fun _ => (emits_deliver session ?_).bind fun _ => (emits_deliverOffline _ ?_).bind fun _ =>
        emits_broadcastPresence _ _ fun _ _ => mild_presencePayload ..
      · exact mild_object (by simp)
      · exact fun _ => mild_object (by simp)

theorem decides_handleLogout : Decides True session st.db (handleLogout env session) st :=
  decides_of_emits <| (emits_asks _).bind fun _ => (Emits.when <| (emits_modify _).bind fun _ => (emits_onDb _).bind fun _ =>
    (emits_modify _).bind fun _ => emits_broadcastPresence _ _ fun _ _ => mild_presencePayload ..).bind fun _ =>
      emits_deliver session (mild_okReply ..)

theorem decides_handlePrivateMessage : Decides True session st.db (handlePrivateMessage env session request) st :=
  decides_auth <| decides_ite (fun _ => decides_deliver trivial (.refl _)) fun _ =>
    decides_of_emits <| (emits_asks _).bind fun _ => (emits_onDb _).bind fun _ =>
      (emits_deliverIfFound _ _ (mild_messageToJson ..)).bind fun _ => emits_deliverContent session _ (mild_messageToJson ..)

theorem decides_handleGroupMessage : Decides True session st.db (handleGroupMessage env session request) st :=
  decides_auth <| decides_ite (fun _ => decides_deliver trivial (.refl _)) fun _ =>
    decides_of_emits <| (emits_onDb _).bind fun _ => (emits_onDb _).bind fun _ => emits_each fun _ =>
      emits_deliverToUser _ _ (mild_messageToJson ..)

theorem decides_handleFileTransfer : Decides True session st.db (handleFileTransfer env session request) st :=
  decides_auth <| decides_ite (fun _ => decides_deliver trivial (.refl _)) fun _ =>
    decides_of_emits <| (emits_deliverToConversation _ _ _ _ (mild_incomingFile request)).bind fun _ =>
      emits_deliver session (mild_object (by simp [text, lit_inj]))

theorem decides_handleCreateGroup : Decides True session st.db (handleCreateGroup env session request) st :=
  decides_auth <| decides_ite (fun _ => decides_deliver trivial (.refl _)) fun _ =>
    decides_of_emits <| (emits_onDb _).bind fun group => emits_deliver session (mild_createdReply group)

theorem decides_handleSearchGroup : Decides True session st.db (handleSearchGroup env session request) st :=
  decides_of_emits <| (emits_onDb _).bind fun _ => emits_deliver session (mild_object (by simp [text, lit_inj]))

theorem decides_handleJoinGroup : Decides True session st.db (handleJoinGroup env session request) st := by
  refine decides_auth <| decides_onDb fun joined hjoined => decides_ite (fun hno => decides_deliver trivial ?_) fun _ =>
    decides_of_emits <| (emits_onDb _).bind fun _ => (emits_onDb _).bind fun _ => (emits_asks _).bind fun _ =>
      emits_deliver session (mild_object (by simp [text, lit_inj]))
  rw [Bool.not_eq_true'] at hno
  exact (ChannelRepository.cleanlyRefused_join _ _).unchanged (hno ▸ hjoined)

theorem decides_handleLeaveGroup : Decides True session st.db (handleLeaveGroup env session request) st :=
  decides_of_emits <| (emits_asks _).bind fun _ => (emits_onDb _).bind fun _ => emits_deliver session (mild_okReply ..)

theorem decides_handleHistory : Decides True session st.db (handleHistory env session request) st :=
  decides_of_emits <| (emits_asks _).bind fun _ => (emits_onDb _).bind fun _ =>
    emits_deliverContent session _ (mild_object (by simp))

theorem decides_handleAIRequest : Decides True session st.db (handleAIRequest env session request) st := by
  refine decides_ite (fun _ => ?_) fun _ => decides_ite (fun _ => decides_deliver trivial (.refl _)) fun _ => ?_
  · refine decides_auth <| decides_onDb fun history hhistory => ?_
    cases history with
    | none => exact decides_deliver trivial (guarded_summaryHistory (reads_unchanged env st.db) _).unchanged
    | some history =>
      refine decides_of_emits <| (emits_deliver session ?_).bind fun _ => emits_each fun _ =>
        emits_deliverContent session _ ?_
      · exact mild_object (by simp [text, lit_inj])
      · exact mild_object (by simp)
  · exact decides_of_emits <| (emits_onDb _).bind fun _ => emits_deliverContent session _ (mild_object (by simp [text, lit_inj]))

theorem decides_handleFriendRequest : Decides True session st.db (handleFriendRequest env session request) st := by
  refine decides_auth <| decides_andAlso fun sent hsent => decides_ite (fun hno => decides_deliver trivial ?_) fun hyes => ?_
  · rw [Bool.not_eq_true'] at hno
    exact (FriendRepository.cleanlyRefused_sendRequest _ _ _).andAlso.unchanged (hno ▸ hsent)
  · exact decides_of_emits <| (emits_deliver session (mild_object (by simp [text, lit_inj]))).bind fun _ =>
      emits_deliverToUser _ _ (mild_object (by simp))

theorem decides_handleFriendAccept :
    Decides (∀ t, st.pool.findByUserId (intField request "fromId" 0) = some t → t = session) session st.db
      (handleFriendAccept env session request) st := by
  refine decides_auth <| decides_andAlso fun ok hok => ?_
  cases ok with
  | true =>
    have hreply : ∀ friendId user, isRefusal (acceptReply true friendId user) = false := fun friendId user => by
      refine mild_object ?_
      cases user <;> simp [statusText, text, lit_inj]
    exact decides_of_emits <| (emits_onDb _).bind fun _ => (emits_onDb _).bind fun _ =>
      (emits_deliver session (hreply ..)).bind fun _ => emits_deliverToUser _ _ (hreply ..)
  | false =>
    have hchange := (FriendRepository.cleanlyRefused_setStatus _ _ _).andAlso.unchanged hok
    exact decides_onDb fun fromUser _ => decides_onDb fun toUser _ => decides_deliverBoth <|
      (hchange.trans ((reads_unchanged env _).findById _).unchanged).trans ((reads_unchanged env _).findById _).unchanged

theorem sat_rejectOrRemove (db : Database) (uid fromId toId : Int32) :
    Cmd.Sat (Unchanged db) (rejectOrRemove env uid fromId toId) (fun answer db' => answer.2 = false → Unchanged db db')
      (fun _ _ => True) fun _ => True := by
  refine Cmd.sat_ite (fun _ => Cmd.sat_pure fun _ h _ => h) fun _ =>
    (FriendRepository.cleanlyRefused_setStatus _ _ _).andAlso.bind fun rejected => ?_
  cases rejected with
  | true => exact Cmd.sat_pure fun _ _ h => nomatch h
  | false =>
    exact Cmd.Sat.pre ((FriendRepository.cleanlyRefused_removeFriendship fromId toId).bind fun _ => Cmd.sat_pure fun _ h => h)
      fun _ h => h rfl

theorem decides_handleFriendRemove :
    Decides (∀ t, st.pool.findByUserId (if st.userId session = intField request "fromId" 0 then intField request "toId" 0
      else intField request "fromId" 0) = some t → t = session) session st.db (handleFriendRemove env session request) st := by
  refine decides_auth <| decides_onDb fun answer hanswer => ?_
  obtain ⟨rejected, ok⟩ := answer
  cases ok with
  | true =>
    have hreply : ∀ removedId, isRefusal (removeReply true rejected removedId) = false := fun removedId => by
      refine mild_object ?_
      cases rejected <;> simp [statusText, text, lit_inj]
    exact decides_of_emits <| (emits_deliver session (hreply _)).bind fun _ => emits_deliverToUser _ _ (hreply _)
  | false =>
    exact decides_deliverBoth ((sat_rejectOrRemove st.db _ _ _ st.db (.refl _)).2.1 _ hanswer rfl)

theorem decides_handleFriendList : Decides True session st.db (handleFriendList env session) st :=
  decides_of_emits <| (emits_asks _).bind fun _ => (emits_onDb _).bind fun _ => (emits_asks _).bind fun _ =>
    emits_deliver session (mild_object (by simp))

theorem decides_handleSystemBroadcast (htype : typeField request = some .SystemBroadcast) :
    Decides True session st.db (handleSystemBroadcast env session request) st := by
  refine decides_ite (fun _ => decides_deliver trivial (.refl _)) fun hevent => decides_auth <|
    decides_ite (fun _ => decides_deliver trivial (.refl _)) fun _ => ?_
  have hcopy : isRefusal request = false := by
    refine mild_of_copy ?_
    simp only [ne_eq, Decidable.not_not] at hevent
    simp [isCopy, htype, hevent]
  exact decides_of_emits <| Emits.ite (emits_deliverToUser _ _ hcopy) <| Emits.ite ((emits_onDb _).bind fun _ =>
    emits_each fun _ => emits_deliverToUser _ _ hcopy) (emits_pure ())

theorem decides_handleProtocolHello : Decides True session st.db (handleProtocolHello session request) st :=
  decides_deliver trivial (.refl _)

section Writes

variable (henv : env.Serves) (h : st.db.Holds rows)

include henv h

theorem decides_handleRegister :
    Decides (stringField request "nickname" (stringField request "name" []) ≠ [] → stringField request "password" [] ≠ [] →
      ¬UserRepository.RunsOver (rows .users) (stringField request "nickname" (stringField request "name" [])))
      session st.db (handleRegister env session request) st := by
  refine decides_ite (fun hempty => decides_deliver (fun hname hpassword => (hempty.elim hname hpassword).elim) (.refl _))
    fun hfull => decides_onDb fun id hid => decides_ite (fun hno => decides_deliver_iff ?_) fun _ =>
      decides_of_emits <| emits_deliver session (mild_object (by simp [text, lit_inj]))
  obtain ⟨hname, hpassword⟩ := not_or.mp hfull
  rw [UserRepository.unchanged_create_iff henv h _ _ _ hid hno, forall_prop_of_true hname, forall_prop_of_true hpassword]

theorem decides_handleProfileUpdate : Decides True session st.db (handleProfileUpdate env session request) st := by
  refine decides_auth <| decides_ite (fun _ => decides_deliver trivial (.refl _)) fun _ => decides_onDb fun found hfound =>
    decides_ite (fun hno => decides_deliver trivial ?_) fun _ => decides_of_emits <| emits_deliver session (mild_okReply ..)
  rw [Bool.not_eq_true'] at hno
  exact UserRepository.unchanged_updateProfile henv h _ _ _ (hno ▸ hfound)

omit henv h in
/-- The answer to a change of a message. -/
theorem decides_answerChange {db : Database} {ok : Bool} {toId groupId fromId : Int32} {payload : Object}
    {carries : Server → List StoredMessage} (hno : ok = false → Unchanged db st.db)
    (hyes : ok = true → isRefusal payload = false) :
    Decides True session db (answerChange env session ok payload fromId toId groupId carries) st := by
  cases ok with
  | true => exact decides_of_emits (emits_deliverToConversation _ _ _ _ (hyes rfl))
  | false => exact decides_deliver trivial (hno rfl)

theorem decides_handleMessageEdit : Decides True session st.db (handleMessageEdit env session request) st := by
  refine decides_auth <| decides_andAlso fun ok hok => decides_onDb fun now _ => decides_answerChange (fun hno => ?_) fun hyes => ?_
  · have hchange := unchanged_andAlso (MessageRepository.unchanged_edit henv h _ _ _) (hno ▸ hok)
    exact hchange.trans (reads_unchanged env _).time.unchanged
  · exact mild_append_targetFields (by simp [hyes, statusText, text, lit_inj])

theorem decides_handleMessageDelete : Decides True session st.db (handleMessageDelete env session request) st := by
  refine decides_auth <| decides_andAlso fun ok hok => decides_onDb fun now _ => decides_answerChange (fun hno => ?_) fun hyes => ?_
  · have hchange := unchanged_andAlso (MessageRepository.unchanged_softDelete henv h _ _) (hno ▸ hok)
    exact hchange.trans (reads_unchanged env _).time.unchanged
  · exact mild_append_targetFields (by simp [hyes, statusText, text, lit_inj])

theorem decides_handleMessageReaction : Decides True session st.db (handleMessageReaction env session request) st := by
  refine decides_auth <| decides_andAlso fun ok hok => decides_answerChange (fun hno => ?_) fun hyes => ?_
  · exact unchanged_andAlso (MessageRepository.unchanged_addReaction henv h _ _ _) (hno ▸ hok)
  · exact mild_append_targetFields (by simp [hyes, statusText, text, lit_inj])

theorem decides_handleReadReceipt : Decides True session st.db (handleReadReceipt env session request) st := by
  refine decides_auth <| decides_andAlso fun marked hmarked => decides_ite (fun hno => decides_deliver trivial ?_) fun _ =>
    decides_of_emits <| (emits_onDb _).bind fun _ => emits_deliverToConversation _ _ _ _ (mild_receiptPayload ..)
  rw [Bool.not_eq_true'] at hno
  exact unchanged_andAlso (MessageRepository.unchanged_markRead henv h _ _) (hno ▸ hmarked)

end Writes

/-- The request types whose refusal rewrites a table, or may have stored a user. -/
def refusedWrites : List MsgType :=
  [.RegisterUser, .UserProfileUpdate, .MessageEdit, .MessageDelete, .MessageReaction, .ReadReceipt]

theorem decides_dispatch
    (hserves : ∀ type ∈ refusedWrites, typeField request = some type → env.Serves ∧ st.db.Holds rows) :
    Decides (Unheard st session request) session st.db (dispatch env session request) st := by
  have hquiet : ∀ {c : RouterM Unit}, typeField request ≠ some .FriendAccept → typeField request ≠ some .FriendRemove →
      typeField request ≠ some .RegisterUser → Decides True session st.db c st →
        Decides (Unheard st session request) session st.db c st := by
    intro c haccept hremove hregister hc
    have hP : Unheard st session request := by
      unfold Unheard
      split
      · next htype => exact absurd htype haccept
      · next htype => exact absurd htype hremove
      · next htype => exact absurd htype hregister
      · trivial
    exact fun hrefused => (hc hrefused).trans (iff_of_true trivial hP)
  unfold dispatch
  split
  case h_1 htype =>
    obtain ⟨henv, h⟩ := hserves _ (by decide) htype
    have hregister := @decides_handleRegister env session st request rows henv h
    rw [← h.content_eq] at hregister
    unfold Unheard
    rw [htype]
    exact hregister
  case h_15 htype =>
    unfold Unheard
    rw [htype]
    exact decides_handleFriendAccept
  case h_16 htype =>
    unfold Unheard
    rw [htype]
    exact decides_handleFriendRemove
  case h_24 hregister _ _ _ _ _ _ _ _ _ _ _ _ _ haccept hremove _ _ _ _ _ _ _ =>
    exact hquiet haccept hremove hregister (decides_deliver trivial (.refl _))
  all_goals rename_i htype
  all_goals refine hquiet (by simp [htype]) (by simp [htype]) (by simp [htype]) ?_
  · exact decides_handleLogin
  · exact decides_handleLogout
  · exact decides_handlePrivateMessage
  · exact decides_handleGroupMessage
  · exact decides_handleFileTransfer
  · exact decides_handleCreateGroup
  · exact decides_handleSearchGroup
  · exact decides_handleJoinGroup
  · exact decides_handleLeaveGroup
  · exact decides_handleHistory
  · exact decides_handleAIRequest
  · obtain ⟨henv, h⟩ := hserves _ (by decide) htype
    exact decides_handleProfileUpdate henv h
  · exact decides_handleFriendRequest
  · exact decides_handleFriendList
  · exact decides_handleSystemBroadcast htype
  · obtain ⟨henv, h⟩ := hserves _ (by decide) htype
    exact decides_handleMessageEdit henv h
  · obtain ⟨henv, h⟩ := hserves _ (by decide) htype
    exact decides_handleMessageDelete henv h
  · obtain ⟨henv, h⟩ := hserves _ (by decide) htype
    exact decides_handleMessageReaction henv h
  · obtain ⟨henv, h⟩ := hserves _ (by decide) htype
    exact decides_handleReadReceipt henv h
  · exact decides_handleProtocolHello

end Handlers

/-- In every state that the server reaches, a request that is refused disturbs
nobody else exactly if nobody else would hear of it. Only for the requests whose
refusal rewrites a table does this need SQLite to serve. -/
theorem undisturbed_iff_unheard {env : Env} {db : Database} {st : Server} {session : SessionId} {json : Bytes}
    (hreach : TcpServer.Reachable env db st)
    (hserves : ∀ type ∈ refusedWrites, (parseObject env.stack json).bind typeField = some type → env.Serves ∧ db.Stored)
    (hrefused : Refused session (route env session json) st) :
    Undisturbed session st.db (route env session json) st ↔
      ∀ request, parseObject env.stack json = some request → Unheard st session request := by
  have hdecides : Decides (∀ request, parseObject env.stack json = some request → Unheard st session request) session st.db
      (route env session json) st := by
    obtain ⟨-, hparse, hroute⟩ | ⟨-, hparse, -, hroute⟩ | ⟨request, -, hparse, -, hroute⟩ :=
      route_cases env session json
    · rw [hroute, hparse]
      exact decides_throw _
    · rw [hroute, hparse]
      exact decides_deliver nofun (.refl _)
    · rw [hroute]
      simp only [hparse, Option.bind_some] at hserves ⊢
      simp only [Option.some.injEq, forall_eq']
      by_cases hwrites : ∃ type ∈ refusedWrites, typeField request = some type
      · obtain ⟨type, hmem, htype⟩ := hwrites
        obtain ⟨henv, hstored⟩ := hserves type hmem htype
        obtain ⟨rows, h⟩ := TcpServer.invariant_of_reachable (writes_stored henv) hstored hreach
        exact decides_dispatch fun _ _ _ => ⟨henv, h⟩
      · exact @decides_dispatch env session st request (fun _ => []) fun type hmem htype => (hwrites ⟨type, hmem, htype⟩).elim
  exact hdecides hrefused

/-- User 1001 accepts a request that user 1000 has not made. -/
def vainAccept : Bytes := requestText .FriendAccept [("fromId", .int 1000)]

theorem undisturbed_iff_unheard_vainAccept :
    ∃ st, run (TcpServer.step .ideal) (.boot .ideal .empty) TcpServer.threeUsers = some st ∧
      (Undisturbed 2 st.db (route .ideal 2 vainAccept) st ↔
        ∀ request, parseObject Env.ideal.stack vainAccept = some request → Unheard st 2 request) := by
  have hrun : ((run (TcpServer.step .ideal) (.boot .ideal .empty) TcpServer.threeUsers).map fun st =>
      (route .ideal 2 vainAccept st).out.any fun d =>
        d.target = 2 && isRefusal d.payload && (FrameCodec.encode (serialize d.payload)).isSome) = some true := by
    decide +kernel
  have htype : (parseObject Env.ideal.stack vainAccept).bind typeField = some .FriendAccept := by decide +kernel
  obtain ⟨st, hst, hany⟩ := Option.map_eq_some_iff.mp hrun
  obtain ⟨d, hd, hrefusal⟩ := List.any_eq_true.mp hany
  simp only [Bool.and_eq_true, decide_eq_true_eq] at hrefusal
  refine ⟨st, hst, undisturbed_iff_unheard ⟨_, hst⟩ (fun type hmem heq => ?_) ⟨d, hd, hrefusal.1.1, hrefusal.1.2, hrefusal.2⟩⟩
  rw [htype, Option.some_inj] at heq
  exact absurd (heq ▸ hmem) (by decide)

/-- User 1000 is told that the acceptance has failed. -/
theorem refusal_disturbs_other :
    ¬∀ env db st, TcpServer.Reachable env db st → ∀ session json, Refused session (route env session json) st →
      Undisturbed session st.db (route env session json) st := by
  intro hall
  have hrun : ((run (TcpServer.step .ideal) (.boot .ideal .empty) TcpServer.threeUsers).map fun st =>
      ((route .ideal 2 vainAccept st).out.any fun d =>
        d.target = 2 && isRefusal d.payload && (FrameCodec.encode (serialize d.payload)).isSome,
        (route .ideal 2 vainAccept st).out.any fun d => d.target = 1)) = some (true, true) := by
    decide +kernel
  obtain ⟨st, hst, heq⟩ := Option.map_eq_some_iff.mp hrun
  obtain ⟨hrefused, htold⟩ := Prod.mk.injEq .. ▸ heq
  obtain ⟨d, hd, hrefusal⟩ := List.any_eq_true.mp hrefused
  obtain ⟨d', hd', htarget⟩ := List.any_eq_true.mp htold
  simp only [Bool.and_eq_true, decide_eq_true_eq] at hrefusal htarget
  have hown := (hall .ideal _ st ⟨_, hst⟩ 2 vainAccept ⟨d, hd, hrefusal.1.1, hrefusal.1.2, hrefusal.2⟩).1 d' hd'
  rw [htarget] at hown
  cases hown

end MessageRouter

end LanChat
