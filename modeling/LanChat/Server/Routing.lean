import LanChat.Server.Handout

/-!
# Which deliveries the handlers make

`sat_dispatch`: routing a request leaves the roster as `rosterAfter` says, and
every delivery it makes is one that `Hands` lists. There is one lemma for each
handler, `handsOut_` followed by its name.
-/

namespace LanChat

open Lib Json

namespace MessageRouter

section Handlers

variable {env : Env} {st : Server} {session : SessionId} {request : Object}
  {ρ : Roster} {F : Database → Prop}

/-- The command keeps the roster and hands out only what is listed. -/
def HandsOut (env : Env) (st : Server) (session : SessionId) (request : Object) (F : Database → Prop)
    (c : RouterM Unit) : Prop :=
  Cmd.Sat (At st.roster F) c (fun _ t => t.roster = st.roster) (fun _ _ => True)
    (Hands env st session request)

theorem handsOut_answer (payload : Object) :
    HandsOut env st session request F (deliver session payload) :=
  (sat_deliver fun t _ => .answer payload t).post fun _ _ h => h.1

theorem sat_authenticatedUserId' {W : Delivery → Prop} :
    Cmd.Sat (At st.roster F) (authenticatedUserId session)
      (fun uid t => uid = st.userId session ∧ At st.roster F t) (fun _ _ => True) W :=
  sat_authenticatedUserId

theorem HandsOut.of_auth {f : Int32 → RouterM Unit}
    (h : HandsOut env st session request F (f (st.userId session))) :
    HandsOut env st session request F (authenticatedUserId session >>= f) := by
  refine sat_authenticatedUserId'.bind fun uid => Cmd.Sat.of_fact fun huid => ?_
  rw [huid]
  exact h

theorem HandsOut.of_onDb {α : Type} {c : DbM α} {f : α → RouterM Unit}
    (h : ∀ a, HandsOut env st session request (fun _ => True) (f a)) :
    HandsOut env st session request F (onDb c >>= f) :=
  (sat_onDb_any c).bind h

theorem HandsOut.of_asks {α : Type} {g : Server → α} {f : α → RouterM Unit}
    (h : ∀ a, HandsOut env st session request F (f a)) :
    HandsOut env st session request F (Cmd.asks g >>= f) :=
  (Cmd.sat_asks (f := g) (Q := fun _ => At st.roster F) fun _ h => h).bind h

theorem HandsOut.of_ite {b : Prop} [Decidable b] {c d : RouterM Unit}
    (hc : b → HandsOut env st session request F c) (hd : ¬b → HandsOut env st session request F d) :
    HandsOut env st session request F (if b then c else d) :=
  Cmd.sat_ite hc hd

theorem handsOut_handleRegister : HandsOut env st session request F (handleRegister env session request) :=
  .of_ite (fun _ => handsOut_answer _) fun _ => .of_onDb fun _ =>
    .of_ite (fun _ => handsOut_answer _) fun _ => handsOut_answer _

theorem handsOut_handleCreateGroup :
    HandsOut env st session request F (handleCreateGroup env session request) :=
  .of_auth <| .of_ite (fun _ => handsOut_answer _) fun _ => .of_onDb fun _ => handsOut_answer _

theorem handsOut_handleSearchGroup :
    HandsOut env st session request F (handleSearchGroup env session request) :=
  .of_onDb fun _ => handsOut_answer _

theorem handsOut_handleJoinGroup :
    HandsOut env st session request F (handleJoinGroup env session request) :=
  .of_auth <| .of_onDb fun _ => .of_ite (fun _ => handsOut_answer _) fun _ => .of_onDb fun _ =>
    .of_onDb fun _ => .of_asks fun _ => handsOut_answer _

theorem handsOut_handleLeaveGroup :
    HandsOut env st session request F (handleLeaveGroup env session request) :=
  .of_auth <| .of_onDb fun _ => handsOut_answer _

theorem handsOut_handleFriendList : HandsOut env st session request F (handleFriendList env session) :=
  .of_auth <| .of_onDb fun _ => .of_asks fun _ => handsOut_answer _

theorem handsOut_handleProfileUpdate :
    HandsOut env st session request F (handleProfileUpdate env session request) :=
  .of_auth <| .of_ite (fun _ => handsOut_answer _) fun _ => .of_onDb fun _ =>
    .of_ite (fun _ => handsOut_answer _) fun _ => handsOut_answer _

theorem handsOut_handleProtocolHello :
    HandsOut env st session request F (handleProtocolHello session request) :=
  handsOut_answer _

/-! ### Messages -/

theorem handsOut_handlePrivateMessage :
    HandsOut env st session request F (handlePrivateMessage env session request) := by
  refine .of_auth <| .of_ite (fun _ => handsOut_answer _) fun hvalid => ?_
  rw [not_or, not_or, Int32.not_le, Int32.not_le] at hvalid
  obtain ⟨hpos, hto, -⟩ := hvalid
  refine sat_findByUserId.bind fun target => Cmd.Sat.of_fact fun htarget => ?_
  refine (sat_onDb (MessageRepository.sat_savePrivate _ _ _ _ _)).bind fun message =>
    sat_of_at_fact fun ⟨hfrom, hm, hgroup⟩ => ?_
  refine (sat_deliverIfFound fun t st' ht hst => ?_).bind fun _ => ?_
  · refine .savedPrivate t message st' hpos hfrom hgroup hst.1 (.inr ⟨hm ▸ hto, ?_⟩)
    rw [hm, ← ht, htarget]
    rfl
  · refine (sat_deliverContent fun st' hst => ?_).post fun _ _ h => h.1
    exact .savedPrivate session message st' hpos hfrom hgroup hst.1 (.inl rfl)

theorem handsOut_handleGroupMessage :
    HandsOut env st session request F (handleGroupMessage env session request) := by
  refine .of_auth <| .of_ite (fun _ => handsOut_answer _) fun hvalid => ?_
  rw [not_or, not_or, Int32.not_le, Int32.not_le] at hvalid
  obtain ⟨hpos, hgroup, -⟩ := hvalid
  refine (sat_onDb (MessageRepository.sat_saveGroup _ _ _ _)).bind fun message =>
    sat_of_at_fact fun ⟨hfrom, hm⟩ => ?_
  refine (sat_onDb (ChannelRepository.sat_members _)).bind fun members => ?_
  refine (Cmd.sat_each fun memberId hmem => ?_).post fun _ _ h => h.1
  refine sat_deliverToUser fun target at_ hfound hat => ?_
  exact .savedGroup target message memberId at_ hpos hfrom (hm ▸ hgroup) hat.1 hfound
    (hm ▸ hat.2 memberId hmem)

/-! ### Queries -/

/-- An answer made from the selected messages. -/
theorem handsOut_selected {d : Database} {payload : Object} {messages : List StoredMessage}
    (hsel : (selected env (st.userId session) request st.db).result = .ok messages)
    (hdb : (selected env (st.userId session) request st.db).state = d) :
    HandsOut env st session request (fun db => db = d)
      (deliverContent session payload fun _ => messages) :=
  (sat_deliverContent fun at_ hat => .selected payload messages at_ hsel hat.1
    (hat.2.trans hdb.symm)).post fun _ _ h => h.1

theorem handsOut_handleHistory (htype : typeField request = some .RequestHistory) :
    HandsOut env st session request (fun db => db = st.db) (handleHistory env session request) := by
  refine .of_auth <| (sat_onDb_exact _ _).bind fun history => Cmd.Sat.of_fact fun hsel => ?_
  have hdef : selected env (st.userId session) request =
      requestedHistory env (st.userId session) request := by simp only [selected, htype]
  exact handsOut_selected (by rw [hdef]; exact hsel) (by rw [hdef])

theorem handsOut_handleSummarize (htype : typeField request = some .AIRequest)
    (hai : stringField request "ai_type" [] = lit "summarize") {requestId : Bytes}
    (hid : stringField request "request_id" (lit "search") = requestId) :
    HandsOut env st session request (fun db => db = st.db)
      (handleSummarize env session requestId (stringField request "msg" [])) := by
  refine .of_auth <| (sat_onDb_exact _ _).bind fun history => Cmd.Sat.of_fact fun hsum => ?_
  have hdef : selected env (st.userId session) request =
      summaryHistory env (st.userId session) (stringField request "msg" []) >>= fun history =>
        pure (if (serialize (summaryStart requestId)).length ≤ FrameCodec.MaxFrameBytes then
          quoted (history.getD []) else []) := by
    simp only [selected, htype, hai, if_true, hid]
  cases history with
  | none => exact handsOut_answer _
  | some history =>
    refine (sat_deliverContent_fits fun at_ _ => .answer _ at_).bind fun _ =>
      Cmd.Sat.of_fact fun hfits => ?_
    refine (Cmd.sat_each fun chunkIndex _ => sat_deliverContent fun at_ hat => ?_).post
      fun _ _ h => h.1
    refine .selected _ _ at_ ?_ hat.1 ?_
    · rw [hdef, Cmd.bind_ok _ hsum, if_pos hfits]
      rfl
    · rw [hdef, Cmd.bind_ok _ hsum]
      exact hat.2

theorem handsOut_handleAIRequest (htype : typeField request = some .AIRequest) :
    HandsOut env st session request (fun db => db = st.db)
      (handleAIRequest env session request) := by
  refine .of_ite (fun hai => handsOut_handleSummarize htype hai rfl) fun hsum =>
    .of_ite (fun _ => handsOut_answer _) fun hsearch => ?_
  rw [not_not] at hsearch
  have hdef : selected env (st.userId session) request =
      MessageRepository.search env (stringField request "msg" []) (intField request "limit" 50) := by
    simp only [selected, htype]
    rw [if_neg hsum, if_neg (not_not.mpr hsearch)]
  refine (sat_onDb_exact _ _).bind fun messages => Cmd.Sat.of_fact fun hsel => ?_
  exact handsOut_selected (by rw [hdef]; exact hsel) (by rw [hdef])

/-! ### Copies of the request -/

theorem sat_deliverToUsers {users : List Int32} {payload : Object}
    {carries : Server → List StoredMessage} {W : Delivery → Prop}
    (h : ∀ target at_, target ∈ handed st.pool users payload → At st.roster F at_ →
      W ⟨target, payload, carries at_, at_⟩) :
    Cmd.Sat (At st.roster F) (deliverToUsers users payload carries) (fun _ => At st.roster F)
      (fun _ _ => True) W := by
  intro t ht
  have hstep : ∀ user ∈ users, Cmd.Sat (At st.roster F) (deliverToUser user payload carries)
      (fun _ => At st.roster F) (fun _ _ => True) fun _ => True :=
    fun _ _ => sat_deliverToUser fun _ _ _ _ => trivial
  obtain ⟨-, hok, herr⟩ := Cmd.sat_each hstep t ht
  refine ⟨fun d hd => ?_, hok, herr⟩
  obtain ⟨htargets, hfacts⟩ := out_deliverToUsers users payload carries t
  obtain ⟨heq, hroster, hdb⟩ := hfacts d hd
  have htarget : d.target ∈ handed st.pool users payload := by
    rw [← handed_of_roster ht.1, ← htargets]
    exact List.mem_map_of_mem hd
  rw [heq]
  exact h d.target d.at_ htarget ⟨hroster.trans ht.1, hdb ▸ ht.2⟩

theorem sat_relayed {users : List Int32} {copy : Object}
    (hrel : (relayed env (st.userId session) request st.db).result = .ok (users, copy)) :
    Cmd.Sat (At st.roster F) (deliverToUsers users copy fun _ => []) (fun _ => At st.roster F)
      (fun _ _ => True) (Hands env st session request) :=
  sat_deliverToUsers fun target at_ ht _ => .relayed target users copy at_ hrel ht

theorem handsOut_handleFileTransfer (htype : typeField request = some .SendFile) :
    HandsOut env st session request (fun db => db = st.db)
      (handleFileTransfer env session request) := by
  refine .of_auth <| .of_ite (fun _ => handsOut_answer _) fun hvalid => ?_
  rw [deliverToConversation_eq, bind_assoc]
  refine (sat_onDb_exact _ _).bind fun users => Cmd.Sat.of_fact fun husers => ?_
  refine (sat_relayed ?_).bind fun _ => handsOut_answer _
  simp only [relayed, htype, relayedFile]
  rw [if_neg hvalid, Cmd.bind_ok _ husers]
  rfl

theorem handsOut_handleReadReceipt (htype : typeField request = some .ReadReceipt) :
    HandsOut env st session request (fun db => db = st.db)
      (handleReadReceipt env session request) := by
  refine .of_auth ?_
  dsimp only
  rw [andAlso_onDb]
  refine (sat_onDb_exact _ _).bind fun marked => Cmd.Sat.of_fact fun hmarked => ?_
  refine HandsOut.of_ite (fun _ => handsOut_answer _) fun hm => ?_
  refine (sat_onDb_exact _ _).bind fun now => Cmd.Sat.of_fact fun hnow => ?_
  rw [deliverToConversation_eq]
  refine (sat_onDb_exact _ _).bind fun users => Cmd.Sat.of_fact fun husers => ?_
  refine (sat_relayed ?_).post fun _ _ h => h.1
  simp only [relayed, htype, relayedReceipt]
  rw [Cmd.bind_ok _ hmarked, if_neg hm, Cmd.bind_ok _ hnow, Cmd.bind_ok _ husers]
  rfl

theorem handsOut_handleSystemBroadcast (htype : typeField request = some .SystemBroadcast) :
    HandsOut env st session request (fun db => db = st.db)
      (handleSystemBroadcast env session request) := by
  refine .of_ite (fun _ => handsOut_answer _) fun hevent => .of_auth <|
    .of_ite (fun _ => handsOut_answer _) fun hpos => .of_ite (fun hto => ?_) fun hto =>
      .of_ite (fun hgroup => ?_) fun _ => Cmd.sat_pure fun _ h => h.1
  · rw [← deliverToUsers_singleton]
    refine (sat_relayed ?_).post fun _ _ h => h.1
    simp only [relayed, htype, relayedTyping]
    rw [if_neg (not_or.mpr ⟨hevent, hpos⟩), if_pos hto]
    rfl
  · refine (sat_onDb_exact _ _).bind fun members => Cmd.Sat.of_fact fun hmembers => ?_
    refine (sat_relayed ?_).post fun _ _ h => h.1
    simp only [relayed, htype, relayedTyping]
    rw [if_neg (not_or.mpr ⟨hevent, hpos⟩), if_neg hto, if_pos hgroup, Cmd.bind_ok _ hmembers]
    rfl

/-! ### Changes of a message -/

theorem sender_object (fields : List (String × Value)) :
    sender (object fields) =
      (fields.reverse.find? fun field => field.1 = "fromId").map (·.2) := by
  simp only [sender, find?_object, lit_inj]

theorem find?_append_targetFields (fields : List (String × Value)) (toId groupId : Int32) {key : String}
    (hto : "toId" ≠ key) (hgroup : "groupId" ≠ key) :
    OrdMap.find? (object (fields ++ targetFields toId groupId)) (lit key) =
      OrdMap.find? (object fields) (lit key) := by
  have htarget : (targetFields toId groupId).reverse.find? (fun field => field.1 = key) = none := by
    unfold targetFields
    split <;> split <;> simp [hto, hgroup]
  simp only [find?_object, lit_inj, List.reverse_append, List.find?_append, htarget, Option.none_or]

theorem sender_append_targetFields (fields : List (String × Value)) (toId groupId : Int32) :
    sender (object (fields ++ targetFields toId groupId)) = sender (object fields) :=
  find?_append_targetFields fields toId groupId (by decide) (by decide)

theorem sender_editReply (ok : Bool) (msgId : Int64) (fromId : Int32) (content : Bytes)
    (now : Int64) (toId groupId : Int32) :
    sender (editReply ok msgId fromId content now toId groupId) = some (ofInt32 fromId) := by
  rw [editReply, sender_append_targetFields, sender_object]
  simp

theorem sender_deleteReply (ok : Bool) (msgId : Int64) (fromId : Int32) (now : Int64)
    (toId groupId : Int32) :
    sender (deleteReply ok msgId fromId now toId groupId) = some (ofInt32 fromId) := by
  rw [deleteReply, sender_append_targetFields, sender_object]
  simp

theorem sender_reactionReply (ok : Bool) (msgId : Int64) (fromId : Int32) (reaction : Bytes)
    (toId groupId : Int32) :
    sender (reactionReply ok msgId fromId reaction toId groupId) = some (ofInt32 fromId) := by
  rw [reactionReply, sender_append_targetFields, sender_object]
  simp

theorem sender_messageToJson (type : MsgType) (message : StoredMessage) :
    sender (messageToJson type message) = some (ofInt32 message.from_id) := by
  rw [messageToJson, sender_object]
  split <;> split <;> split <;> simp

/-- A refused or unauthenticated change goes back to the requester. -/
theorem handsOut_answerChange {ok : Bool} {payload : Object} {toId groupId : Int32}
    (hpos : ok = true → 0 < st.userId session)
    (hsender : sender payload = some (ofInt32 (st.userId session))) :
    HandsOut env st session request F
      (answerChange env session ok payload (st.userId session) toId groupId fun _ => []) := by
  refine .of_ite (fun hok => ?_) fun _ => handsOut_answer _
  rw [deliverToConversation_eq]
  refine .of_onDb fun users => (sat_deliverToUsers fun target at_ _ _ => ?_).post fun _ _ h => h.1
  exact .signed target payload at_ (hpos hok) hsender

theorem handsOut_handleMessageDelete :
    HandsOut env st session request F (handleMessageDelete env session request) := by
  refine .of_auth <| sat_andAlso_onDb.bind fun ok => sat_of_at_fact fun hok => ?_
  exact HandsOut.of_onDb fun now => handsOut_answerChange (fun h => (hok h).1)
    (sender_deleteReply ..)

theorem handsOut_handleMessageReaction :
    HandsOut env st session request F (handleMessageReaction env session request) := by
  refine .of_auth <| sat_andAlso_onDb.bind fun ok => sat_of_at_fact fun hok => ?_
  exact handsOut_answerChange (fun h => (hok h).1) (sender_reactionReply ..)

theorem handsOut_handleMessageEdit (htype : typeField request = some .MessageEdit) :
    HandsOut env st session request (fun db => db = st.db)
      (handleMessageEdit env session request) := by
  refine .of_auth ?_
  dsimp only
  rw [andAlso_onDb]
  refine (sat_onDb_exact _ _).bind fun ok => Cmd.Sat.of_fact fun hok => ?_
  refine (sat_onDb_exact _ _).bind fun now => Cmd.Sat.of_fact fun hnow => ?_
  refine HandsOut.of_ite (fun h => ?_) fun _ => handsOut_answer _
  subst h
  have hpos : 0 < st.userId session := by
    by_contra hpos
    simp [Cmd.andAlso, hpos] at hok
  rw [deliverToConversation_eq]
  refine (sat_onDb_exact _ _).bind fun users => Cmd.Sat.of_fact fun husers => ?_
  refine (sat_deliverToUsers fun target at_ ht hat => ?_).post fun _ _ h => h.1
  refine .edited target users _ at_ htype hpos ?_ ht hat.1 ?_ (sender_editReply ..)
  · simp only [edited]
    rw [Cmd.bind_ok _ hok, Cmd.bind_ok _ hnow, if_neg (by decide), Cmd.bind_ok _ husers]
    rfl
  · simp only [edited]
    rw [Cmd.bind_ok _ hok, Cmd.bind_ok _ hnow, if_neg (by decide), Cmd.bind_ok _ husers]
    exact hat.2

/-! ### Friends -/

theorem handsOut_handleFriendRequest :
    HandsOut env st session request F (handleFriendRequest env session request) := by
  refine .of_auth <| sat_andAlso_onDb.bind fun sent => sat_of_at_fact fun hsent => ?_
  refine HandsOut.of_ite (fun _ => handsOut_answer _) fun hs => ?_
  refine (sat_deliver fun at_ _ => .answer _ at_).bind fun _ => ?_
  refine (sat_deliverToUser fun target at_ _ _ => ?_).post fun _ _ h => h.1
  refine .signed target _ at_ (hsent (by simpa using hs)).1 ?_
  rw [friendNotice, sender_object]
  simp

theorem sender_acceptReply (ok : Bool) (friendId : Int32) (friendUser : Option UserInfo) :
    sender (acceptReply ok friendId friendUser) = none := by
  unfold acceptReply
  rw [sender_object]
  cases friendUser <;> cases ok <;> simp

theorem sender_removeReply (ok rejected : Bool) (removedId : Int32) :
    sender (removeReply ok rejected removedId) = none := by
  rw [removeReply, sender_object]
  cases ok <;> cases rejected <;> simp

theorem handsOut_notice {user : Int32} {payload : Object} (h : sender payload = none) :
    HandsOut env st session request F (deliverToUser user payload fun _ => []) :=
  (sat_deliverToUser fun target at_ _ _ => .notice target payload at_ h).post fun _ _ h => h.1

theorem handsOut_handleFriendAccept :
    HandsOut env st session request F (handleFriendAccept env session request) := by
  refine .of_auth <| sat_andAlso_onDb.bind fun ok => sat_of_at_fact fun _ => ?_
  refine HandsOut.of_onDb fun fromUser => .of_onDb fun toUser => ?_
  exact (sat_deliver fun at_ _ => .answer _ at_).bind fun _ =>
    handsOut_notice (sender_acceptReply ..)

theorem handsOut_handleFriendRemove :
    HandsOut env st session request F (handleFriendRemove env session request) := by
  refine .of_auth <| .of_onDb fun changed => ?_
  exact (sat_deliver fun at_ _ => .answer _ at_).bind fun _ =>
    handsOut_notice (sender_removeReply ..)

/-! ### Login and logout -/

theorem sender_presencePayload (online : Bool) (user : UserInfo) (userId : Int32) :
    sender (presencePayload online user userId) = none := by
  rw [presencePayload, sender_object]
  simp

theorem sat_broadcastPresence {type : MsgType} {user : Int32} :
    Cmd.Sat (At ρ F) (broadcastPresence env type user) (fun _ t => t.roster = ρ) (fun _ _ => True)
      (Hands env st session request) := by
  refine (sat_onDb_any _).bind fun found => ?_
  cases found with
  | none => exact Cmd.sat_pure fun _ h => h.1
  | some found =>
    refine (sat_onDb_any _).bind fun friends => (Cmd.sat_each fun friend _ => ?_).post
      fun _ _ h => h.1
    exact sat_deliverToUser fun target at_ _ _ => .notice target _ at_ (sender_presencePayload ..)

theorem sat_handleLogout :
    Cmd.Sat (At st.roster F) (handleLogout env session)
      (fun _ t => t.roster = st.roster.logout session) (fun _ _ => True)
      (Hands env st session request) := by
  refine sat_authenticatedUserId'.bind fun uid => Cmd.Sat.of_fact fun huid => ?_
  subst huid
  have hanswer : ∀ {ρ : Roster} {F : Database → Prop} (payload : Object),
      Cmd.Sat (At ρ F) (deliver session payload) (fun _ t => t.roster = ρ) (fun _ _ => True)
        (Hands env st session request) :=
    fun payload => (sat_deliver fun t _ => .answer payload t).post fun _ _ h => h.1
  have hlogout : st.roster.logout session =
      if 0 < st.userId session then
        { st.roster with
          pool := st.roster.pool.unbindUser (st.userId session)
          presence := st.presence.setOffline (st.userId session) }
      else st.roster := rfl
  rw [hlogout]
  refine Cmd.Sat.bind (R := fun _ => At _ fun _ => True) (Cmd.sat_when (fun hpos => ?_)
    fun hpos t ht => ?_) fun _ => hanswer _
  · rw [if_pos hpos]
    refine sat_modifyPresence.bind fun _ => (sat_onDb_any _).bind fun _ =>
      (sat_modifyPool (st.roster.pool.unbindUser (st.userId session)) fun t ht => ?_).bind
        fun _ => sat_broadcastPresence.post fun _ _ h => ⟨h, trivial⟩
    rw [SessionPool.bare_unbindUser]
    exact congrArg (fun r : Roster => r.pool.unbindUser _) ht.1
  · rw [if_neg hpos]
    exact ⟨ht.1, trivial⟩

theorem sat_acceptLogin {user : UserInfo} (htype : typeField request = some .Login)
    (hpos : 0 < intField request "id" 0)
    (hadmitted : (admitted env request st.db).result = .ok (some user)) :
    Cmd.Sat (At st.roster fun db => db = (admitted env request st.db).state)
      (acceptLogin env session (intField request "id" 0) user)
      (fun _ t => t.roster = st.roster.login session (intField request "id" 0)) (fun _ _ => True)
      (Hands env st session request) := by
  have hbind : ∀ t, At st.roster (fun db => db = (admitted env request st.db).state) t →
      (t.pool.bindUser session (intField request "id" 0)).2.bare =
        (st.roster.pool.bindUser session (intField request "id" 0)).2 := fun t ht => by
    rw [SessionPool.bare_bindUser]
    exact congrArg (fun r : Roster => (r.pool.bindUser session _).2) ht.1
  refine (sat_modifyPool _ hbind).bind fun _ => sat_modifyPresence.bind fun _ => ?_
  change Cmd.Sat (At (st.roster.login session (intField request "id" 0)) _) _ _ _ _
  refine (sat_onDb_exact _ _).bind fun _ => Cmd.Sat.of_fact fun honline => ?_
  refine (Cmd.sat_asks (Q := fun presence t =>
    presence = st.presence.setOnline (intField request "id" 0) ∧
      At (st.roster.login session (intField request "id" 0)) _ t) fun t ht =>
        ⟨congrArg Roster.presence ht.1, ht⟩).bind fun presence => Cmd.Sat.of_fact fun hpresence => ?_
  subst hpresence
  refine (sat_onDb_exact _ _).bind fun users => Cmd.Sat.of_fact fun husers => ?_
  refine (sat_onDb_exact _ _).bind fun friends => Cmd.Sat.of_fact fun hfriends => ?_
  refine (sat_onDb_exact _ _).bind fun groups => Cmd.Sat.of_fact fun hgroups => ?_
  refine (sat_deliverContent_fits fun at_ _ => .answer _ at_).bind fun _ =>
    Cmd.Sat.of_fact fun hfits => ?_
  refine Cmd.Sat.bind (R := fun _ => At (st.roster.login session (intField request "id" 0))
    fun _ => True) ?_ fun _ => sat_broadcastPresence
  refine (sat_onDb_exact _ _).bind fun offline => Cmd.Sat.of_fact fun hoffline => ?_
  refine Cmd.sat_ite (fun _ => Cmd.sat_pure fun t ht => ⟨ht.1, trivial⟩) fun _ => ?_
  have hwaiting := (MessageRepository.sat_offlineForUser (P := fun _ => True) (W := fun _ => True)
    (intField request "id" 0) 100 _ trivial).2.1 offline hoffline
  refine (sat_deliverContent fun at_ hat => ?_).post fun _ t ht => ⟨ht.1, trivial⟩
  refine .offline user _ offline at_ htype hadmitted ?_ hfits hat.1 hpos hwaiting
  simp only [welcomed]
  rw [Cmd.bind_ok _ honline, Cmd.bind_ok _ husers, Cmd.bind_ok _ hfriends, Cmd.bind_ok _ hgroups,
    Cmd.bind_ok _ hoffline]
  rfl

/-- The roster after a request has been routed. -/
def rosterAfter (env : Env) (st : Server) (session : SessionId) (request : Object) : Roster :=
  match typeField request with
  | some .Login =>
    match (admitted env request st.db).result with
    | .ok (some _) => st.roster.login session (intField request "id" 0)
    | _ => st.roster
  | some .Logout => st.roster.logout session
  | _ => st.roster

theorem sat_handleLogin (htype : typeField request = some .Login) :
    Cmd.Sat (At st.roster fun db => db = st.db) (handleLogin env session request)
      (fun _ t => t.roster = rosterAfter env st session request) (fun _ _ => True)
      (Hands env st session request) := by
  have hrefused : ∀ {F : Database → Prop} (payload : Object),
      (∀ user, (admitted env request st.db).result ≠ .ok (some user)) →
      Cmd.Sat (At st.roster F) (deliver session payload)
        (fun _ t => t.roster = rosterAfter env st session request) (fun _ _ => True)
        (Hands env st session request) := by
    intro F payload hno
    have hafter : rosterAfter env st session request = st.roster := by
      simp only [rosterAfter, htype]
    rw [hafter]
    exact handsOut_answer payload
  refine Cmd.sat_ite (fun hneg => hrefused _ fun user => ?_) fun hneg => ?_
  · simp only [admitted]
    rw [if_pos hneg]
    simp
  refine (sat_onDb_exact _ _).bind fun verified => Cmd.Sat.of_fact fun hverified => ?_
  refine Cmd.sat_ite (fun hv => hrefused _ fun user => ?_) fun hv => ?_
  · simp only [admitted]
    rw [if_neg hneg, Cmd.bind_ok _ hverified, if_pos hv]
    nofun
  refine (sat_onDb_exact _ _).bind fun found => Cmd.Sat.of_fact fun hfound => ?_
  have hadmitted : (admitted env request st.db).result = .ok found := by
    simp only [admitted]
    rw [if_neg hneg, Cmd.bind_ok _ hverified, if_neg hv]
    exact hfound
  cases found with
  | none => exact hrefused _ fun user => by rw [hadmitted]; nofun
  | some user =>
    have hafter : rosterAfter env st session request =
        st.roster.login session (intField request "id" 0) := by
      simp only [rosterAfter, htype, hadmitted]
    rw [hafter]
    refine (sat_acceptLogin htype (Int32.not_le.mp hneg) hadmitted).pre fun t ht => ⟨ht.1, ?_⟩
    rw [ht.2]
    simp only [admitted]
    rw [if_neg hneg, Cmd.bind_ok _ hverified, if_neg hv]

/-! ### Dispatch -/

theorem rosterAfter_of_ne (hlogin : typeField request ≠ some .Login)
    (hlogout : typeField request ≠ some .Logout) :
    rosterAfter env st session request = st.roster := by
  unfold rosterAfter
  split
  · next h => exact absurd h hlogin
  · next h => exact absurd h hlogout
  · rfl

/-- Every request leaves the roster as `rosterAfter` says, and hands out only
what `Hands` lists. -/
theorem sat_dispatch (env : Env) (st : Server) (session : SessionId) (request : Object) :
    Cmd.Sat (At st.roster fun db => db = st.db) (dispatch env session request)
      (fun _ t => t.roster = rosterAfter env st session request) (fun _ _ => True)
      (Hands env st session request) := by
  have hkeep : ∀ c : RouterM Unit, typeField request ≠ some .Login →
      typeField request ≠ some .Logout →
      HandsOut env st session request (fun db => db = st.db) c →
      Cmd.Sat (At st.roster fun db => db = st.db) c
        (fun _ t => t.roster = rosterAfter env st session request) (fun _ _ => True)
        (Hands env st session request) := by
    intro c hlogin hlogout h
    rw [rosterAfter_of_ne hlogin hlogout]
    exact h
  unfold dispatch
  split
  case h_2 htype => exact sat_handleLogin htype
  case h_3 htype =>
    have hafter : rosterAfter env st session request = st.roster.logout session := by
      simp only [rosterAfter, htype]
    rw [hafter]
    exact sat_handleLogout
  case h_24 =>
    exact hkeep _ ‹typeField request = some .Login → False›
      ‹typeField request = some .Logout → False› (handsOut_answer _)
  all_goals rename_i htype
  all_goals refine hkeep _ (by simp [htype]) (by simp [htype]) ?_
  · exact handsOut_handleRegister
  · exact handsOut_handlePrivateMessage
  · exact handsOut_handleGroupMessage
  · exact handsOut_handleFileTransfer htype
  · exact handsOut_handleCreateGroup
  · exact handsOut_handleSearchGroup
  · exact handsOut_handleJoinGroup
  · exact handsOut_handleLeaveGroup
  · exact handsOut_handleHistory htype
  · exact handsOut_handleAIRequest htype
  · exact handsOut_handleProfileUpdate
  · exact handsOut_handleFriendRequest
  · exact handsOut_handleFriendAccept
  · exact handsOut_handleFriendRemove
  · exact handsOut_handleFriendList
  · exact handsOut_handleSystemBroadcast htype
  · exact handsOut_handleMessageEdit htype
  · exact handsOut_handleMessageDelete
  · exact handsOut_handleMessageReaction
  · exact handsOut_handleReadReceipt htype
  · exact handsOut_handleProtocolHello

/-- What routing a text hands out. -/
theorem hands_of_mem_route {json : Bytes} {d : Delivery} (hd : d ∈ (route env session json st).out) :
    (d.target = session ∧ d.carries = []) ∨
      ∃ request, parseObject env.stack json = some request ∧ Hands env st session request d := by
  obtain ⟨-, -, hroute⟩ | ⟨-, -, -, hroute⟩ | ⟨request, -, hparse, -, hroute⟩ := route_cases env session json
  · rw [hroute] at hd
    cases hd
  · rw [hroute] at hd
    left
    exact (sat_deliver (F := fun _ => True) (W := fun d => d.target = session ∧ d.carries = [])
      (fun _ _ => ⟨rfl, rfl⟩) st ⟨rfl, trivial⟩).1 d hd
  · rw [hroute] at hd
    exact .inr ⟨request, hparse, (sat_dispatch env st session request st (at_self st)).1 d hd⟩

end Handlers

end MessageRouter

end LanChat
