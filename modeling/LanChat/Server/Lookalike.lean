import LanChat.Db.Lookalike
import LanChat.Server.TcpServer

/-!
# Servers on databases that look alike

Two servers are `Alike` when their databases are, and the rest of their state is
the same. On the same events they hand out the same payloads to the same
sessions, as long as they decide every login alike.
-/

namespace LanChat

open Lib Json

/-- What goes out is the same. -/
def SameDelivery (delivery delivery' : Delivery) : Prop :=
  delivery.target = delivery'.target ∧ delivery.payload = delivery'.payload

structure Server.Alike (secret : Prop) (st st' : Server) : Prop where
  db : Database.Alike secret st.db st'.db
  pool : st.pool = st'.pool
  presence : st.presence = st'.presence
  next_id : st.next_id = st'.next_id

namespace MessageRouter

/-- The commands keep servers alike, and deliver the same. -/
abbrev AgreeOn {α β : Type} (secret : Prop) (V : α → β → Prop) (c : RouterM α) (d : RouterM β) : Prop :=
  Cmd.Agree (Server.Alike secret) SameDelivery V c d

section Parts

variable {env : Env} {secret : Prop} {α β : Type} {V : α → β → Prop} {session : SessionId}

theorem agree_onDb {c : DbM α} {d : DbM β} (h : Database.AgreeOn secret V c d) :
    AgreeOn secret V (onDb c) (onDb d) :=
  h.zoom (fun _ _ hst => hst.db) fun _ _ _ _ hst hdb => ⟨hdb, hst.pool, hst.presence, hst.next_id⟩

theorem agree_modifyPool (f : SessionPool → SessionPool) : AgreeOn secret Eq (modifyPool f) (modifyPool f) :=
  Cmd.agree_modify fun _ _ h => ⟨h.db, congrArg f h.pool, h.presence, h.next_id⟩

theorem agree_modifyPresence (f : PresenceManager → PresenceManager) :
    AgreeOn secret Eq (modifyPresence f) (modifyPresence f) :=
  Cmd.agree_modify fun _ _ h => ⟨h.db, h.pool, congrArg f h.presence, h.next_id⟩

/-- What is computed from the pool. -/
theorem agree_asksPool (f : SessionPool → α) :
    AgreeOn secret Eq (Cmd.asks fun st => f st.pool : RouterM α) (Cmd.asks fun st => f st.pool) :=
  Cmd.agree_asks fun _ _ h => congrArg f h.pool

theorem agree_presence : AgreeOn secret Eq (Cmd.asks fun st => st.presence : RouterM _) (Cmd.asks fun st => st.presence) :=
  Cmd.agree_asks fun _ _ h => h.presence

theorem agree_authenticatedUserId :
    AgreeOn secret Eq (authenticatedUserId session) (authenticatedUserId session) :=
  agree_asksPool fun pool => if (pool.object session).authenticated then pool.userId session else 0

theorem agree_deliverContent {payload payload' : Object} (h : payload = payload') (carries carries' : Server → List StoredMessage) :
    AgreeOn secret Eq (deliverContent session payload carries) (deliverContent session payload' carries') := by
  intro st st' hst
  subst h
  unfold deliverContent
  rw [← hst.pool]
  split
  · exact ⟨.cons ⟨rfl, rfl⟩ .nil, .ok ⟨rfl, hst.db, by rw [hst.pool], hst.presence, hst.next_id⟩⟩
  · exact ⟨.cons ⟨rfl, rfl⟩ .nil, .error hst⟩

theorem agree_deliver (payload : Object) : AgreeOn secret Eq (deliver session payload) (deliver session payload) :=
  agree_deliverContent rfl _ _

theorem agree_deliverIfFound (target : Option SessionId) {payload payload' : Object} (h : payload = payload')
    (carries carries' : Server → List StoredMessage) :
    AgreeOn secret Eq (deliverIfFound target payload carries) (deliverIfFound target payload' carries') := by
  cases target with
  | none => exact Cmd.agree_pure rfl
  | some target => exact agree_deliverContent h carries carries'

theorem agree_findByUserId (user : Int32) : AgreeOn secret Eq (findByUserId user) (findByUserId user) :=
  agree_asksPool fun pool => pool.findByUserId user

theorem agree_deliverToUser (user : Int32) {payload payload' : Object} (h : payload = payload')
    (carries carries' : Server → List StoredMessage) :
    AgreeOn secret Eq (deliverToUser user payload carries) (deliverToUser user payload' carries') :=
  (agree_findByUserId user).bind_eq fun target => agree_deliverIfFound target h carries carries'

theorem userToJson_same {user user' : UserInfo} (h : SameUser user user') (status : Bytes) :
    userToJson user status = userToJson user' status := by
  simp only [userToJson, h.id, h.nickname, h.avatar_id]

theorem agree_nowSeconds : AgreeOn secret Eq (nowSeconds env) (nowSeconds env) :=
  agree_onDb (Database.agree_time env)

end Parts

/-! ## Handlers -/

section Handlers

variable {env : Env} {secret : Prop} {session : SessionId} (henv : env.Serves) (request : Object)

include henv

theorem agree_deliverToConversation (payload : Object) (senderId toId groupId : Int32)
    (carries carries' : Server → List StoredMessage) :
    AgreeOn secret Eq (deliverToConversation env payload senderId toId groupId carries)
      (deliverToConversation env payload senderId toId groupId carries') := by
  refine Cmd.Agree.ite ?_ ?_
  · refine (agree_onDb (ChannelRepository.agree_members henv groupId)).bind_eq fun members => ?_
    exact Cmd.agree_each_same fun memberId => agree_deliverToUser memberId rfl _ _
  · refine (agree_deliverToUser senderId rfl _ _).bind_eq fun _ => ?_
    exact (agree_deliverToUser toId rfl _ _).when

theorem agree_handleRegister : AgreeOn secret Eq (handleRegister env session request) (handleRegister env session request) := by
  refine Cmd.Agree.ite (agree_deliver _) ?_
  refine (agree_onDb (UserRepository.agree_create henv _ _ _)).bind_eq fun created => ?_
  exact Cmd.Agree.ite (agree_deliver _) (agree_deliver _)

theorem agree_handlePrivateMessage :
    AgreeOn secret Eq (handlePrivateMessage env session request) (handlePrivateMessage env session request) := by
  refine agree_authenticatedUserId.bind_eq fun fromId => Cmd.Agree.ite (agree_deliver _) ?_
  refine (agree_findByUserId _).bind_eq fun target => ?_
  refine (agree_onDb (MessageRepository.agree_savePrivate henv _ _ _ _ _)).bind_eq fun message => ?_
  exact (agree_deliverIfFound target rfl _ _).bind_eq fun _ => agree_deliverContent rfl _ _

theorem agree_handleGroupMessage :
    AgreeOn secret Eq (handleGroupMessage env session request) (handleGroupMessage env session request) := by
  refine agree_authenticatedUserId.bind_eq fun fromId => Cmd.Agree.ite (agree_deliver _) ?_
  refine (agree_onDb (MessageRepository.agree_saveGroup henv _ _ _ _)).bind_eq fun message => ?_
  refine (agree_onDb (ChannelRepository.agree_members henv _)).bind_eq fun members => ?_
  exact Cmd.agree_each_same fun memberId => agree_deliverToUser memberId rfl _ _

theorem agree_handleFileTransfer :
    AgreeOn secret Eq (handleFileTransfer env session request) (handleFileTransfer env session request) := by
  refine agree_authenticatedUserId.bind_eq fun fromId => Cmd.Agree.ite (agree_deliver _) ?_
  exact (agree_deliverToConversation henv _ _ _ _ _ _).bind_eq fun _ => agree_deliver _

theorem agree_handleCreateGroup :
    AgreeOn secret Eq (handleCreateGroup env session request) (handleCreateGroup env session request) := by
  refine agree_authenticatedUserId.bind_eq fun hostId => Cmd.Agree.ite (agree_deliver _) ?_
  exact (agree_onDb (ChannelRepository.agree_createGroup henv _ _)).bind_eq fun group => agree_deliver _

theorem agree_handleSearchGroup :
    AgreeOn secret Eq (handleSearchGroup env session request) (handleSearchGroup env session request) :=
  (agree_onDb (ChannelRepository.agree_searchGroups henv _ _)).bind_eq fun _ => agree_deliver _

/-- A user to be shown, with its id. -/
def SameMember (member member' : Int32 × UserInfo) : Prop := member.1 = member'.1 ∧ SameUser member.2 member'.2

theorem agree_memberUsers (memberIds : List Int32) :
    Database.AgreeOn secret (List.Forall₂ SameMember) (memberUsers env memberIds) (memberUsers env memberIds) := by
  induction memberIds with
  | nil => exact Cmd.agree_pure .nil
  | cons memberId rest ih =>
    refine (UserRepository.agree_findById henv memberId).bind fun user user' huser => ih.bind fun _ _ hrest => ?_
    cases huser with
    | none => exact Cmd.agree_pure hrest
    | some huser => exact Cmd.agree_pure (.cons ⟨rfl, huser⟩ hrest)

theorem agree_handleJoinGroup :
    AgreeOn secret Eq (handleJoinGroup env session request) (handleJoinGroup env session request) := by
  refine agree_authenticatedUserId.bind_eq fun userId => ?_
  refine (agree_onDb (ChannelRepository.agree_join henv _ _)).bind_eq fun joined => ?_
  refine Cmd.Agree.ite (agree_deliver _) ?_
  refine (agree_onDb (ChannelRepository.agree_members henv _)).bind_eq fun memberIds => ?_
  refine (agree_onDb (agree_memberUsers henv memberIds)).bind fun members members' hmembers => ?_
  refine agree_presence.bind_eq fun presence => agree_deliverContent ?_ _ _
  have hshown : (members.map fun m => Value.obj (userToJson m.2 (presence.status m.1))) =
      members'.map fun m => .obj (userToJson m.2 (presence.status m.1)) := by
    rw [← List.forall₂_eq_eq_eq (α := Value)]
    exact List.rel_map (fun m m' hm => by rw [hm.1, userToJson_same hm.2]) hmembers
  simp only [joinedReply, hshown]

theorem agree_handleLeaveGroup :
    AgreeOn secret Eq (handleLeaveGroup env session request) (handleLeaveGroup env session request) := by
  refine agree_authenticatedUserId.bind_eq fun userId => ?_
  exact (agree_onDb (ChannelRepository.agree_leave henv _ _)).bind_eq fun left => agree_deliver _

theorem agree_requestedHistory (userId : Int32) :
    Database.AgreeOn secret Eq (requestedHistory env userId request) (requestedHistory env userId request) := by
  have hread : Database.AgreeOn secret Eq
      (MessageRepository.markRead env (int64Field request "msg_id" 0) 0 >>= fun _ => pure ())
      (MessageRepository.markRead env (int64Field request "msg_id" 0) 0 >>= fun _ => pure ()) :=
    (MessageRepository.agree_markRead henv _ _).bind_eq fun _ => Cmd.agree_pure rfl
  refine hread.when.bind_eq fun _ => ?_
  refine Cmd.Agree.ite (MessageRepository.agree_select henv _ _) ?_
  exact Cmd.Agree.ite (MessageRepository.agree_select henv _ _) (Cmd.agree_pure rfl)

theorem agree_handleHistory : AgreeOn secret Eq (handleHistory env session request) (handleHistory env session request) := by
  refine agree_authenticatedUserId.bind_eq fun userId => ?_
  exact (agree_onDb (agree_requestedHistory henv request userId)).bind_eq fun history =>
    agree_deliverContent rfl _ _

theorem agree_answerChange (ok : Bool) (payload : Object) (fromId toId groupId : Int32)
    (carries : Server → List StoredMessage) :
    AgreeOn secret Eq (answerChange env session ok payload fromId toId groupId carries)
      (answerChange env session ok payload fromId toId groupId carries) :=
  (agree_deliverToConversation henv _ _ _ _ _ _).ite (agree_deliver _)

theorem agree_handleMessageEdit :
    AgreeOn secret Eq (handleMessageEdit env session request) (handleMessageEdit env session request) := by
  refine agree_authenticatedUserId.bind_eq fun fromId => ?_
  refine (agree_onDb (MessageRepository.agree_edit henv _ _ _)).andAlso.bind_eq fun ok => ?_
  exact agree_nowSeconds.bind_eq fun now => agree_answerChange henv ok _ _ _ _ _

theorem agree_handleMessageDelete :
    AgreeOn secret Eq (handleMessageDelete env session request) (handleMessageDelete env session request) := by
  refine agree_authenticatedUserId.bind_eq fun fromId => ?_
  refine (agree_onDb (MessageRepository.agree_softDelete henv _ _)).andAlso.bind_eq fun ok => ?_
  exact agree_nowSeconds.bind_eq fun now => agree_answerChange henv ok _ _ _ _ _

theorem agree_handleMessageReaction :
    AgreeOn secret Eq (handleMessageReaction env session request) (handleMessageReaction env session request) := by
  refine agree_authenticatedUserId.bind_eq fun fromId => ?_
  refine (agree_onDb (MessageRepository.agree_addReaction henv _ _ _)).andAlso.bind_eq fun ok => ?_
  exact agree_answerChange henv ok _ _ _ _ _

theorem agree_handleReadReceipt :
    AgreeOn secret Eq (handleReadReceipt env session request) (handleReadReceipt env session request) := by
  refine agree_authenticatedUserId.bind_eq fun fromId => ?_
  refine (agree_onDb (MessageRepository.agree_markRead henv _ _)).andAlso.bind_eq fun marked => ?_
  refine Cmd.Agree.ite (agree_deliver _) ?_
  exact agree_nowSeconds.bind_eq fun now => agree_deliverToConversation henv _ _ _ _ _ _

omit henv in
theorem agree_orNone {α : Type} {c : DbM α} (h : Database.AgreeOn secret Eq c c) :
    Database.AgreeOn secret Eq (orNone c) (orNone c) := by
  intro db db' hdb
  obtain ⟨-, hends⟩ := h db db' hdb
  unfold orNone
  generalize (c db).result = r at hends
  generalize (c db').result = r' at hends
  cases hends with
  | ok hab => exact ⟨.nil, .ok ⟨congrArg some hab.1, hab.2⟩⟩
  | error hdb => exact ⟨.nil, .ok ⟨rfl, hdb⟩⟩

theorem agree_summaryHistory (userId : Int32) (query : Bytes) :
    Database.AgreeOn secret Eq (summaryHistory env userId query) (summaryHistory env userId query) := by
  unfold summaryHistory
  split
  · exact agree_orNone (MessageRepository.agree_select henv _ _)
  · exact agree_orNone (MessageRepository.agree_select henv _ _)
  · exact Cmd.agree_pure rfl
  · exact Cmd.agree_pure rfl

theorem agree_handleSummarize (requestId query : Bytes) :
    AgreeOn secret Eq (handleSummarize env session requestId query) (handleSummarize env session requestId query) := by
  refine agree_authenticatedUserId.bind_eq fun userId => ?_
  refine (agree_onDb (agree_summaryHistory henv userId query)).bind_eq fun history => ?_
  cases history with
  | none => exact agree_deliver _
  | some history =>
    refine (agree_deliver _).bind_eq fun _ => ?_
    exact Cmd.agree_each_same fun chunkIndex => agree_deliverContent rfl _ _

theorem agree_handleAIRequest :
    AgreeOn secret Eq (handleAIRequest env session request) (handleAIRequest env session request) := by
  refine Cmd.Agree.ite (agree_handleSummarize henv _ _) (Cmd.Agree.ite (agree_deliver _) ?_)
  refine (agree_onDb (MessageRepository.agree_search henv _ _)).bind_eq fun messages => ?_
  exact agree_deliverContent rfl _ _

theorem agree_handleFriendAccept :
    AgreeOn secret Eq (handleFriendAccept env session request) (handleFriendAccept env session request) := by
  have hreply : ∀ {user user' : Option UserInfo}, Option.Rel SameUser user user' → ∀ (ok : Bool) (friendId : Int32),
      acceptReply ok friendId user = acceptReply ok friendId user' := by
    intro user user' h ok friendId
    cases h with
    | none => rfl
    | some h => simp only [acceptReply, h.nickname, h.avatar_id]
  refine agree_authenticatedUserId.bind_eq fun toId => ?_
  refine (agree_onDb (FriendRepository.agree_setStatus henv _ _ _)).andAlso.bind_eq fun ok => ?_
  refine (agree_onDb (UserRepository.agree_findById henv _)).bind fun fromUser fromUser' hfrom => ?_
  refine (agree_onDb (UserRepository.agree_findById henv _)).bind fun toUser toUser' hto => ?_
  refine (agree_deliverContent (hreply hfrom _ _) _ _).bind_eq fun _ => ?_
  exact agree_deliverToUser _ (hreply hto _ _) _ _

theorem agree_rejectOrRemove (uid fromId toId : Int32) :
    Database.AgreeOn secret Eq (rejectOrRemove env uid fromId toId) (rejectOrRemove env uid fromId toId) := by
  refine Cmd.Agree.ite (Cmd.agree_pure rfl) ?_
  refine (FriendRepository.agree_setStatus henv _ _ _).andAlso.bind_eq fun rejected => ?_
  refine Cmd.Agree.ite (Cmd.agree_pure rfl) ?_
  exact (FriendRepository.agree_removeFriendship henv _ _).bind_eq fun removed => Cmd.agree_pure rfl

theorem agree_handleFriendRemove :
    AgreeOn secret Eq (handleFriendRemove env session request) (handleFriendRemove env session request) := by
  refine agree_authenticatedUserId.bind_eq fun uid => ?_
  refine (agree_onDb (agree_rejectOrRemove henv _ _ _)).bind_eq fun outcome => ?_
  exact (agree_deliver _).bind_eq fun _ => agree_deliverToUser _ rfl _ _

theorem agree_handleSystemBroadcast :
    AgreeOn secret Eq (handleSystemBroadcast env session request) (handleSystemBroadcast env session request) := by
  refine Cmd.Agree.ite (agree_deliver _) ?_
  refine agree_authenticatedUserId.bind_eq fun fromId => Cmd.Agree.ite (agree_deliver _) ?_
  refine Cmd.Agree.ite (agree_deliverToUser _ rfl _ _) (Cmd.Agree.ite ?_ (Cmd.agree_pure rfl))
  refine (agree_onDb (ChannelRepository.agree_members henv _)).bind_eq fun members => ?_
  exact Cmd.agree_each_same fun memberId => agree_deliverToUser memberId rfl _ _

theorem agree_handleProfileUpdate :
    AgreeOn secret Eq (handleProfileUpdate env session request) (handleProfileUpdate env session request) := by
  refine agree_authenticatedUserId.bind_eq fun userId => Cmd.Agree.ite (agree_deliver _) ?_
  refine (agree_onDb (UserRepository.agree_updateProfile henv _ _ _)).bind_eq fun found => ?_
  exact Cmd.Agree.ite (agree_deliver _) (agree_deliver _)

theorem agree_deliverOffline (userId : Int32) :
    AgreeOn secret Eq (deliverOffline env session userId) (deliverOffline env session userId) := by
  refine (agree_onDb (MessageRepository.agree_offlineForUser henv _ _)).bind_eq fun offline => ?_
  exact Cmd.Agree.ite (Cmd.agree_pure rfl) (agree_deliverContent rfl _ _)

/-! ### Friends and presence -/

variable (hscan : env.ScansSteadily)

include hscan

theorem agree_broadcastPresence (type : MsgType) (userId : Int32) :
    AgreeOn secret Eq (broadcastPresence env type userId) (broadcastPresence env type userId) := by
  refine (agree_onDb (UserRepository.agree_findById henv userId)).bind fun user user' huser => ?_
  cases huser with
  | none => exact Cmd.agree_pure rfl
  | @some user user' huser =>
    have hpayload : ∀ online, presencePayload online user userId = presencePayload online user' userId := fun online => by
      simp only [presencePayload, huser.nickname, huser.avatar_id]
    exact (agree_onDb (FriendRepository.agree_getFriends henv hscan userId)).bind fun _ _ hfriends =>
      Cmd.agree_each hfriends fun friend friend' hfriend => by
        rw [hfriend.id]
        exact agree_deliverToUser _ (hpayload _) _ _

theorem agree_handleFriendRequest :
    AgreeOn secret Eq (handleFriendRequest env session request) (handleFriendRequest env session request) := by
  refine agree_authenticatedUserId.bind_eq fun fromId => ?_
  refine (agree_onDb (FriendRepository.agree_sendRequest henv hscan _ _ _)).andAlso.bind_eq fun sent => ?_
  refine Cmd.Agree.ite (agree_deliver _) ?_
  exact (agree_deliver _).bind_eq fun _ => agree_deliverToUser _ rfl _ _

omit henv hscan in
theorem usersToJson_same {users users' : List UserInfo} (h : List.Forall₂ SameUser users users') (presence : PresenceManager) :
    (users.map fun u => Value.obj (userToJson u (presence.status u.id))) =
      users'.map fun u => .obj (userToJson u (presence.status u.id)) := by
  rw [← List.forall₂_eq_eq_eq (α := Value)]
  exact List.rel_map (fun user user' huser => by rw [huser.id, userToJson_same huser]) h

theorem agree_handleFriendList : AgreeOn secret Eq (handleFriendList env session) (handleFriendList env session) := by
  refine agree_authenticatedUserId.bind_eq fun uid => ?_
  refine (agree_onDb (FriendRepository.agree_getFriends henv hscan uid)).bind fun friends friends' hfriends => ?_
  refine agree_presence.bind_eq fun presence => agree_deliverContent ?_ _ _
  simp only [friendListReply, friendToJson, usersToJson_same hfriends presence]

theorem agree_handleLogout : AgreeOn secret Eq (handleLogout env session) (handleLogout env session) := by
  refine agree_authenticatedUserId.bind_eq fun uid => ?_
  refine Cmd.Agree.bind_eq (Cmd.Agree.when ?_) fun _ => agree_deliver _
  refine (agree_modifyPresence _).bind_eq fun _ => ?_
  refine (agree_onDb (UserRepository.agree_setOnlineStatus henv _ _)).bind_eq fun _ => ?_
  exact (agree_modifyPool _).bind_eq fun _ => agree_broadcastPresence henv hscan _ _

theorem agree_acceptLogin (uid : Int32) {user user' : UserInfo} (huser : SameUser user user') :
    AgreeOn secret Eq (acceptLogin env session uid user) (acceptLogin env session uid user') := by
  refine (agree_modifyPool _).bind_eq fun _ => (agree_modifyPresence _).bind_eq fun _ => ?_
  refine (agree_onDb (UserRepository.agree_setOnlineStatus henv _ _)).bind_eq fun _ => ?_
  refine agree_presence.bind_eq fun presence => ?_
  refine (agree_onDb (UserRepository.agree_getAllUsers henv)).bind fun users users' husers => ?_
  refine (agree_onDb (FriendRepository.agree_getFriends henv hscan uid)).bind fun friends friends' hfriends => ?_
  refine (agree_onDb (ChannelRepository.agree_groupsForUser henv uid)).bind_eq fun groups => ?_
  have hreply : loginReply user uid (friends.map fun u => .obj (friendToJson u (presence.status u.id)))
      (users.map fun u => .obj (userToJson u (presence.status u.id))) (groups.map fun g => .obj (groupToJson g)) =
      loginReply user' uid (friends'.map fun u => .obj (friendToJson u (presence.status u.id)))
        (users'.map fun u => .obj (userToJson u (presence.status u.id))) (groups.map fun g => .obj (groupToJson g)) := by
    simp only [loginReply, friendToJson, huser.nickname, huser.avatar_id, usersToJson_same hfriends presence,
      usersToJson_same husers presence]
  refine (agree_deliverContent hreply _ _).bind_eq fun _ => ?_
  exact (agree_deliverOffline henv uid).bind_eq fun _ => agree_broadcastPresence henv hscan _ _

end Handlers

/-! ## Logging in -/

/-- If the request is a login, its password is checked with the same result. -/
def DecidedAlike (env : Env) (request : Object) (db db' : Database) : Prop :=
  let check := UserRepository.verifyPassword env (intField request "id" 0) (stringField request "password" [])
  typeField request = some .Login → (check db).result = (check db').result

instance (env : Env) (request : Object) (db db' : Database) : Decidable (DecidedAlike env request db db') :=
  inferInstanceAs (Decidable (_ → _))

section Dispatch

variable {env : Env} {secret : Prop} {session : SessionId} {request : Object} (henv : env.Serves)
  (hscan : env.ScansSteadily)

include henv hscan

/-- Of the two verdicts on the password, only whether they agree matters. -/
theorem similar_handleLogin (hlogin : typeField request = some .Login) :
    Cmd.Similar (fun st st' => Server.Alike secret st st' ∧ (secret → DecidedAlike env request st.db st'.db))
      (handleLogin env session request) (handleLogin env session request)
      (fun _ _ => Server.Alike secret) (Server.Alike secret) SameDelivery := by
  have hlast : ∀ {c d : RouterM Unit}, AgreeOn secret Eq c d →
      Cmd.Similar (Server.Alike secret) c d (fun _ _ => Server.Alike secret) (Server.Alike secret) SameDelivery :=
    fun h => Cmd.Similar.weaken h (fun _ _ h => h) (fun _ _ _ _ h => h.2) fun _ _ h => h
  refine Cmd.Similar.ite ((hlast (agree_deliver _)).weaken (fun _ _ h => h.1) (fun _ _ _ _ h => h) fun _ _ h => h) ?_
  refine Cmd.Similar.bind (M := fun a b st st' => a = b ∧ Server.Alike secret st st')
    ((UserRepository.similar_verifyPassword henv _ _).zoom (fun st st' h => ⟨h.1.db, fun hsecret => h.2 hsecret hlogin⟩)
      (fun st st' a b _ _ h hdb => ⟨hdb.1, hdb.2, h.1.pool, h.1.presence, h.1.next_id⟩)
      fun st st' _ _ h hdb => ⟨hdb, h.1.pool, h.1.presence, h.1.next_id⟩) fun verified _ => Cmd.Similar.of_fact ?_
  rintro rfl
  refine hlast <| (agree_deliver _).ite <| (agree_onDb (UserRepository.agree_findById henv _)).bind
    fun user user' huser => ?_
  cases huser with
  | none => exact agree_deliver _
  | some huser => exact agree_acceptLogin henv hscan _ huser

theorem similar_dispatch :
    Cmd.Similar (fun st st' => Server.Alike secret st st' ∧ (secret → DecidedAlike env request st.db st'.db))
      (dispatch env session request) (dispatch env session request)
      (fun _ _ => Server.Alike secret) (Server.Alike secret) SameDelivery := by
  have hweaken : AgreeOn secret Eq (dispatch env session request) (dispatch env session request) →
      Cmd.Similar (fun st st' => Server.Alike secret st st' ∧ (secret → DecidedAlike env request st.db st'.db))
        (dispatch env session request) (dispatch env session request)
        (fun _ _ => Server.Alike secret) (Server.Alike secret) SameDelivery := fun hagree =>
    Cmd.Similar.weaken hagree (fun _ _ h => h.1) (fun _ _ _ _ h => h.2) fun _ _ h => h
  have hunknown : AgreeOn secret Eq (deliver session (okReply .SystemBroadcast "server-next v1.2.0 routed frame"))
      (deliver session (okReply .SystemBroadcast "server-next v1.2.0 routed frame")) := agree_deliver _
  unfold dispatch at hweaken ⊢
  cases htype : typeField request with
  | none => simpa only [htype] using hweaken (by rw [htype]; exact hunknown)
  | some type =>
    rw [htype] at hweaken
    cases type with
    | Login => exact similar_handleLogin henv hscan htype
    | RegisterUser => exact hweaken (agree_handleRegister henv request)
    | Logout => exact hweaken (agree_handleLogout henv hscan)
    | SendMsg => exact hweaken (agree_handlePrivateMessage henv request)
    | SendGroupMsg => exact hweaken (agree_handleGroupMessage henv request)
    | SendFile => exact hweaken (agree_handleFileTransfer henv request)
    | CreateGroup => exact hweaken (agree_handleCreateGroup henv request)
    | SearchGroup => exact hweaken (agree_handleSearchGroup henv request)
    | JoinGroup => exact hweaken (agree_handleJoinGroup henv request)
    | LeaveGroup => exact hweaken (agree_handleLeaveGroup henv request)
    | RequestHistory => exact hweaken (agree_handleHistory henv request)
    | AIRequest => exact hweaken (agree_handleAIRequest henv request)
    | UserProfileUpdate => exact hweaken (agree_handleProfileUpdate henv request)
    | FriendRequest => exact hweaken (agree_handleFriendRequest henv request hscan)
    | FriendAccept => exact hweaken (agree_handleFriendAccept henv request)
    | FriendRemove => exact hweaken (agree_handleFriendRemove henv request)
    | FriendList => exact hweaken (agree_handleFriendList henv hscan)
    | SystemBroadcast => exact hweaken (agree_handleSystemBroadcast henv request)
    | MessageEdit => exact hweaken (agree_handleMessageEdit henv request)
    | MessageDelete => exact hweaken (agree_handleMessageDelete henv request)
    | MessageReaction => exact hweaken (agree_handleMessageReaction henv request)
    | ReadReceipt => exact hweaken (agree_handleReadReceipt henv request)
    | ProtocolHello => exact hweaken (agree_deliver _)
    | _ => exact hweaken hunknown

end Dispatch

end MessageRouter

namespace TcpServer

open MessageRouter

section Events

variable {env : Env} {secret : Prop} {session : SessionId} (henv : env.Serves)

theorem agree_modifySession (f : AsyncSession → AsyncSession) :
    AgreeOn secret Eq (modifySession session f) (modifySession session f) :=
  agree_modifyPool _

include henv

theorem agree_removeSession : AgreeOn secret Eq (removeSession env session) (removeSession env session) := by
  refine (agree_asksPool fun pool => if session ∈ pool.sessions then pool.userId session else 0).bind_eq fun userId =>
    (agree_modifyPool _).bind_eq fun _ => Cmd.Agree.ite ?_ (Cmd.agree_pure rfl)
  refine (agree_modifyPresence _).bind_eq fun _ => (agree_onDb (UserRepository.agree_setOnlineStatus henv _ _)).bind_eq
    fun _ => (agree_onDb (UserRepository.agree_findById henv userId)).bind fun user user' huser => ?_
  cases huser with
  | none => exact Cmd.agree_pure rfl
  | some huser =>
    exact (agree_asksPool fun pool => pool.all env).bind_eq fun _ => Cmd.agree_each_same fun _ =>
      agree_deliverContent (by simp only [offlinePayload, huser.nickname]) _ _

theorem agree_sweepHeartbeatTimeouts (now : Int) :
    AgreeOn secret Eq (sweepHeartbeatTimeouts env now) (sweepHeartbeatTimeouts env now) :=
  (agree_asksPool fun pool => pool.timedOut env now).bind_eq fun _ => Cmd.agree_each_same fun _ =>
    agree_removeSession henv

omit henv in
theorem agree_accept (now : Int) : AgreeOn secret Eq (accept now) (accept now) :=
  (Cmd.agree_asks fun _ _ h => h.next_id).bind_eq fun session =>
    (Cmd.agree_modify fun _ _ h => ⟨h.db, h.pool, h.presence, congrArg (· + 1) h.next_id⟩).bind_eq fun _ =>
      (agree_modifySession _).bind_eq fun _ => (agree_asksPool fun pool => (pool.add session).1).bind_eq fun _ =>
        (agree_modifyPool _).bind_eq fun _ => (agree_modifySession _).ite (Cmd.agree_pure rfl)

/-- With `secret`, a frame that is a login is decided alike. -/
def FrameDecidedAlike (secret : Prop) (env : Env) (json : Bytes) (db db' : Database) : Prop :=
  secret → ∀ request ∈ readObject json, DecidedAlike env request db db'

/-! ### Frames

Until a frame is dispatched, only the pool changes. -/

section Frames

variable {C : Database → Database → Prop} {α : Type}

omit henv in
theorem similar_asksPool (f : SessionPool → α) : Cmd.Similar (fun st st' => Server.Alike secret st st' ∧ C st.db st'.db)
    (Cmd.asks fun st => f st.pool : RouterM α) (Cmd.asks fun st => f st.pool)
    (fun a b st st' => a = b ∧ Server.Alike secret st st' ∧ C st.db st'.db) (Server.Alike secret) SameDelivery :=
  fun _ _ h => ⟨.nil, .ok ⟨congrArg f h.1.pool, h⟩⟩

omit henv in
theorem similar_modifySession (f : AsyncSession → AsyncSession) :
    Cmd.Similar (fun st st' => Server.Alike secret st st' ∧ C st.db st'.db)
      (modifySession session f) (modifySession session f)
      (fun a b st st' => a = b ∧ Server.Alike secret st st' ∧ C st.db st'.db) (Server.Alike secret) SameDelivery :=
  fun _ _ h => ⟨.nil, .ok ⟨rfl, ⟨h.1.db,
    congrArg (fun pool => pool.setObject session (f (pool.object session))) h.1.pool, h.1.presence, h.1.next_id⟩, h.2⟩⟩

omit henv in
theorem similar_of_agree {c d : RouterM Unit} (h : AgreeOn secret Eq c d) :
    Cmd.Similar (fun st st' => Server.Alike secret st st' ∧ C st.db st'.db) c d (fun _ _ => Server.Alike secret)
      (Server.Alike secret) SameDelivery :=
  Cmd.Similar.weaken h (fun _ _ h => h.1) (fun _ _ _ _ h => h.2) fun _ _ h => h

variable (hscan : env.ScansSteadily)

include hscan

theorem similar_route (json : Bytes) :
    Cmd.Similar (fun st st' => Server.Alike secret st st' ∧ FrameDecidedAlike secret env json st.db st'.db)
      (route env session json) (route env session json) (fun _ _ => Server.Alike secret) (Server.Alike secret)
      SameDelivery := by
  obtain ⟨-, -, hroute⟩ | ⟨-, -, -, hroute⟩ | ⟨request, -, -, hrequest, hroute⟩ := route_cases env session json
  · rw [hroute]
    exact similar_of_agree (Cmd.agree_throw _)
  · rw [hroute]
    exact similar_of_agree (agree_deliver _)
  · rw [hroute]
    exact (similar_dispatch henv hscan).weaken (fun _ _ h => ⟨h.1, fun hsecret => h.2 hsecret request hrequest⟩)
      (fun _ _ _ _ h => h) fun _ _ h => h

theorem similar_onMessage (json : Bytes) (now later : Int) :
    Cmd.Similar (fun st st' => Server.Alike secret st st' ∧ FrameDecidedAlike secret env json st.db st'.db)
      (onMessage env session json now later) (onMessage env session json now later)
      (fun _ _ => Server.Alike secret) (Server.Alike secret) SameDelivery := by
  refine (similar_asksPool fun pool => ((pool.object session).consumeRateLimitToken now).1).bind fun granted granted' =>
    Cmd.Similar.of_fact ?_
  rintro rfl
  refine (similar_modifySession _).bind fun _ _ => Cmd.Similar.of_fact fun _ => ?_
  refine (similar_of_agree (agree_removeSession henv)).ite <| Cmd.Similar.ite ?_ (similar_route henv hscan json)
  exact similar_of_agree ((agree_modifySession _).bind_eq fun _ => agree_deliver _)

end Frames

/-- A login is decided alike. -/
def EventDecidedAlike (env : Env) (st st' : Server) : Event → Prop
  | .frame _ json _ _ => ∀ request ∈ readObject json, DecidedAlike env request st.db st'.db
  | _ => True

instance (env : Env) (st st' : Server) : ∀ event, Decidable (EventDecidedAlike env st st' event)
  | .frame _ json _ _ => inferInstanceAs (Decidable (∀ request ∈ readObject json, _))
  | .accept _ | .readError _ | .sweep _ => .isTrue trivial

variable (hscan : env.ScansSteadily) {st st' : Server} {event : Event}

include hscan

theorem similar_handle (h : Server.Alike secret st st') (hdecided : secret → EventDecidedAlike env st st' event) :
    List.Forall₂ SameDelivery (handle env event st).out (handle env event st').out ∧
      Ends (fun _ _ => Server.Alike secret (handle env event st).state (handle env event st').state)
        (Server.Alike secret (handle env event st).state (handle env event st').state)
        (handle env event st).result (handle env event st').result := by
  have hagree : ∀ {c : RouterM Unit}, AgreeOn secret Eq c c → List.Forall₂ SameDelivery (c st).out (c st').out ∧
      Ends (fun _ _ => Server.Alike secret (c st).state (c st').state) (Server.Alike secret (c st).state (c st').state)
        (c st).result (c st').result := fun hc =>
    (similar_of_agree (C := fun _ _ => True) hc) st st' ⟨h, trivial⟩
  cases event with
  | accept now => exact hagree (agree_accept now)
  | frame session json now later =>
    refine Cmd.Similar.bind (similar_asksPool (C := FrameDecidedAlike secret env json)
      fun pool => (pool.object session).reading) (fun reading _ => Cmd.Similar.of_fact ?_) st st' ⟨h, hdecided⟩
    rintro rfl
    exact (similar_onMessage henv hscan json now later).ite (similar_of_agree (Cmd.agree_pure rfl))
  | readError session =>
    exact hagree <| (agree_asksPool fun pool => (pool.object session).reading).bind_eq fun _ =>
      Cmd.Agree.ite ((agree_modifySession _).bind_eq fun _ => agree_removeSession henv) (Cmd.agree_pure rfl)
  | sweep now => exact hagree (agree_sweepHeartbeatTimeouts henv now)

/-- One step of two servers that are alike. -/
theorem similar_step (h : Server.Alike secret st st') (hdecided : secret → EventDecidedAlike env st st' event) :
    List.Forall₂ SameDelivery (handle env event st).out (handle env event st').out ∧
      Option.Rel (Server.Alike secret) (step env st event) (step env st' event) := by
  obtain ⟨hout, hends⟩ := similar_handle henv hscan h hdecided
  refine ⟨hout, ?_⟩
  unfold step
  generalize (handle env event st).result = r at hends
  generalize (handle env event st').result = r' at hends
  cases hends with
  | ok hst => exact .some hst
  | error _ => exact .none

end Events

/-! ## Runs -/

/-- What the server hands to its sessions while it handles the events. -/
def handedOut (env : Env) (st : Server) (events : List Event) : List (SessionId × Object) :=
  (outputs (fun st event => (handle env event st).out) (step env) st events).map fun delivery =>
    (delivery.target, delivery.payload)

theorem twin_servers {env : Env} {secret : Prop} (henv : env.Serves) (hscan : env.ScansSteadily) {st st' : Server}
    (h : Server.Alike secret st st') {events : List Event} (hlogins : AlongBoth (step env) (step env)
      (fun st st' event => secret → EventDecidedAlike env st st' event) st st' events) :
    handedOut env st events = handedOut env st' events ∧
      Option.Rel (Server.Alike secret) (run (step env) st events) (run (step env) st' events) := by
  have hstep : ∀ st st' event, Server.Alike secret st st' → (secret → EventDecidedAlike env st st' event) →
      List.Forall₂ SameDelivery (handle env event st).out (handle env event st').out ∧
        Option.Rel (Server.Alike secret) (step env st event) (step env st' event) :=
    fun _ _ _ => similar_step henv hscan
  obtain ⟨hout, hrun⟩ := twin_run hstep h hlogins
  refine ⟨?_, hrun⟩
  unfold handedOut
  rw [← List.forall₂_eq_eq_eq (α := SessionId × Object)]
  exact List.rel_map (fun _ _ hsame => Prod.ext hsame.1 hsame.2) hout

end TcpServer

end LanChat
