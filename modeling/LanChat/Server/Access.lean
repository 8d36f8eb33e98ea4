import LanChat.Db.Access
import LanChat.Server.Roster
import LanChat.Server.TcpServer

/-!
# What the server does with the database

An invariant of the database that the operations of the repositories keep is
kept by every handler of the router (`guards_dispatch`), by every event of the
server, and so in every run (`invariant_of_reachable`). The handlers that write
for an unauthenticated session are named in `guards_dispatch`.
-/

namespace LanChat

open Lib Json

namespace MessageRouter

open Database

/-- The command keeps `I` of the database, also where it hands a payload over.
What it throws comes from no database access, or leaves `E`. -/
def Guards {α : Type} (I E : Database → Prop) (c : RouterM α) : Prop :=
  Cmd.Sat (fun st => I st.db) c (fun _ st => I st.db)
    (fun e st => E st.db ∨ e.OutsideDb ∧ I st.db) fun d => I d.at_.db

/-- The same from a state in which the session carries the user. -/
def GuardsAs {α : Type} (I E : Database → Prop) (session : SessionId) (uid : Int32) (c : RouterM α) :
    Prop :=
  Cmd.Sat (fun st => st.userId session = uid ∧ I st.db) c (fun _ st => I st.db)
    (fun e st => E st.db ∨ e.OutsideDb ∧ I st.db) fun d => I d.at_.db

section Guards

variable {α β : Type} {env : Env} {R : TableName → Row → Prop} {I E : Database → Prop}
  {session : SessionId} {uid : Int32} {request : Object}

theorem guards_pure (a : α) : Guards I E (pure a : RouterM α) := Cmd.sat_pure fun _ h => h

theorem guards_asks (f : Server → α) : Guards I E (Cmd.asks f : RouterM α) :=
  Cmd.sat_asks fun _ h => h

theorem guards_modifyPool (f : SessionPool → SessionPool) : Guards I E (modifyPool f) :=
  Cmd.sat_modify fun _ h => h

theorem guards_modifyPresence (f : PresenceManager → PresenceManager) :
    Guards I E (modifyPresence f) :=
  Cmd.sat_modify fun _ h => h

theorem Guards.bind {c : RouterM α} {f : α → RouterM β} (hc : Guards I E c)
    (hf : ∀ a, Guards I E (f a)) : Guards I E (c >>= f) :=
  Cmd.Sat.bind hc hf

theorem Guards.ite {b : Prop} [Decidable b] {c d : RouterM α} (hc : b → Guards I E c)
    (hd : ¬b → Guards I E d) : Guards I E (if b then c else d) :=
  Cmd.sat_ite hc hd

theorem Guards.when {b : Prop} [Decidable b] {c : RouterM Unit} (hc : b → Guards I E c) :
    Guards I E (Cmd.when b c) :=
  Guards.ite hc fun _ => guards_pure ()

theorem guards_each {xs : List β} {body : β → RouterM Unit} (h : ∀ x, Guards I E (body x)) :
    Guards I E (Cmd.each xs body) :=
  Cmd.sat_each fun x _ => h x

theorem guards_onDb {c : DbM α} (h : Guarded I E c) : Guards I E (onDb c) := by
  refine Cmd.sat_zoom fun st hst db hdb => ?_
  subst hdb
  obtain ⟨-, hok, herr⟩ := h st.db hst
  exact ⟨fun w => w.elim, hok, fun e he => .inl (herr e he)⟩

/-- The router goes on from what a call of the repositories leaves. -/
theorem run_onDb {c : DbM α} {st : Server} {a : α} (h : (c st.db).result = .ok a) :
    onDb c st = ⟨.ok a, { st with db := (c st.db).state }, []⟩ := by
  rw [← h]
  rfl

theorem guards_andAlso {b : Prop} [Decidable b] {c : DbM Bool} (h : b → Guarded I E c) :
    Guards I E (Cmd.andAlso b (onDb c)) :=
  Cmd.sat_ite (fun hb => guards_onDb (h hb)) fun _ => guards_pure false

theorem guards_deliverContent (session : SessionId) (payload : Object)
    (carries : Server → List StoredMessage) : Guards I E (deliverContent session payload carries) := by
  intro st hst
  simp only [deliverContent]
  split
  · exact ⟨by simpa using hst, fun _ _ => hst, fun _ h => by cases h⟩
  · next e he =>
    refine ⟨by simpa using hst, (fun _ h => by cases h), fun e' he' => .inr ⟨?_, hst⟩⟩
    cases he'
    exact .inl (AsyncSession.deliver_throws he)

theorem guards_deliver (session : SessionId) (payload : Object) : Guards I E (deliver session payload) :=
  guards_deliverContent session payload _

theorem guards_deliverIfFound (target : Option SessionId) (payload : Object)
    (carries : Server → List StoredMessage) : Guards I E (deliverIfFound target payload carries) := by
  cases target with
  | none => exact guards_pure ()
  | some target => exact guards_deliverContent target payload carries

theorem guards_deliverToUser (user : Int32) (payload : Object)
    (carries : Server → List StoredMessage) : Guards I E (deliverToUser user payload carries) :=
  (guards_asks _).bind fun _ => guards_deliverIfFound _ payload carries

/-- The handler goes on with the user of the session. -/
theorem GuardsAs.auth {f : Int32 → RouterM β} (h : Guards I E (f uid)) :
    GuardsAs I E session uid (authenticatedUserId session >>= f) := by
  rintro st ⟨rfl, hst⟩
  rw [Cmd.bind_of_run _ (run_authenticatedUserId st session)]
  exact h st hst

theorem Guards.as {c : RouterM α} (h : Guards I E c) : GuardsAs I E session uid c :=
  h.pre fun _ hst => hst.2

/-! ## Handlers that read -/

section Reading

variable (h : Reads env R I E)

include h

theorem guards_deliverToConversation (payload : Object) (senderId toId groupId : Int32)
    (carries : Server → List StoredMessage) :
    Guards I E (deliverToConversation env payload senderId toId groupId carries) := by
  refine Guards.ite (fun _ => ?_) fun _ => ?_
  · exact (guards_onDb (h.members groupId)).bind fun _ => guards_each fun _ =>
      guards_deliverToUser _ payload carries
  · exact (guards_deliverToUser _ payload carries).bind fun _ =>
      Guards.when fun _ => guards_deliverToUser _ payload carries

theorem guards_broadcastPresence (type : MsgType) (userId : Int32) :
    Guards I E (broadcastPresence env type userId) := by
  refine (guards_onDb (h.findById userId)).bind fun user => ?_
  cases user with
  | none => exact guards_pure ()
  | some user =>
    exact (guards_onDb (h.getFriends userId)).bind fun _ => guards_each fun _ =>
      guards_deliverToUser _ _ _

theorem guards_handleSearchGroup : Guards I E (handleSearchGroup env session request) :=
  (guards_onDb (h.searchGroups _ _)).bind fun _ => guards_deliver _ _

theorem guards_memberUsers (ids : List Int32) : Guarded I E (memberUsers env ids) := by
  induction ids with
  | nil => exact guarded_pure []
  | cons id rest ih => exact (h.findById id).bind fun _ => ih.bind fun _ => guarded_pure _

theorem guards_answerChange (ok : Bool) (payload : Object) (fromId toId groupId : Int32)
    (carries : Server → List StoredMessage) :
    Guards I E (answerChange env session ok payload fromId toId groupId carries) :=
  Guards.ite (fun _ => guards_deliverToConversation h payload _ _ _ _) fun _ => guards_deliver _ _

theorem guards_handleFriendList : GuardsAs I E session uid (handleFriendList env session) :=
  .auth <| (guards_onDb (h.getFriends uid)).bind fun _ => (guards_asks _).bind fun _ =>
    guards_deliver _ _

/-- A `try` block recovers what the exception has left. -/
theorem guarded_orNone {c : DbM α} (hc : Guarded I E c) : Guarded I E (orNone c) := by
  intro db hdb
  obtain ⟨-, hok, herr⟩ := hc db hdb
  unfold orNone
  split
  · next a ha => exact ⟨nofun, fun _ _ => hok a ha, nofun⟩
  · next e he => exact ⟨nofun, fun _ _ => h.thrown _ (herr e he), nofun⟩

theorem guarded_summaryHistory (query : Bytes) : Guarded I E (summaryHistory env uid query) := by
  unfold summaryHistory
  split
  · exact guarded_orNone h (h.select _ _)
  · exact guarded_orNone h (h.select _ _)
  · exact guarded_pure _
  · exact guarded_pure _

theorem guards_handleSummarize (requestId query : Bytes) :
    Guards I E (handleSummarize env session requestId query) := by
  refine (guards_asks _).bind fun userId => (guards_onDb (guarded_summaryHistory h query)).bind
    fun history => ?_
  cases history with
  | none => exact guards_deliver _ _
  | some history =>
    exact (guards_deliver _ _).bind fun _ => guards_each fun _ => guards_deliverContent _ _ _

theorem guards_handleAIRequest : Guards I E (handleAIRequest env session request) :=
  Guards.ite (fun _ => guards_handleSummarize h _ _) fun _ =>
    Guards.ite (fun _ => guards_deliver _ _) fun _ =>
      (guards_onDb (h.search _ _)).bind fun _ => guards_deliverContent _ _ _

theorem guards_handleSystemBroadcast :
    Guards I E (handleSystemBroadcast env session request) := by
  refine Guards.ite (fun _ => guards_deliver _ _) fun _ => (guards_asks _).bind fun fromId =>
    Guards.ite (fun _ => guards_deliver _ _) fun _ => Guards.ite (fun _ => guards_deliverToUser _ _ _)
      fun _ => Guards.ite (fun _ => ?_) fun _ => guards_pure ()
  exact (guards_onDb (h.members _)).bind fun _ => guards_each fun _ => guards_deliverToUser _ _ _

end Reading

/-! ## Handlers that write -/

/-- The repository calls by which a request of a session with the user `uid`
may change the database. -/
inductive Calls (env : Env) (uid : Int32) (request : Object) : {α : Type} → DbM α → Prop
  | create (password nickname : Bytes) (avatarId : Int32) :
      typeField request = some .RegisterUser →
      Calls env uid request (UserRepository.create env password nickname avatarId)
  | verifyPassword (id : Int32) (password : Bytes) : typeField request = some .Login →
      Calls env uid request (UserRepository.verifyPassword env id password)
  | setOnline (id : Int32) : typeField request = some .Login →
      Calls env uid request (UserRepository.setOnlineStatus env id true)
  | offlineForUser (id : Int32) : typeField request = some .Login →
      Calls env uid request (MessageRepository.offlineForUser env id 100)
  | setOffline : typeField request = some .Logout → 0 < uid →
      Calls env uid request (UserRepository.setOnlineStatus env uid false)
  | savePrivate (toId : Int32) (content contentType : Bytes) (delivered : Bool) :
      typeField request = some .SendMsg → 0 < uid →
      Calls env uid request (MessageRepository.savePrivate env uid toId content contentType delivered)
  | saveGroup (groupId : Int32) (content contentType : Bytes) :
      typeField request = some .SendGroupMsg → 0 < uid →
      Calls env uid request (MessageRepository.saveGroup env uid groupId content contentType)
  | createGroup (name : Bytes) : typeField request = some .CreateGroup → 0 < uid →
      Calls env uid request (ChannelRepository.createGroup env uid name)
  | join (groupId : Int32) : typeField request = some .JoinGroup →
      Calls env uid request (ChannelRepository.join env uid groupId)
  | leave (groupId : Int32) : typeField request = some .LeaveGroup →
      Calls env uid request (ChannelRepository.leave env uid groupId)
  | markReadByNobody (msgId : Int64) : typeField request = some .RequestHistory → 0 < msgId →
      Calls env uid request (MessageRepository.markRead env msgId 0)
  | updateProfile (nickname : Bytes) (avatarId : Int32) :
      typeField request = some .UserProfileUpdate → 0 < uid →
      Calls env uid request (UserRepository.updateProfile env uid nickname avatarId)
  | sendRequest : typeField request = some .FriendRequest → 0 < uid →
      Calls env uid request
        (FriendRepository.sendRequest env uid (intField request "toId" 0) (stringField request "msg" []))
  | acceptRequest : typeField request = some .FriendAccept → 0 < uid →
      Calls env uid request (FriendRepository.acceptRequest env (intField request "fromId" 0) uid)
  | rejectOrRemove : typeField request = some .FriendRemove → 0 < uid →
      Calls env uid request
        (rejectOrRemove env uid (intField request "fromId" 0) (intField request "toId" 0))
  | edit (msgId : Int64) (content : Bytes) : typeField request = some .MessageEdit → 0 < uid → 0 < msgId →
      Calls env uid request (MessageRepository.edit env msgId uid content)
  | softDelete (msgId : Int64) : typeField request = some .MessageDelete → 0 < uid → 0 < msgId →
      Calls env uid request (MessageRepository.softDelete env msgId uid)
  | addReaction (msgId : Int64) (reaction : Bytes) : typeField request = some .MessageReaction →
      0 < uid → 0 < msgId →
      Calls env uid request (MessageRepository.addReaction env msgId uid reaction)
  | markRead (msgId : Int64) : typeField request = some .ReadReceipt → 0 < uid → 0 < msgId →
      Calls env uid request (MessageRepository.markRead env msgId uid)

theorem guarded_rejectOrRemove (hr : Reads env R I E) (h : ∀ change : Content → Option Content,
    (∀ c c', change c = some c' → c'.docs = c.docs) → Guarded I E (exec env (Sqlite.write change)))
    (uid fromId toId : Int32) : Guarded I E (rejectOrRemove env uid fromId toId) :=
  (guarded_pure _).ite <| (Guarded.andAlso fun _ => guarded_setStatus hr h _ _ _).bind fun _ =>
    (guarded_pure _).ite <| (guarded_removeFriendship hr h _ _).bind fun _ => guarded_pure _

/-- The calls of the request keep `I`. -/
def GuardsCalls (env : Env) (I E : Database → Prop) (uid : Int32) (request : Object) : Prop :=
  ∀ ⦃α : Type⦄ ⦃c : DbM α⦄, Calls env uid request c → Guarded I E c

section Writing

variable (h : Reads env R I E) (hc : GuardsCalls env I E uid request)

include hc

theorem guards_handleRegister (htype : typeField request = some .RegisterUser) :
    Guards I E (handleRegister env session request) :=
  Guards.ite (fun _ => guards_deliver _ _) fun _ =>
    (guards_onDb (hc (.create _ _ _ htype))).bind fun _ =>
      Guards.ite (fun _ => guards_deliver _ _) fun _ => guards_deliver _ _

theorem guards_handlePrivateMessage (htype : typeField request = some .SendMsg) :
    GuardsAs I E session uid (handlePrivateMessage env session request) := by
  refine .auth <| Guards.ite (fun _ => guards_deliver _ _) fun hvalid =>
    (guards_asks _).bind fun target => ?_
  rw [not_or, Int32.not_le] at hvalid
  exact (guards_onDb (hc (.savePrivate _ _ _ _ htype hvalid.1))).bind fun _ =>
    (guards_deliverIfFound _ _ _).bind fun _ => guards_deliverContent _ _ _

theorem guards_handleCreateGroup (htype : typeField request = some .CreateGroup) :
    GuardsAs I E session uid (handleCreateGroup env session request) := by
  refine .auth <| Guards.ite (fun _ => guards_deliver _ _) fun hvalid => ?_
  rw [not_or, Int32.not_le] at hvalid
  exact (guards_onDb (hc (.createGroup _ htype hvalid.1))).bind fun _ => guards_deliver _ _

theorem guards_handleLeaveGroup (htype : typeField request = some .LeaveGroup) :
    GuardsAs I E session uid (handleLeaveGroup env session request) :=
  .auth <| (guards_onDb (hc (.leave _ htype))).bind fun _ => guards_deliver _ _

theorem guards_handleProfileUpdate (htype : typeField request = some .UserProfileUpdate) :
    GuardsAs I E session uid (handleProfileUpdate env session request) := by
  refine .auth <| Guards.ite (fun _ => guards_deliver _ _) fun hvalid => ?_
  rw [not_or, Int32.not_le] at hvalid
  exact (guards_onDb (hc (.updateProfile _ _ htype hvalid.1))).bind fun _ =>
    Guards.ite (fun _ => guards_deliver _ _) fun _ => guards_deliver _ _

theorem guards_handleFriendRequest (htype : typeField request = some .FriendRequest) :
    GuardsAs I E session uid (handleFriendRequest env session request) :=
  .auth <| (guards_andAlso fun hpos => hc (.sendRequest htype hpos.1)).bind fun _ =>
    Guards.ite (fun _ => guards_deliver _ _) fun _ => (guards_deliver _ _).bind fun _ =>
      guards_deliverToUser _ _ _

theorem guards_handleFriendRemove (htype : typeField request = some .FriendRemove) :
    GuardsAs I E session uid (handleFriendRemove env session request) := by
  refine .auth <| (guards_onDb ?_).bind fun _ => (guards_deliver _ _).bind fun _ =>
    guards_deliverToUser _ _ _
  rcases Int32.lt_or_le 0 uid with hpos | hle
  · exact hc (.rejectOrRemove htype hpos)
  · rw [rejectOrRemove, if_pos (.inl hle)]
    exact guarded_pure _

omit hc in
theorem guards_deliverOffline {userId : Int32}
    (h : Guarded I E (MessageRepository.offlineForUser env userId 100)) :
    Guards I E (deliverOffline env session userId) :=
  (guards_onDb h).bind fun _ => Guards.ite (fun _ => guards_pure ()) fun _ => guards_deliverContent _ _ _

include h

theorem guards_acceptLogin (htype : typeField request = some .Login) (id : Int32) (user : UserInfo) :
    Guards I E (acceptLogin env session id user) :=
  (guards_modifyPool _).bind fun _ => (guards_modifyPresence _).bind fun _ =>
    (guards_onDb (hc (.setOnline _ htype))).bind fun _ => (guards_asks _).bind fun _ =>
      (guards_onDb h.getAllUsers).bind fun _ => (guards_onDb (h.getFriends _)).bind fun _ =>
        (guards_onDb (h.groupsForUser _)).bind fun _ => (guards_deliver _ _).bind fun _ =>
          (guards_deliverOffline (hc (.offlineForUser _ htype))).bind fun _ => guards_broadcastPresence h _ _

theorem guards_handleLogin (htype : typeField request = some .Login) :
    Guards I E (handleLogin env session request) := by
  refine Guards.ite (fun _ => guards_deliver _ _) fun _ =>
    (guards_onDb (hc (.verifyPassword _ _ htype))).bind fun _ =>
      Guards.ite (fun _ => guards_deliver _ _) fun _ =>
        (guards_onDb (h.findById _)).bind fun user => ?_
  cases user with
  | none => exact guards_deliver _ _
  | some user => exact guards_acceptLogin h hc htype _ _

theorem guards_handleLogout (htype : typeField request = some .Logout) :
    GuardsAs I E session uid (handleLogout env session) :=
  .auth <| (Guards.when fun hpos => (guards_modifyPresence _).bind fun _ =>
    (guards_onDb (hc (.setOffline htype hpos))).bind fun _ => (guards_modifyPool _).bind fun _ =>
      guards_broadcastPresence h _ _).bind fun _ => guards_deliver _ _

theorem guards_handleGroupMessage (htype : typeField request = some .SendGroupMsg) :
    GuardsAs I E session uid (handleGroupMessage env session request) := by
  refine .auth <| Guards.ite (fun _ => guards_deliver _ _) fun hvalid => ?_
  rw [not_or, Int32.not_le] at hvalid
  exact (guards_onDb (hc (.saveGroup _ _ _ htype hvalid.1))).bind fun _ =>
    (guards_onDb (h.members _)).bind fun _ => guards_each fun _ => guards_deliverToUser _ _ _

omit hc in
theorem guards_handleFileTransfer :
    GuardsAs I E session uid (handleFileTransfer env session request) :=
  .auth <| Guards.ite (fun _ => guards_deliver _ _) fun _ =>
    (guards_deliverToConversation h _ _ _ _ _).bind fun _ => guards_deliver _ _

theorem guards_handleJoinGroup (htype : typeField request = some .JoinGroup) :
    GuardsAs I E session uid (handleJoinGroup env session request) :=
  .auth <| (guards_onDb (hc (.join _ htype))).bind fun _ =>
    Guards.ite (fun _ => guards_deliver _ _) fun _ => (guards_onDb (h.members _)).bind fun _ =>
      (guards_onDb (guards_memberUsers h _)).bind fun _ => (guards_asks _).bind fun _ =>
        guards_deliver _ _

theorem guards_handleHistory (htype : typeField request = some .RequestHistory) :
    GuardsAs I E session uid (handleHistory env session request) := by
  refine .auth <| (guards_onDb ?_).bind fun _ => guards_deliverContent _ _ _
  refine Guarded.bind (Cmd.sat_when (fun hpos => ?_) fun _ _ h => h) fun _ =>
    (h.select _ _).ite ((h.select _ _).ite (guarded_pure []))
  exact (hc (.markReadByNobody _ htype hpos)).bind fun _ => guarded_pure ()

theorem guards_handleFriendAccept (htype : typeField request = some .FriendAccept) :
    GuardsAs I E session uid (handleFriendAccept env session request) :=
  .auth <| (guards_andAlso fun hpos => hc (.acceptRequest htype hpos.2)).bind fun _ =>
    (guards_onDb (h.findById _)).bind fun _ => (guards_onDb (h.findById _)).bind fun _ =>
      (guards_deliver _ _).bind fun _ => guards_deliverToUser _ _ _

theorem guards_handleMessageEdit (htype : typeField request = some .MessageEdit) :
    GuardsAs I E session uid (handleMessageEdit env session request) :=
  .auth <| (guards_andAlso fun hpos => hc (.edit _ _ htype hpos.1 hpos.2)).bind fun _ =>
    (guards_onDb h.time).bind fun _ => guards_answerChange h _ _ _ _ _ _

theorem guards_handleMessageDelete (htype : typeField request = some .MessageDelete) :
    GuardsAs I E session uid (handleMessageDelete env session request) :=
  .auth <| (guards_andAlso fun hpos => hc (.softDelete _ htype hpos.1 hpos.2)).bind fun _ =>
    (guards_onDb h.time).bind fun _ => guards_answerChange h _ _ _ _ _ _

theorem guards_handleMessageReaction (htype : typeField request = some .MessageReaction) :
    GuardsAs I E session uid (handleMessageReaction env session request) :=
  .auth <| (guards_andAlso fun hpos => hc (.addReaction _ _ htype hpos.1 hpos.2)).bind fun _ =>
    guards_answerChange h _ _ _ _ _ _

theorem guards_handleReadReceipt (htype : typeField request = some .ReadReceipt) :
    GuardsAs I E session uid (handleReadReceipt env session request) :=
  .auth <| (guards_andAlso fun hpos => hc (.markRead _ htype hpos.1 hpos.2)).bind fun _ =>
    Guards.ite (fun _ => guards_deliver _ _) fun _ => (guards_onDb h.time).bind fun _ =>
      guards_deliverToConversation h _ _ _ _ _

end Writing

/-! ## Requests -/

/-- A request keeps what its calls keep. -/
theorem guards_dispatch_of_calls (h : Reads env R I E) (hc : GuardsCalls env I E uid request) :
    GuardsAs I E session uid (dispatch env session request) := by
  unfold dispatch
  split
  case h_24 => exact (guards_deliver _ _).as
  all_goals rename_i htype
  · exact (guards_handleRegister hc htype).as
  · exact (guards_handleLogin h hc htype).as
  · exact guards_handleLogout h hc htype
  · exact guards_handlePrivateMessage hc htype
  · exact guards_handleGroupMessage h hc htype
  · exact guards_handleFileTransfer h
  · exact guards_handleCreateGroup hc htype
  · exact (guards_handleSearchGroup h).as
  · exact guards_handleJoinGroup h hc htype
  · exact guards_handleLeaveGroup hc htype
  · exact guards_handleHistory h hc htype
  · exact (guards_handleAIRequest h).as
  · exact guards_handleProfileUpdate hc htype
  · exact guards_handleFriendRequest hc htype
  · exact guards_handleFriendAccept h hc htype
  · exact guards_handleFriendRemove hc htype
  · exact guards_handleFriendList h
  · exact (guards_handleSystemBroadcast h).as
  · exact guards_handleMessageEdit h hc htype
  · exact guards_handleMessageDelete h hc htype
  · exact guards_handleMessageReaction h hc htype
  · exact guards_handleReadReceipt h hc htype
  · exact (guards_deliver _ _).as

/-- The requests that write whoever sends them. -/
def anonymousWrites : List MsgType := [.RegisterUser, .Login, .JoinGroup, .LeaveGroup, .RequestHistory]

/-- An invariant that every operation keeps is kept by the calls of a request. A
request of a session without a user writes only if it is one of `anonymousWrites`. -/
theorem guardsCalls_of_writes (hw : 0 < uid → Writes env R I E)
    (ha : ∀ type ∈ anonymousWrites, typeField request = some type → Writes env R I E) :
    GuardsCalls env I E uid request := by
  intro α c hcall
  cases hcall with
  | create _ _ _ htype =>
    have h := ha .RegisterUser (by decide) htype
    exact (h.to .users).create h.toReads _ _ _
  | verifyPassword _ _ htype =>
    have h := ha .Login (by decide) htype
    exact (h.to .users).verifyPassword h.toReads _ _
  | setOnline _ htype =>
    have h := ha .Login (by decide) htype
    exact (h.to .users).setOnlineStatus h.toReads _ _
  | offlineForUser _ htype =>
    have h := ha .Login (by decide) htype
    exact (h.to .messages).offlineForUser h.toReads _ _
  | join _ htype =>
    have h := ha .JoinGroup (by decide) htype
    exact (h.to .group_members).join h.toReads _ _
  | leave _ htype => exact ((ha .LeaveGroup (by decide) htype).to .group_members).leave _ _
  | markReadByNobody _ htype => exact ((ha .RequestHistory (by decide) htype).to .messages).markRead _ _
  | setOffline _ hpos => exact ((hw hpos).to .users).setOnlineStatus (hw hpos).toReads _ _
  | savePrivate _ _ _ _ _ hpos => exact ((hw hpos).to .messages).savePrivate (hw hpos).toReads _ _ _ _ _
  | saveGroup _ _ _ _ hpos => exact ((hw hpos).to .messages).saveGroup (hw hpos).toReads _ _ _ _
  | createGroup _ _ hpos =>
    exact WritesTo.createGroup (hw hpos).toReads ((hw hpos).to .groups) ((hw hpos).to .group_members) _ _
  | updateProfile _ _ _ hpos => exact ((hw hpos).to .users).updateProfile (hw hpos).toReads _ _ _
  | sendRequest _ hpos => exact guarded_sendRequest (hw hpos).toReads (hw hpos).friendships _ _ _
  | acceptRequest _ hpos => exact guarded_setStatus (hw hpos).toReads (hw hpos).friendships _ _ _
  | rejectOrRemove _ hpos => exact guarded_rejectOrRemove (hw hpos).toReads (hw hpos).friendships _ _ _
  | edit _ _ _ hpos _ => exact ((hw hpos).to .messages).edit (hw hpos).toReads _ _ _
  | softDelete _ _ hpos _ => exact ((hw hpos).to .messages).softDelete (hw hpos).toReads _ _
  | addReaction _ _ _ hpos _ => exact ((hw hpos).to .messages).addReaction _ _ _
  | markRead _ _ hpos _ => exact ((hw hpos).to .messages).markRead _ _

/-- A request of a session without a user reads only, unless it is one of
`anonymousWrites`. -/
theorem guards_dispatch (h : Reads env R I E) (hw : 0 < uid → Writes env R I E)
    (ha : ∀ type ∈ anonymousWrites, typeField request = some type → Writes env R I E) :
    GuardsAs I E session uid (dispatch env session request) :=
  guards_dispatch_of_calls h (guardsCalls_of_writes hw ha)

end Guards

end MessageRouter

namespace TcpServer

open Database MessageRouter

variable {env : Env} {R : TableName → Row → Prop} {I E : Database → Prop} {session : SessionId}
  {uid : Int32}

/-! ## Events and runs -/

theorem guards_modifySession (session : SessionId) (f : AsyncSession → AsyncSession) :
    Guards I E (modifySession session f) :=
  guards_modifyPool _

theorem guards_accept (now : Int) : Guards I E (accept now) :=
  (guards_asks _).bind fun _ => Guards.bind (Cmd.sat_modify fun _ hst => hst) fun _ =>
    (guards_modifySession _ _).bind fun _ => (guards_asks _).bind fun _ =>
      (guards_modifyPool _).bind fun _ =>
        Guards.ite (fun _ => guards_modifySession _ _) fun _ => guards_pure ()

/-- The frame of the session is handled: its chain of reads goes on, and its rate
limit is not used up. -/
def Handled (st : Server) (session : SessionId) (now : Int) : Prop :=
  (st.pool.object session).reading = true ∧
    ((st.pool.object session).consumeRateLimitToken now).1 = true

instance (st : Server) (session : SessionId) (now : Int) : Decidable (Handled st session now) :=
  inferInstanceAs (Decidable (_ ∧ _))

theorem run_modifySession (st : Server) (session : SessionId) (f : AsyncSession → AsyncSession) :
    modifySession session f st =
      ⟨.ok (), { st with pool := st.pool.setObject session (f (st.pool.object session)) }, []⟩ := rfl

/-- A frame that is handled and is not a heartbeat is dispatched. -/
theorem handle_frame {st : Server} {json : Bytes} {now later : Int} {request : Object}
    (h : Handled st session now) (hparse : parseObject env.stack json = some request)
    (htype : typeField request ≠ some .Heartbeat) :
    ∃ s : Server, s.roster = st.roster ∧ s.db = st.db ∧
      handle env (.frame session json now later) st = dispatch env session request s := by
  let metered := ((st.pool.object session).consumeRateLimitToken now).2
  refine ⟨{ st with pool := st.pool.setObject session metered }, ?_, rfl, ?_⟩
  · exact roster_setObject st (AsyncSession.consumeRateLimitToken_user_id now _)
  · unfold handle
    dsimp only
    rw [Cmd.bind_of_run _ (Cmd.asks_apply ..), if_pos h.1]
    unfold onMessage
    rw [Cmd.bind_of_run _ (Cmd.asks_apply ..), Cmd.bind_of_run _ (run_modifySession ..)]
    simp only [metered, h.2, hparse, Option.bind_some, htype, Bool.not_true, Bool.false_eq_true,
      if_false, route_of_some env hparse]

/-- A frame that is handled to the end has not been nested too deeply. -/
theorem parseObject_of_handle {st : Server} {json : Bytes} {now later : Int} (h : Handled st session now)
    (hresult : (handle env (.frame session json now later) st).result = .ok ()) :
    parseObject env.stack json = readObject json := by
  obtain ⟨-, hnone, hroute⟩ | ⟨-, hnone, hread, -⟩ | ⟨request, -, hsome, hread, -⟩ := route_cases env session json
  · unfold handle at hresult
    dsimp only at hresult
    rw [Cmd.bind_of_run _ (Cmd.asks_apply ..), if_pos h.1] at hresult
    unfold onMessage at hresult
    rw [Cmd.bind_of_run _ (Cmd.asks_apply ..), Cmd.bind_of_run _ (run_modifySession ..)] at hresult
    simp only [h.2, hnone, Option.bind_none, Bool.not_true, Bool.false_eq_true, reduceCtorEq, if_false,
      hroute] at hresult
    cases hresult
  · rw [hnone, hread]
  · rw [hsome, hread]

theorem parseObject_of_step {st st' : Server} {json : Bytes} {now later : Int} (h : Handled st session now)
    (hstep : step env st (.frame session json now later) = some st') :
    parseObject env.stack json = readObject json :=
  parseObject_of_handle h (of_step hstep).1

/-- What is known of a request when it is dispatched. -/
def DispatchSat (env : Env) (I E : Database → Prop) (st : Server) (session : SessionId)
    (request : Object) : Prop :=
  Cmd.Sat (fun s => s.userId session = st.userId session ∧ s.db = st.db) (dispatch env session request)
    (fun _ s => I s.db) (fun e s => E s.db ∨ e.OutsideDb ∧ I s.db) fun d => I d.at_.db

theorem dispatchSat_of_calls {st : Server} {request : Object} (hr : Reads env R I E) (hst : I st.db)
    (hc : GuardsCalls env I E (st.userId session) request) : DispatchSat env I E st session request :=
  (guards_dispatch_of_calls hr hc).pre fun _ hs => ⟨hs.1, hs.2 ▸ hst⟩

section Events

variable (h : Reads env R I E)
  (hoffline : ∀ id, Guarded I E (UserRepository.setOnlineStatus env id false))

include h hoffline

theorem guards_removeSession (session : SessionId) : Guards I E (removeSession env session) := by
  refine (guards_asks _).bind fun userId => (guards_modifyPool _).bind fun _ =>
    Guards.ite (fun _ => ?_) fun _ => guards_pure ()
  refine (guards_modifyPresence _).bind fun _ => (guards_onDb (hoffline _)).bind fun _ =>
    (guards_onDb (h.findById _)).bind fun user => ?_
  cases user with
  | none => exact guards_pure ()
  | some user => exact (guards_asks _).bind fun _ => guards_each fun _ => guards_deliver _ _

theorem sat_onMessage_of_dispatch {st : Server} {json : Bytes} (now later : Int) (hst : I st.db)
    (hd : ((st.pool.object session).consumeRateLimitToken now).1 = true →
      ∀ request, readObject json = some request → DispatchSat env I E st session request) :
    Cmd.Sat (fun s => s = st) (onMessage env session json now later) (fun _ s => I s.db)
      (fun e s => E s.db ∨ e.OutsideDb ∧ I s.db) fun d => I d.at_.db := by
  refine Cmd.Sat.bind (R := fun granted s =>
    granted = ((st.pool.object session).consumeRateLimitToken now).1 ∧ s = st)
    (Cmd.sat_asks fun _ hs => hs ▸ ⟨rfl, rfl⟩) fun granted => Cmd.Sat.of_fact fun hgranted => ?_
  refine Cmd.Sat.bind (R := fun _ s => s.userId session = st.userId session ∧ s.db = st.db)
    (Cmd.sat_modify fun s hs => ⟨?_, hs ▸ rfl⟩) fun _ => ?_
  · rw [Server.userId, SessionPool.userId_setObject, if_pos rfl,
      AsyncSession.consumeRateLimitToken_user_id, hs]
    rfl
  have hI : ∀ s : Server, s.userId session = st.userId session ∧ s.db = st.db → I s.db :=
    fun s hs => hs.2 ▸ hst
  refine Cmd.sat_ite (fun _ => Cmd.Sat.pre (guards_removeSession h hoffline session) hI) fun hrefused =>
    Cmd.sat_ite (fun _ => ?_) fun _ => ?_
  · exact Cmd.Sat.pre ((guards_modifySession _ _).bind fun _ => guards_deliver _ _) hI
  · obtain ⟨-, -, hroute⟩ | ⟨-, -, -, hroute⟩ | ⟨request, -, -, hread, hroute⟩ := route_cases env session json
    · rw [hroute]
      exact Cmd.sat_throw fun s hs => .inr ⟨.inr rfl, hI s hs⟩
    · rw [hroute]
      exact Cmd.Sat.pre (guards_deliver _ _) hI
    · rw [hroute]
      refine hd ?_ request hread
      rw [← hgranted]
      simpa using hrefused

/-- An event keeps what the request that it brings keeps, also where it hands a payload over. -/
theorem sat_handle_of_dispatch {st : Server} {event : Event}
    (hd : ∀ session json now later request, event = .frame session json now later →
      Handled st session now → readObject json = some request → DispatchSat env I E st session request)
    (hst : I st.db) :
    Cmd.Sat (fun s => s = st) (handle env event) (fun _ s => I s.db)
      (fun e s => E s.db ∨ e.OutsideDb ∧ I s.db) fun d => I d.at_.db := by
  cases event with
  | accept now => exact Cmd.Sat.pre (guards_accept now) fun _ h => h ▸ hst
  | frame session json now later =>
    refine Cmd.Sat.bind (R := fun reading s =>
      reading = (st.pool.object session).reading ∧ s = st) (Cmd.sat_asks fun _ h => h ▸ ⟨rfl, rfl⟩)
      fun reading => Cmd.Sat.of_fact fun hreading => ?_
    refine Cmd.sat_ite (fun hread => ?_) fun _ => Cmd.sat_pure fun _ h => h ▸ hst
    exact sat_onMessage_of_dispatch h hoffline now later hst fun hgranted request hparse =>
      hd session json now later request rfl ⟨hreading ▸ hread, hgranted⟩ hparse
  | readError session =>
    refine Cmd.Sat.pre (Guards.bind (guards_asks _) fun _ => Guards.ite (fun _ => ?_) fun _ =>
      guards_pure ()) fun _ h => h ▸ hst
    exact (guards_modifySession _ _).bind fun _ => guards_removeSession h hoffline session
  | sweep now =>
    exact Cmd.Sat.pre (Guards.bind (guards_asks _) fun _ => guards_each fun _ =>
      guards_removeSession h hoffline _) fun _ h => h ▸ hst

/-- An event keeps what the request that it brings keeps. -/
theorem invariant_step_of_dispatch {st st' : Server} {event : Event}
    (hd : ∀ session json now later request, event = .frame session json now later →
      Handled st session now → readObject json = some request → DispatchSat env I E st session request)
    (hst : I st.db) (hstep : step env st event = some st') : I st'.db := by
  unfold step at hstep
  split at hstep
  · next a ha =>
    cases hstep
    exact (sat_handle_of_dispatch h hoffline hd hst st rfl).2.1 a ha
  · cases hstep

/-- An event keeps what the calls of its request keep. -/
theorem invariant_step_of_calls {st st' : Server} {event : Event}
    (hc : ∀ session json now later request, event = .frame session json now later →
      readObject json = some request → GuardsCalls env I E (st.userId session) request)
    (hst : I st.db) (hstep : step env st event = some st') : I st'.db :=
  invariant_step_of_dispatch h hoffline (fun session json now later request hevent _ hparse =>
    dispatchSat_of_calls h hst (hc session json now later request hevent hparse)) hst hstep

end Events

theorem invariant_step (h : Writes env R I E) {st st' : Server} {event : Event} (hst : I st.db)
    (hstep : step env st event = some st') : I st'.db :=
  invariant_step_of_calls h.toReads (fun _ => (h.to .users).setOnlineStatus h.toReads _ _)
    (fun _ _ _ _ _ _ _ => guardsCalls_of_writes (fun _ => h) fun _ _ _ => h) hst hstep

/-- What the repositories keep holds in every state of every run. -/
theorem invariant_of_reachable (h : Writes env R I E) {db : Database} {st : Server} (hdb : I db)
    (hreach : Reachable env db st) : I st.db := by
  obtain ⟨events, hrun⟩ := hreach
  exact invariant_run (fun _ _ _ hst hstep => invariant_step h hst hstep) hdb hrun

end TcpServer

end LanChat
