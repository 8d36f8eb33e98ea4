import LanChat.Db.MessageOrigins
import LanChat.Server.Friendship
import LanChat.Server.SenderAuthenticity
import LanChat.Server.Saving

/-!
# Who has posted and who has read a message

A step of the server adds a group message only by a `SendGroupMsg`, and marks a
message as read only by a `ReadReceipt` or a `RequestHistory` that names it
(`origins_step`). None of the three asks who is a member of the group or a
recipient of the message.
-/

namespace LanChat

open Lib Json

/-- There is such a group. -/
def Server.HasGroup (st : Server) (group : Int32) : Prop :=
  ∃ row ∈ st.db.content .groups, ChannelRepository.isGroup group row = true

instance (st : Server) (group : Int32) : Decidable (st.HasGroup group) :=
  inferInstanceAs (Decidable (∃ row ∈ st.db.content .groups, _))

instance (st : Server) (user group : Int32) : Decidable (st.IsMember user group) :=
  inferInstanceAs (Decidable (∃ row ∈ st.db.content .group_members, _))

namespace MessageRouter

open Database MessageRepository

section Requests

variable {env : Env} {whole : Prop} {posted : Int32 → Int32 → Prop} {marked : Int64 → Prop}
  {start : RowList} {session : SessionId} {uid : Int32} {request : Object}

/-- The request of the user `uid` saves a message, for the group 0 if it is private. -/
def Posts (uid : Int32) (request : Object) (fromId groupId : Int32) : Prop :=
  0 < uid ∧ fromId = uid ∧
    (typeField request = some .SendMsg ∧ groupId = 0 ∨
      typeField request = some .SendGroupMsg ∧ stringField request "msg" [] ≠ [] ∧
        groupId = intField request "groupId" 0 ∧ 0 < groupId)

/-- The request of the user `uid` marks the id as read. -/
def Marks (uid : Int32) (request : Object) (msgId : Int64) : Prop :=
  (typeField request = some .ReadReceipt ∧ 0 < uid ∨ typeField request = some .RequestHistory) ∧
    msgId = int64Field request "msg_id" 0 ∧ 0 < msgId

instance (uid : Int32) (request : Object) (msgId : Int64) : Decidable (Marks uid request msgId) :=
  inferInstanceAs (Decidable (_ ∧ _))

theorem guardsCalls_origins
    (hposted : ∀ fromId groupId, Posts uid request fromId groupId → posted fromId groupId)
    (hgroup : typeField request ≠ some .SendGroupMsg)
    (hreceipt : typeField request ≠ some .ReadReceipt) (hhistory : typeField request ≠ some .RequestHistory) :
    GuardsCalls env (KeepsOrigins env whole posted marked start) (KeepsOrigins env whole posted marked start)
      uid request := by
  have hreads := reads_origins env whole posted marked start
  have husers := @writesTo_tracks env .messages .users whole (Descends posted marked start) (by decide)
  have hmembers := @writesTo_tracks env .messages .group_members whole (Descends posted marked start)
    (by decide)
  intro α c hcall
  cases hcall with
  | create _ _ _ _ => exact husers.create hreads _ _ _
  | verifyPassword _ _ _ => exact husers.verifyPassword hreads _ _
  | setOnline _ _ => exact husers.setOnlineStatus hreads _ _
  | setOffline _ _ => exact husers.setOnlineStatus hreads _ _
  | updateProfile _ _ _ _ => exact husers.updateProfile hreads _ _ _
  | join _ _ => exact hmembers.join hreads _ _
  | leave _ _ => exact hmembers.leave _ _
  | createGroup _ _ _ => exact WritesTo.createGroup hreads (writesTo_tracks (by decide)) hmembers _ _
  | sendRequest _ _ => exact guarded_sendRequest hreads friendships_tracks _ _ _
  | acceptRequest _ _ => exact guarded_setStatus hreads friendships_tracks _ _ _
  | rejectOrRemove _ => exact guarded_rejectOrRemove hreads friendships_tracks _ _ _
  | offlineForUser _ _ => exact preserves_offlineForUser _ _
  | savePrivate _ _ _ _ htype hpos =>
    exact preserves_save (fun _ _ => rfl) fun _ _ => hposted _ _ ⟨hpos, rfl, .inl ⟨htype, rfl⟩⟩
  | saveGroup _ _ _ htype _ => exact absurd htype hgroup
  | markReadByNobody _ htype _ => exact absurd htype hhistory
  | markRead _ htype _ _ => exact absurd htype hreceipt
  | addReaction _ _ _ _ _ => exact preserves_addReaction _ _ _
  | edit _ _ _ _ _ => exact preserves_edit _ _ _
  | softDelete _ _ _ _ => exact preserves_softDelete _ _

theorem origins_handleGroupMessage (htype : typeField request = some .SendGroupMsg)
    (hposted : ∀ fromId groupId, Posts uid request fromId groupId → posted fromId groupId) :
    GuardsAs (KeepsOrigins env whole posted marked start) (KeepsOrigins env whole posted marked start) session
      uid (handleGroupMessage env session request) := by
  refine .auth <| Guards.ite (fun _ => guards_deliver _ _) fun hvalid => ?_
  rw [not_or, not_or, Int32.not_le, Int32.not_le] at hvalid
  obtain ⟨huid, hgroup, hmsg⟩ := hvalid
  refine (guards_onDb (preserves_save (fun _ _ => rfl) fun _ _ => ?_)).bind fun _ =>
    (guards_onDb ((reads_origins ..).members _)).bind fun _ => guards_each fun _ => guards_deliverToUser _ _ _
  exact hposted _ _ ⟨huid, rfl, .inr ⟨htype, hmsg, rfl, hgroup⟩⟩

theorem origins_handleHistory (htype : typeField request = some .RequestHistory)
    (hmarked : ∀ msgId, Marks uid request msgId → marked msgId) :
    GuardsAs (KeepsOrigins env whole posted marked start) (KeepsOrigins env whole posted marked start) session
      uid (handleHistory env session request) := by
  have hreads := reads_origins env whole posted marked start
  refine .auth <| (guards_onDb ?_).bind fun _ => guards_deliverContent _ _ _
  refine Guarded.bind (Cmd.sat_when (fun hpos => ?_) fun _ _ h => h) fun _ =>
    (hreads.select _ _).ite ((hreads.select _ _).ite (guarded_pure []))
  exact (preserves_markRead (hmarked _ ⟨.inr htype, rfl, hpos⟩) _).bind fun _ => guarded_pure ()

theorem origins_handleReadReceipt (htype : typeField request = some .ReadReceipt)
    (hmarked : ∀ msgId, Marks uid request msgId → marked msgId) :
    GuardsAs (KeepsOrigins env whole posted marked start) (KeepsOrigins env whole posted marked start) session
      uid (handleReadReceipt env session request) := by
  have hreads := reads_origins env whole posted marked start
  exact .auth <| (guards_andAlso fun hpos =>
    preserves_markRead (hmarked _ ⟨.inl ⟨htype, hpos.1⟩, rfl, hpos.2⟩) _).bind fun _ =>
      Guards.ite (fun _ => guards_deliver _ _) fun _ => (guards_onDb hreads.time).bind fun _ =>
        guards_deliverToConversation hreads _ _ _ _ _

theorem origins_dispatch (hposted : ∀ fromId groupId, Posts uid request fromId groupId → posted fromId groupId)
    (hmarked : ∀ msgId, Marks uid request msgId → marked msgId) :
    GuardsAs (KeepsOrigins env whole posted marked start) (KeepsOrigins env whole posted marked start) session
      uid (dispatch env session request) := by
  rcases eq_or_ne (typeField request) (some .SendGroupMsg) with htype | hgroup
  · unfold dispatch
    rw [htype]
    exact origins_handleGroupMessage htype hposted
  rcases eq_or_ne (typeField request) (some .RequestHistory) with htype | hhistory
  · unfold dispatch
    rw [htype]
    exact origins_handleHistory htype hmarked
  rcases eq_or_ne (typeField request) (some .ReadReceipt) with htype | hreceipt
  · unfold dispatch
    rw [htype]
    exact origins_handleReadReceipt htype hmarked
  exact guards_dispatch_of_calls (reads_origins ..) (guardsCalls_origins hposted hgroup hreceipt hhistory)

end Requests

end MessageRouter

namespace TcpServer

open Database MessageRouter MessageRepository

variable {env : Env} {file : Content} {events : List Event} {event : Event} {st st' : Server}

/-- The event posts a message of the user to the group. -/
def PostsNow (st : Server) (event : Event) (fromId groupId : Int32) : Prop :=
  ∃ uid request, Brings st event uid request ∧ Posts uid request fromId groupId

/-- The user marks the id as read by the event. -/
def MarksNow (st : Server) (event : Event) (uid : Int32) (msgId : Int64) : Prop :=
  ∃ request, Brings st event uid request ∧ Marks uid request msgId

/-- The messages after a step, by the messages before it. -/
theorem origins_step (hst : st.db.Settled .messages) (hstep : step env st event = some st') :
    KeepsOrigins env False (PostsNow st event) (fun msgId => ∃ uid, MarksNow st event uid msgId)
      (st.db.content .messages) st'.db := by
  have hreads := reads_origins env False (PostsNow st event) (fun msgId => ∃ uid, MarksNow st event uid msgId)
    (st.db.content .messages)
  have hself : KeepsOrigins env False (PostsNow st event) (fun msgId => ∃ uid, MarksNow st event uid msgId)
      (st.db.content .messages) st.db := ⟨hst, descends_refl _ _ _, False.elim⟩
  refine invariant_step_of_dispatch hreads
    (fun id => (writesTo_tracks (by decide)).setOnlineStatus hreads id false) ?_ hself hstep
  rintro session json now later request rfl hhandled hparse
  have hbrings : Brings st (.frame session json now later) (st.userId session) request :=
    ⟨session, json, now, later, rfl, hhandled, hparse, rfl⟩
  refine (@origins_dispatch env _ _ _ _ session (st.userId session) request ?_ ?_).pre fun _ hs => ⟨hs.1, hs.2 ▸ hself⟩
  · exact fun fromId groupId hposts => ⟨_, request, hbrings, hposts⟩
  · exact fun msgId hmarks => ⟨_, request, hbrings, hmarks⟩

/-- What is asked of the request that an event brings can be checked. -/
instance decidableForallBrings {P : Int32 → Object → Prop} [∀ uid request, Decidable (P uid request)]
    (st : Server) : ∀ event, Decidable (∀ uid request, Brings st event uid request → P uid request)
  | .accept _ => .isTrue fun _ _ ⟨_, _, _, _, h, _⟩ => nomatch h
  | .readError _ => .isTrue fun _ _ ⟨_, _, _, _, h, _⟩ => nomatch h
  | .sweep _ => .isTrue fun _ _ ⟨_, _, _, _, h, _⟩ => nomatch h
  | .frame session json now later =>
    decidable_of_iff (Handled st session now → ∀ request ∈ readObject json, P (st.userId session) request)
      ⟨fun h uid request ⟨_, _, _, _, hevent, hhandled, hparse, huser⟩ => by
        cases hevent
        exact huser ▸ h hhandled request hparse,
      fun h hhandled request hparse => h _ request ⟨session, json, now, later, rfl, hhandled, hparse, rfl⟩⟩

theorem Brings.request_unique {uid uid' : Int32} {request request' : Object} (h : Brings st event uid request)
    (h' : Brings st event uid' request') : request' = request := by
  obtain ⟨session, json, now, later, rfl, -, hparse, -⟩ := h
  obtain ⟨session', json', now', later', hevent, -, hparse', -⟩ := h'
  cases hevent
  exact Option.some.inj (hparse'.symm.trans hparse)

/-- An event does not save one message and mark another. -/
theorem not_marksNow {uid fromId groupId : Int32} {msgId : Int64} (h : PostsNow st event fromId groupId) :
    ¬MarksNow st event uid msgId := by
  obtain ⟨uid, request, hbrings, -, -, hposts⟩ := h
  rintro ⟨request', hbrings', hmarks, -⟩
  cases hbrings.request_unique hbrings'
  rcases hposts with ⟨htype, -⟩ | ⟨htype, -⟩ <;> simp [htype] at hmarks

/-! ## Group messages -/

/-- A group message is posted by a member of the group. -/
def PostsAsMember (st : Server) (event : Event) : Prop :=
  ∀ uid request, Brings st event uid request → typeField request = some .SendGroupMsg → 0 < uid →
    0 < intField request "groupId" 0 → stringField request "msg" [] ≠ [] →
      st.HasGroup (intField request "groupId" 0) ∧ st.IsMember uid (intField request "groupId" 0)

instance (st : Server) (event : Event) : Decidable (PostsAsMember st event) :=
  inferInstanceAs (Decidable (∀ uid request, Brings st event uid request → _))

theorem PostsAsMember.member {fromId groupId : Int32} (h : PostsAsMember st event)
    (hposts : PostsNow st event fromId groupId) (hpos : 0 < groupId) :
    st.HasGroup groupId ∧ st.IsMember fromId groupId := by
  obtain ⟨uid, request, hbrings, huid, rfl, ⟨-, rfl⟩ | ⟨htype, hmsg, rfl, -⟩⟩ := hposts
  · exact absurd hpos (by decide)
  · exact h _ request hbrings htype huid hpos hmsg

/-- The message is one of the file. -/
def InFile (env : Env) (file : Content) (m : StoredMessage) : Prop :=
  ∃ row ∈ (Server.boot env file).db.content .messages, identity (fromRow row) = identity m

/-- When the message was saved, its group existed and its sender was a member. -/
def SavedByMember (env : Env) (file : Content) (events : List Event) (m : StoredMessage) : Prop :=
  ∃ es event fs t t', events = es ++ event :: fs ∧ run (step env) (.boot env file) es = some t ∧
    step env t event = some t' ∧ (∀ row ∈ t.db.content .messages, identity (fromRow row) ≠ identity m) ∧
    (∃ row ∈ t'.db.content .messages, identity (fromRow row) = identity m) ∧
    t.HasGroup m.group_id ∧ t.IsMember m.from_id m.group_id

theorem SavedByMember.concat {m m' : StoredMessage} (h : SavedByMember env file events m)
    (hidentity : identity m' = identity m) : SavedByMember env file (events ++ [event]) m' := by
  obtain ⟨es, e, fs, t, t', rfl, hrun, hstep, hnew, hsaved, hmember⟩ := h
  refine ⟨es, e, fs ++ [event], t, t', by simp, hrun, hstep, ?_, ?_, ?_⟩
  · rwa [hidentity]
  · rwa [hidentity]
  · rwa [group_id_of_identity hidentity, from_id_of_identity hidentity]

/-- In a run whose group messages are all posted by members, every group message
that is stored was saved for a member of its group, if it is not from the file. -/
theorem group_messages_by_members {env : Env} {file : Content} {events : List Event} {st : Server}
    (hmembers : Along (step env) PostsAsMember (.boot env file) events)
    (hrun : run (step env) (.boot env file) events = some st) :
    ∀ row ∈ st.db.content .messages, 0 < (fromRow row).group_id →
      InFile env file (fromRow row) ∨ SavedByMember env file events (fromRow row) := by
  refine (history_of_alongAfter (P := fun events st => st.db.Settled .messages ∧
    ∀ row ∈ st.db.content .messages, 0 < (fromRow row).group_id →
      InFile env file (fromRow row) ∨ SavedByMember env file events (fromRow row))
    ⟨settled_startUp env file .messages, fun row hrow _ => .inl ⟨row, hrow, rfl⟩⟩ ?_
    (alongAfter_of_along (fun _ _ _ h => h) hmembers) hrun).2
  rintro es t event t' ht ⟨hsettled, hrows⟩ hmember hstep
  have horigins := origins_step hsettled hstep
  refine ⟨horigins.settled, fun row hrow hpos => ?_⟩
  rcases em (∃ old ∈ t.db.content .messages, identity (fromRow old) = identity (fromRow row)) with
    ⟨old, hold, hidentity⟩ | hnew
  · rw [← group_id_of_identity hidentity] at hpos
    rcases hrows old hold hpos with ⟨loaded, hloaded, heq⟩ | hsaved
    · exact .inl ⟨loaded, hloaded, heq.trans hidentity⟩
    · exact .inr (hsaved.concat hidentity.symm)
  · right
    cases horigins.rows row hrow with
    | kept old hold hidentity hread => exact absurd ⟨old, hold, hidentity.symm⟩ hnew
    | saved hposted hread =>
      refine ⟨es, event, [], t, t', rfl, ht, hstep, fun old hold heq => hnew ⟨old, hold, heq⟩,
        ⟨row, hrow, rfl⟩, ?_⟩
      exact hmember.member hposted hpos

/-- User 1000 creates a group and posts to it. -/
def ownPost : List Event :=
  [.accept 0, request 1 .RegisterUser [("nickname", text "a"), ("password", text "p")],
    request 1 .Login [("id", .int 1000), ("password", text "p")],
    request 1 .CreateGroup [("name", text "g")],
    request 1 .SendGroupMsg [("groupId", .int 2001), ("msg", text "hi")]]

theorem group_messages_by_members_own :
    ∃ st, run (step .ideal) (.boot .ideal .empty) ownPost = some st ∧
      ((st.db.content .messages).map fun row => (fromRow row).group_id) = [2001] ∧
        ∀ row ∈ st.db.content .messages, 0 < (fromRow row).group_id →
          InFile .ideal .empty (fromRow row) ∨ SavedByMember .ideal .empty ownPost (fromRow row) := by
  have hrun : ((run (step .ideal) (.boot .ideal .empty) ownPost).map fun st =>
      (st.db.content .messages).map fun row => (fromRow row).group_id) = some [2001] := by
    decide +kernel
  obtain ⟨st, hst, hgroups⟩ := Option.map_eq_some_iff.mp hrun
  exact ⟨st, hst, hgroups, group_messages_by_members (by decide +kernel) hst⟩

/-- A posted message is stored, whoever has posted it. -/
theorem stored_of_postsNow {fromId groupId : Int32} (h : PostsNow st event fromId groupId) (hpos : 0 < groupId)
    (hstep : step env st event = some st') : ∃ content, Stored fromId 0 groupId content st'.db := by
  obtain ⟨uid, request, ⟨session, json, now, later, rfl, hhandled, hparse, rfl⟩, huid, rfl, hposts⟩ := h
  rcases hposts with ⟨-, rfl⟩ | ⟨htype, hmsg, rfl, -⟩
  · exact absurd hpos (by decide)
  · exact ⟨_, (stored_of_frame hhandled hparse huid hmsg hstep).2 htype hpos⟩

/-- User 1000 posts to group 5, and there is no group. -/
def strayPost : List Event :=
  twoUsers ++ [request 1 .SendGroupMsg [("groupId", .int 5), ("msg", text "hi")]]

theorem stray_message_stored :
    ¬∀ env file events st, run (step env) (.boot env file) events = some st →
      ∀ row ∈ st.db.content .messages, 0 < (fromRow row).group_id →
        InFile env file (fromRow row) ∨ SavedByMember env file events (fromRow row) := by
  intro hall
  have hnone : Throughout (step .ideal) (fun st => (st.db.content .groups).isEmpty = true)
      (.boot .ideal .empty) strayPost := by
    decide +kernel
  have hrun : ((run (step .ideal) (.boot .ideal .empty) strayPost).map fun st =>
      (st.db.content .messages).map fun row => (fromRow row).group_id) = some [5] := by
    decide +kernel
  obtain ⟨st, hst, hgroups⟩ := Option.map_eq_some_iff.mp hrun
  obtain ⟨row, hrow, hgroup⟩ := List.mem_map.mp (hgroups ▸ List.mem_singleton_self (5 : Int32))
  rcases hall .ideal .empty strayPost st hst row hrow (by rw [hgroup]; decide) with ⟨old, hold, -⟩ | hsaved
  · rw [show (Server.boot .ideal .empty).db.content .messages = [] from rfl] at hold
    cases hold
  · obtain ⟨es, event, fs, t, t', hes, ht, -, -, -, ⟨group, hmem, -⟩, -⟩ := hsaved
    rw [hes] at hnone
    have hempty := hnone.left.last ht
    rw [List.isEmpty_iff.mp hempty] at hmem
    cases hmem

/-! ## Read messages -/

/-- The user is a recipient of the message. -/
def IsRecipient (st : Server) (user : Int32) (m : StoredMessage) : Prop :=
  if 0 < m.group_id then st.IsMember user m.group_id ∧ user ≠ m.from_id else user = m.to_id

instance (st : Server) (user : Int32) (m : StoredMessage) : Decidable (IsRecipient st user m) :=
  inferInstanceAs (Decidable (if 0 < m.group_id then st.IsMember user m.group_id ∧ user ≠ m.from_id
    else user = m.to_id))

/-- Whoever marks an unread message is logged in as one of its recipients. -/
def MarksAsRecipient (st : Server) (event : Event) : Prop :=
  ∀ uid request, Brings st event uid request →
    (typeField request = some .ReadReceipt ∧ 0 < uid ∨ typeField request = some .RequestHistory) →
      0 < int64Field request "msg_id" 0 → ∀ row ∈ st.db.content .messages,
        (fromRow row).msg_id = int64Field request "msg_id" 0 → (fromRow row).read = false →
          0 < uid ∧ IsRecipient st uid (fromRow row)

instance (st : Server) (event : Event) : Decidable (MarksAsRecipient st event) :=
  inferInstanceAs (Decidable (∀ uid request, Brings st event uid request → _))

/-- The message was read when the server started. -/
def ReadInFile (env : Env) (file : Content) (m : StoredMessage) : Prop :=
  ∃ row ∈ (Server.boot env file).db.content .messages, identity (fromRow row) = identity m ∧
    (fromRow row).read = true

/-- A recipient of the message has sent a request that names it. -/
def ReadByRecipient (env : Env) (file : Content) (events : List Event) (m : StoredMessage) : Prop :=
  ∃ es event fs t uid, events = es ++ event :: fs ∧ run (step env) (.boot env file) es = some t ∧
    MarksNow t event uid m.msg_id ∧ 0 < uid ∧ IsRecipient t uid m

theorem isRecipient_congr {user : Int32} {m m' : StoredMessage} (h : identity m' = identity m) :
    IsRecipient st user m' ↔ IsRecipient st user m := by
  have hto : m'.to_id = m.to_id := congrArg (fun t => t.2.2.1) h
  unfold IsRecipient
  rw [group_id_of_identity h, from_id_of_identity h, hto]

theorem ReadByRecipient.concat {m m' : StoredMessage} (h : ReadByRecipient env file events m)
    (hidentity : identity m' = identity m) : ReadByRecipient env file (events ++ [event]) m' := by
  obtain ⟨es, e, fs, t, uid, rfl, hrun, hmarks, hpos, hrecipient⟩ := h
  refine ⟨es, e, fs ++ [event], t, uid, by simp, hrun, ?_, hpos, (isRecipient_congr hidentity).mpr hrecipient⟩
  rwa [msg_id_of_identity hidentity]

/-- In a run in which only recipients mark unread messages, every stored message
that is read has been named by a recipient, if it was not read in the file. -/
theorem read_by_recipients {env : Env} {file : Content} {events : List Event} {st : Server}
    (hrecipients : Along (step env) MarksAsRecipient (.boot env file) events)
    (hrun : run (step env) (.boot env file) events = some st) :
    ∀ row ∈ st.db.content .messages, (fromRow row).read = true →
      ReadInFile env file (fromRow row) ∨ ReadByRecipient env file events (fromRow row) := by
  refine (history_of_alongAfter (P := fun events st => st.db.Settled .messages ∧
    ∀ row ∈ st.db.content .messages, (fromRow row).read = true →
      ReadInFile env file (fromRow row) ∨ ReadByRecipient env file events (fromRow row))
    ⟨settled_startUp env file .messages, fun row hrow hread => .inl ⟨row, hrow, rfl, hread⟩⟩ ?_
    (alongAfter_of_along (fun _ _ _ h => h) hrecipients) hrun).2
  rintro es t event t' ht ⟨hsettled, hrows⟩ hmarks hstep
  have horigins := origins_step hsettled hstep
  refine ⟨horigins.settled, fun row hrow hread => ?_⟩
  cases horigins.rows row hrow with
  | kept old hold hidentity hbecomes =>
    cases hold_read : (fromRow old).read with
    | true =>
      rcases hrows old hold hold_read with ⟨loaded, hloaded, heq, hread'⟩ | hnamed
      · exact .inl ⟨loaded, hloaded, heq.trans hidentity.symm, hread'⟩
      · exact .inr (hnamed.concat hidentity)
    | false =>
      obtain ⟨uid, hnow⟩ := (hbecomes hread).resolve_left (by simp [hold_read])
      have hnow' := hnow
      obtain ⟨request, hbrings, htype, hid, hpos⟩ := hnow'
      have hsame := msg_id_of_identity hidentity
      obtain ⟨huid, hrecipient⟩ := hmarks uid request hbrings htype (hid ▸ hpos) old hold
        (hsame.symm.trans hid) hold_read
      exact .inr ⟨es, event, [], t, uid, rfl, ht, hnow, huid, (isRecipient_congr hidentity).mpr hrecipient⟩
  | saved hposted hbecomes =>
    obtain ⟨uid, hnow⟩ := hbecomes hread
    exact absurd hnow (not_marksNow hposted)

/-- User 1000 writes to user 1001. -/
def greeting : List Event :=
  twoUsers ++ [request 1 .SendMsg [("toId", .int 1001), ("msg", text "hi")]]

/-- User 1001 confirms the message. -/
theorem read_by_recipients_receipt :
    ∃ st, run (step .ideal) (.boot .ideal .empty)
        (greeting ++ [request 2 .ReadReceipt [("msg_id", .int 1), ("toId", .int 1000)]]) = some st ∧
      ((st.db.content .messages).map fun row => (fromRow row).read) = [true] ∧
        ∀ row ∈ st.db.content .messages, (fromRow row).read = true →
          ReadInFile .ideal .empty (fromRow row) ∨ ReadByRecipient .ideal .empty
            (greeting ++ [request 2 .ReadReceipt [("msg_id", .int 1), ("toId", .int 1000)]]) (fromRow row) := by
  have hrun : ((run (step .ideal) (.boot .ideal .empty)
      (greeting ++ [request 2 .ReadReceipt [("msg_id", .int 1), ("toId", .int 1000)]])).map fun st =>
        (st.db.content .messages).map fun row => (fromRow row).read) = some [true] := by
    decide +kernel
  obtain ⟨st, hst, hread⟩ := Option.map_eq_some_iff.mp hrun
  exact ⟨st, hst, hread, read_by_recipients (by decide +kernel) hst⟩

/-- Session 3, which is not logged in, asks for a history and names the message. -/
def snoop : List Event := greeting ++ [request 3 .RequestHistory [("msg_id", .int 1)]]

theorem unread_message_marked :
    ¬∀ env file events st, run (step env) (.boot env file) events = some st →
      ∀ row ∈ st.db.content .messages, (fromRow row).read = true →
        ReadInFile env file (fromRow row) ∨ ReadByRecipient env file events (fromRow row) := by
  intro hall
  have hnobody : Along (step .ideal) (fun st event => ∀ uid request, Brings st event uid request →
      ¬(0 < uid ∧ Marks uid request 1)) (.boot .ideal .empty) snoop := by
    decide +kernel
  have hrun : ((run (step .ideal) (.boot .ideal .empty) snoop).map fun st =>
      (st.db.content .messages).map fun row => ((fromRow row).msg_id, (fromRow row).read)) =
        some [(1, true)] := by
    decide +kernel
  obtain ⟨st, hst, hrows⟩ := Option.map_eq_some_iff.mp hrun
  obtain ⟨row, hrow, hpair⟩ := List.mem_map.mp (hrows ▸ List.mem_singleton_self ((1 : Int64), true))
  obtain ⟨hid, hread⟩ := Prod.mk.inj hpair
  rcases hall .ideal .empty snoop st hst row hrow hread with ⟨old, hold, -⟩ | hnamed
  · rw [show (Server.boot .ideal .empty).db.content .messages = [] from rfl] at hold
    cases hold
  · obtain ⟨es, event, fs, t, uid, hes, ht, ⟨request, hbrings, hmarks⟩, hpos, -⟩ := hnamed
    rw [hid] at hmarks
    rw [hes, run_append, ht, Option.bind_some] at hst
    obtain ⟨t', ht', -⟩ := run_cons_eq_some.mp hst
    exact alongAfter_of_along (fun _ _ _ h => h) hnobody es event fs t t' hes ht ht' uid request hbrings
      ⟨hpos, hmarks⟩

end TcpServer

end LanChat
