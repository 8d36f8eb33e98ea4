import LanChat.Server.Provenance
import LanChat.Server.OfflineLoss

/-!
# Whom a change of a message is announced to

`edit`, `softDelete` and `addReaction` decide by the stored row; the announcement
goes to the user or to the group that the request names. `notified_iff_covers`
says when these are the participants of the message.

A login loads the messages and the members of the groups. From then on both
tables are in memory, so that neither the change nor the announcement depends on
SQLite (`inMemory_of_run`).
-/

namespace LanChat

open Lib Json

/-! ## What a login loads -/

namespace MessageRouter

open Database

section Login

variable {env : Env} {session : SessionId} {uid : Int32} {request : Object} {user : UserInfo}
  {name : TableName}

theorem sat_any {α : Type} {P : Server → Prop} (c : RouterM α) :
    Cmd.Sat P c (fun _ _ => True) (fun _ _ => True) fun _ => True :=
  fun _ _ => ⟨fun _ _ => trivial, fun _ _ => trivial, fun _ _ => trivial⟩

/-- A repository call keeps a table in memory that has been loaded. -/
theorem Guarded.keepsLoaded {α : Type} {c : DbM α} (h : Guarded (InMemory name) (InMemory name) c) :
    Cmd.Sat (InMemory name) c (fun _ => InMemory name) (fun _ _ => True) fun _ => True :=
  h.weaken (fun _ h => h) (fun _ _ h => h) (fun _ _ _ => trivial) fun _ _ => trivial

theorem sat_groupsForUser_loaded (userId : Int32) :
    Cmd.Sat (fun _ => True) (ChannelRepository.groupsForUser env userId) (fun _ => InMemory .group_members)
      (fun _ _ => True) fun _ => True :=
  (sat_query_loaded _).bind fun memberships =>
    Guarded.keepsLoaded ((writes_inMemory env .group_members).groupsOf memberships)

theorem sat_offlineForUser_loaded (userId limit : Int32) :
    Cmd.Sat (fun _ => True) (MessageRepository.offlineForUser env userId limit) (fun _ => InMemory .messages)
      (fun _ _ => True) fun _ => True :=
  (MessageRepository.sat_select_loaded _ limit).bind fun _ => Guarded.keepsLoaded <|
    (guarded_each fun _ => ((writes_inMemory env .messages).to .messages).markDelivered _).bind
      fun _ => guarded_pure _

theorem sat_acceptLogin_members :
    Cmd.Sat (fun _ => True) (acceptLogin env session uid user) (fun _ s => InMemory .group_members s.db)
      (fun _ _ => True) fun _ => True := by
  have hwrites := writes_inMemory env .group_members
  exact (sat_any _).bind fun _ => (sat_any _).bind fun _ => (sat_any _).bind fun _ => (sat_any _).bind fun _ =>
    (sat_any _).bind fun _ => (sat_any _).bind fun _ =>
      (sat_onDb_stored (sat_groupsForUser_loaded uid)).bind fun _ => ((guards_deliver _ _).bind fun _ =>
        (guards_deliverOffline ((hwrites.to .messages).offlineForUser hwrites.toReads uid 100)).bind fun _ =>
          guards_broadcastPresence hwrites.toReads _ _).afterSaving

theorem sat_acceptLogin_messages :
    Cmd.Sat (fun _ => True) (acceptLogin env session uid user) (fun _ s => InMemory .messages s.db)
      (fun _ _ => True) fun _ => True := by
  have hwrites := writes_inMemory env .messages
  have hoffline : Cmd.Sat (fun _ => True) (deliverOffline env session uid) (fun _ s => InMemory .messages s.db)
      (fun _ _ => True) fun _ => True :=
    (sat_onDb_stored (sat_offlineForUser_loaded uid 100)).bind fun _ =>
      (Guards.ite (fun _ => guards_pure ()) fun _ => guards_deliverContent _ _ _).afterSaving
  exact (sat_any _).bind fun _ => (sat_any _).bind fun _ => (sat_any _).bind fun _ => (sat_any _).bind fun _ =>
    (sat_any _).bind fun _ => (sat_any _).bind fun _ => (sat_any _).bind fun _ => (sat_any _).bind fun _ =>
      hoffline.bind fun _ => (guards_broadcastPresence hwrites.toReads _ _).afterSaving

/-- A login leaves the roster as it is, or is accepted. -/
theorem sat_handleLogin_loaded {ρ : Roster}
    (haccept : ∀ uid user, Cmd.Sat (fun _ => True) (acceptLogin env session uid user)
      (fun _ s => InMemory name s.db) (fun _ _ => True) fun _ => True) :
    Cmd.Sat (At ρ fun _ => True) (handleLogin env session request)
      (fun _ s => s.roster = ρ ∨ InMemory name s.db) (fun _ _ => True) fun _ => True := by
  have hrefused : ∀ payload, Cmd.Sat (At ρ fun _ => True) (deliver session payload)
      (fun _ s => s.roster = ρ ∨ InMemory name s.db) (fun _ _ => True) fun _ => True :=
    fun payload => (sat_deliver fun _ _ => trivial).post fun _ _ h => .inl h.1
  refine Cmd.sat_ite (fun _ => hrefused _) fun _ => (sat_onDb_any _).bind fun _ =>
    Cmd.sat_ite (fun _ => hrefused _) fun _ => (sat_onDb_any _).bind fun found => ?_
  cases found with
  | none => exact hrefused _
  | some user =>
    exact (haccept _ user).weaken (fun _ _ => trivial) (fun _ _ h => .inr h) (fun _ _ _ => trivial)
      fun _ _ => trivial

end Login

end MessageRouter

namespace TcpServer

open Database MessageRouter

section InMemory

variable {env : Env} {db : Database} {events : List Event} {event : Event} {st st' : Server}
  {t : SessionId} {name : TableName}

theorem userId_unbindUser_or (pool : SessionPool) (uid : Int32) (t : SessionId) :
    (pool.unbindUser uid).userId t = 0 ∨ (pool.unbindUser uid).userId t = pool.userId t := by
  unfold SessionPool.unbindUser
  split
  · exact .inr rfl
  · split
    · exact .inr rfl
    · rw [SessionPool.userId_eraseUser, SessionPool.userId_setUserId]
      split
      · exact .inl rfl
      · exact .inr rfl

/-- A session gets a user only by a login. -/
theorem login_of_user (hstep : step env st event = some st') (hold : st.userId t = 0) (hnew : st'.userId t ≠ 0) :
    ∃ session json now later request, event = .frame session json now later ∧ Handled st session now ∧
      readObject json = some request ∧ typeField request = some .Login := by
  have huser : st'.userId t = (rosterOf env st event).pool.userId t :=
    congrArg (fun r : Roster => r.pool.userId t) (roster_step hstep)
  have hold : st.roster.pool.userId t = 0 := hold
  rw [huser] at hnew
  cases event with
  | accept now =>
    simp only [rosterOf, Roster.accept, SessionPool.userId_add, SessionPool.userId_setUserId] at hnew
    split at hnew
    · exact absurd rfl hnew
    · exact absurd hold hnew
  | frame session json now later =>
    simp only [rosterOf] at hnew
    split at hnew
    · exact absurd hold hnew
    next hreading =>
    split at hnew
    · exact absurd ((Roster.userId_removeAll [session] t).trans hold) hnew
    next hgranted =>
    split at hnew
    · exact absurd hold hnew
    next request hparse =>
    refine ⟨session, json, now, later, request, rfl, ⟨by simpa using hreading, by simpa using hgranted⟩, hparse, ?_⟩
    by_contra hlogin
    refine hnew ?_
    unfold rosterAfter
    split
    · next htype => exact absurd htype hlogin
    · simp only [Roster.logout]
      split
      · exact (userId_unbindUser_or _ _ t).elim id fun h => h.trans hold
      · exact hold
    · exact hold
  | readError session =>
    simp only [rosterOf] at hnew
    split at hnew
    · exact absurd ((Roster.userId_removeAll [session] t).trans hold) hnew
    · exact absurd hold hnew
  | sweep now => exact absurd ((Roster.userId_removeAll _ t).trans hold) hnew

/-- Once a session has a user, the table is in memory. -/
theorem inMemory_step
    (haccept : ∀ session uid user, Cmd.Sat (fun _ => True) (acceptLogin env session uid user)
      (fun _ s => InMemory name s.db) (fun _ _ => True) fun _ => True)
    (hst : (∃ t, st.userId t ≠ 0) → InMemory name st.db) (hstep : step env st event = some st') :
    (∃ t, st'.userId t ≠ 0) → InMemory name st'.db := by
  rintro ⟨t, hnew⟩
  rcases em (∃ t, st.userId t ≠ 0) with hsome | hnone
  · exact invariant_step (writes_inMemory env name) (hst hsome) hstep
  · have hold : st.userId t = 0 := by_contra fun h => hnone ⟨t, h⟩
    obtain ⟨session, json, now, later, request, rfl, hhandled, hparse, htype⟩ := login_of_user hstep hold hnew
    obtain ⟨s, hroster, -, hrun⟩ := @handle_frame env session st json now later request hhandled
      ((parseObject_of_step hhandled hstep).trans hparse)
      (by rw [htype]; decide)
    have hlogin : dispatch env session request = handleLogin env session request := by
      unfold dispatch
      rw [htype]
    obtain ⟨hok, hstate⟩ := of_step hstep
    rw [hrun, hlogin] at hok hstate
    rcases (sat_handleLogin_loaded (haccept session) s ⟨hroster, trivial⟩).2.1 () hok with hsame | hloaded
    · rw [hstate, Server.userId_of_roster hsame] at hnew
      exact absurd hold hnew
    · rw [hstate]
      exact hloaded

theorem inMemory_of_run (hrun : run (step env) (.start db) events = some st) (ht : st.userId t ≠ 0) :
    InMemory .messages st.db ∧ InMemory .group_members st.db := by
  have hstart : ∀ name, (∃ t, (Server.start db).userId t ≠ 0) → InMemory name (Server.start db).db :=
    fun _ ⟨_, ht⟩ => absurd rfl ht
  exact ⟨invariant_run (fun _ _ _ h hstep => inMemory_step (fun _ _ _ => sat_acceptLogin_messages) h hstep)
      (hstart .messages) hrun ⟨t, ht⟩,
    invariant_run (fun _ _ _ h hstep => inMemory_step (fun _ _ _ => sat_acceptLogin_members) h hstep)
      (hstart .group_members) hrun ⟨t, ht⟩⟩

end InMemory

end TcpServer

/-! ## The announcement -/

namespace MessageRouter

open Database MessageRepository

/-- The request of the user `uid` changes the stored row. -/
def changes (uid : Int32) (request : Object) (row : Row) : Bool :=
  let msgId := int64Field request "msg_id" 0
  decide (0 < uid ∧ 0 < msgId) &&
    match typeField request with
    | some .MessageEdit => isOwn msgId uid row && !(stringField request "msg" [] = [] : Bool)
    | some .MessageDelete => isOwn msgId uid row
    | some .MessageReaction =>
      !(stringField request "reaction" [] = [] : Bool) && (hasMsgId msgId row && !rowBool row "deleted")
    | _ => false

/-- The type of the announcement. -/
def returnType : Option MsgType → Option MsgType
  | some .MessageEdit => some .MessageEditReturn
  | some .MessageDelete => some .MessageDeleteReturn
  | some .MessageReaction => some .MessageReactionReturn
  | _ => none

/-- The user is one to whom the request addresses the announcement. -/
def Named (st : Server) (uid : Int32) (request : Object) (user : Int32) : Prop :=
  if 0 < intField request "groupId" 0 then st.IsMember user (intField request "groupId" 0)
  else user = uid ∨ 0 < intField request "toId" 0 ∧ user = intField request "toId" 0

/-- The roster and the members of the groups are the same. -/
structure SameAudience (st s : Server) : Prop where
  roster : s.roster = st.roster
  members : s.db.tables .group_members = st.db.tables .group_members

section Announcement

variable {env : Env} {st s : Server} {session target : SessionId} {uid toId groupId : Int32} {request : Object}
  {payload : Object} {carries : Server → List StoredMessage} {users : List Int32} {rows : RowList} {row : Row}
  {P : Object → Prop}

/-! ### Who is addressed -/

theorem fits_of_deliverToUsers (hok : (deliverToUsers users payload carries st).result = .ok ())
    (hfound : users.filterMap st.pool.findByUserId ≠ []) :
    (serialize payload).length ≤ FrameCodec.MaxFrameBytes := by
  induction users with
  | nil => exact absurd rfl hfound
  | cons user users ih =>
    have hcons : deliverToUsers (user :: users) payload carries =
        deliverToUser user payload carries >>= fun _ => deliverToUsers users payload carries := rfl
    rw [hcons] at hok
    obtain ⟨_, hhead, hrest⟩ := Cmd.result_bind_eq_ok.mp hok
    cases hfind : st.pool.findByUserId user with
    | none =>
      rw [deliverToUser_of_none hfind] at hrest
      exact ih hrest (by simpa [hfind] using hfound)
    | some target =>
      rw [deliverToUser_of_some hfind] at hhead
      have hfits := @sat_deliverContent_fits st.roster (fun _ => True) (fun _ => True) target payload carries
        fun _ _ => trivial
      exact ((hfits st ⟨rfl, trivial⟩).2.1 _ hhead).1

/-- When delivering returns, every session has been handed the payload. -/
theorem notified_of_deliverToUsers (hP : P payload)
    (hok : (deliverToUsers users payload carries st).result = .ok ()) :
    (∃ d ∈ (deliverToUsers users payload carries st).out, d.target = target ∧ P d.payload) ↔
      ∃ user ∈ users, st.pool.findByUserId user = some target := by
  have hhanded : handed st.pool users payload = users.filterMap st.pool.findByUserId := by
    rcases eq_or_ne (users.filterMap st.pool.findByUserId) [] with hnone | hfound
    · simp [handed, hnone]
    · exact if_pos (fits_of_deliverToUsers hok hfound)
  obtain ⟨htargets, hfacts⟩ := out_deliverToUsers users payload carries st
  rw [hhanded] at htargets
  rw [← List.mem_filterMap, ← htargets, List.mem_map]
  constructor
  · rintro ⟨d, hd, htarget, -⟩
    exact ⟨d, hd, htarget⟩
  · rintro ⟨d, hd, htarget⟩
    refine ⟨d, hd, htarget, ?_⟩
    rw [(hfacts d hd).1]
    exact hP

/-- On the members in memory, those whom `deliverToConversation` addresses are known. -/
theorem result_addressees (hmembers : s.db.tables .group_members = some rows) :
    ∃ users, (addressees env uid toId groupId s.db).result = .ok users ∧ ∀ user, user ∈ users ↔
      if 0 < groupId then s.IsMember user groupId else user = uid ∨ 0 < toId ∧ user = toId := by
  unfold addressees
  split
  · obtain ⟨-, hok, herror⟩ := @yields_query env .group_members rows (ChannelRepository.isGroup groupId) s.db
      (.inl hmembers)
    cases hquery : (query env .group_members (fun row => .ok (ChannelRepository.isGroup groupId row)) s.db).result with
    | error e => exact (herror e hquery).elim
    | ok found =>
      refine ⟨_, Cmd.result_bind_eq_ok.mpr ⟨found, hquery, rfl⟩, fun user => ?_⟩
      rw [(hok found hquery).1, Server.IsMember, content_of_cached hmembers]
      simp only [List.mem_map, List.mem_filter, ChannelRepository.isMembership, ChannelRepository.isGroup,
        Bool.and_eq_true, decide_eq_true_eq]
      exact exists_congr fun row => by tauto
  · refine ⟨_, rfl, fun user => ?_⟩
    split
    · next hto => simp [hto.1]
    · next hto =>
      rw [List.mem_singleton]
      refine ⟨.inl, ?_⟩
      rintro (huser | ⟨hpos, huser⟩)
      · exact huser
      · exact huser.trans (by_contra fun hne => hto ⟨hpos, hne⟩)

theorem notified_of_deliverToConversation (hP : P payload) (hmembers : s.db.tables .group_members = some rows)
    (hok : (deliverToConversation env payload uid toId groupId carries s).result = .ok ()) :
    (∃ d ∈ (deliverToConversation env payload uid toId groupId carries s).out,
        d.target = target ∧ P d.payload) ↔
      ∃ user, (if 0 < groupId then s.IsMember user groupId else user = uid ∨ 0 < toId ∧ user = toId) ∧
        s.pool.findByUserId user = some target := by
  obtain ⟨users, husers, hmem⟩ := @result_addressees env s uid toId groupId rows hmembers
  have hrun : onDb (addressees env uid toId groupId) s =
      ⟨.ok users, { s with db := (addressees env uid toId groupId s.db).state }, []⟩ := by
    rw [onDb, Cmd.zoom_apply, husers]
  rw [deliverToConversation_eq, Cmd.bind_of_run _ hrun] at hok ⊢
  rw [notified_of_deliverToUsers hP hok]
  exact exists_congr fun user => and_congr_left' (hmem user)

/-! ### The change -/

theorem typeField_append_targetFields {type : MsgType} {fields : List (String × Value)}
    (h : OrdMap.find? (object fields) (lit "type") = some (ofInt32 type.toInt)) :
    typeField (object (fields ++ targetFields toId groupId)) = some type :=
  typeField_of_find? <| (find?_append_targetFields fields toId groupId (by decide) (by decide)).trans h

/-- A change that succeeds and leaves the members of the groups alone. -/
theorem run_change {b : Prop} [Decidable b] {c : DbM Bool} (hb : b) (hspares : Spares .group_members c)
    (hresult : (c st.db).result = .ok true) :
    ∃ s, SameAudience st s ∧ Cmd.andAlso b (onDb c) st = ⟨.ok true, s, []⟩ := by
  refine ⟨{ st with db := (c st.db).state }, ⟨rfl, hspares.tables st.db⟩, ?_⟩
  rw [Cmd.andAlso, if_pos hb, onDb, Cmd.zoom_apply, hresult]

theorem result_update_hit {p : Row → Bool} {u : Row → Row} {db : Database}
    (hrows : db.tables .messages = some rows) (hrow : row ∈ rows) (hp : p row = true) :
    (update env .messages (fun row => .ok (p row)) u db).result = .ok true := by
  rw [result_update_of_cached hrows, List.any_eq_true.mpr ⟨row, hrow, hp⟩]

/-- A request that changes a stored row is announced. -/
theorem dispatch_of_changes (hrows : st.db.tables .messages = some rows) (hrow : row ∈ rows)
    (h : changes (st.userId session) request row = true) :
    ∃ payload carries s, typeField payload = returnType (typeField request) ∧ SameAudience st s ∧
      dispatch env session request st = deliverToConversation env payload (st.userId session)
        (intField request "toId" 0) (intField request "groupId" 0) carries s := by
  rw [changes, Bool.and_eq_true, decide_eq_true_eq] at h
  obtain ⟨hpos, h⟩ := h
  split at h
  · next htype =>
    obtain ⟨s, hsame, hrun⟩ := @run_change st _ _
      (edit env (int64Field request "msg_id" 0) (st.userId session) (stringField request "msg" [])) hpos
      (spares_time.bind fun _ => spares_update (by decide) _ _) (result_update_hit hrows hrow h)
    refine ⟨editReply true (int64Field request "msg_id" 0) (st.userId session) (stringField request "msg" [])
        (env.time s.db.readings) (intField request "toId" 0) (intField request "groupId" 0),
      storedMessages (int64Field request "msg_id" 0) (st.userId session),
      { s with db := { s.db with readings := s.db.readings + 1 } }, ?_, ⟨hsame.roster, hsame.members⟩, ?_⟩
    · rw [htype]
      exact typeField_append_targetFields (by simp [find?_object])
    · simp only [dispatch, htype, handleMessageEdit]
      rw [Cmd.bind_of_run _ (run_authenticatedUserId st session), Cmd.bind_of_run _ hrun]
      rfl
  · next htype =>
    obtain ⟨s, hsame, hrun⟩ := @run_change st _ _
      (softDelete env (int64Field request "msg_id" 0) (st.userId session)) hpos
      (spares_time.bind fun _ => spares_update (by decide) _ _) (result_update_hit hrows hrow h)
    refine ⟨deleteReply true (int64Field request "msg_id" 0) (st.userId session)
        (env.time s.db.readings) (intField request "toId" 0) (intField request "groupId" 0), fun _ => [],
      { s with db := { s.db with readings := s.db.readings + 1 } }, ?_, ⟨hsame.roster, hsame.members⟩, ?_⟩
    · rw [htype]
      exact typeField_append_targetFields (by simp [find?_object])
    · simp only [dispatch, htype, handleMessageDelete]
      rw [Cmd.bind_of_run _ (run_authenticatedUserId st session), Cmd.bind_of_run _ hrun]
      rfl
  · next htype =>
    rw [Bool.and_eq_true, Bool.not_eq_true', decide_eq_false_iff_not] at h
    obtain ⟨hreaction, h⟩ := h
    have hadd : addReaction env (int64Field request "msg_id" 0) (st.userId session)
        (stringField request "reaction" []) = update env .messages
          (fun row => .ok (hasMsgId (int64Field request "msg_id" 0) row && !rowBool row "deleted"))
          (withReaction (intText (st.userId session).toInt64 ++ Ascii.colon :: stringField request "reaction" [])) :=
      if_neg hreaction
    obtain ⟨s, hsame, hrun⟩ := @run_change st _ _
      (addReaction env (int64Field request "msg_id" 0) (st.userId session) (stringField request "reaction" []))
      hpos (by rw [hadd]; exact spares_update (by decide) _ _) (by rw [hadd]; exact result_update_hit hrows hrow h)
    refine ⟨reactionReply true (int64Field request "msg_id" 0) (st.userId session)
        (stringField request "reaction" []) (intField request "toId" 0) (intField request "groupId" 0),
      fun _ => [], s, ?_, hsame, ?_⟩
    · rw [htype]
      exact typeField_append_targetFields (by simp [find?_object])
    · simp only [dispatch, htype, handleMessageReaction]
      rw [Cmd.bind_of_run _ (run_authenticatedUserId st session), Cmd.bind_of_run _ hrun]
      rfl
  · cases h

end Announcement

end MessageRouter

namespace TcpServer

open Database MessageRouter MessageRepository

/-- The user takes part in the conversation of the message. -/
def Participant (st : Server) (user : Int32) (m : StoredMessage) : Prop :=
  if 0 < m.group_id then st.IsMember user m.group_id else user = m.from_id ∨ user = m.to_id

/-- The session is an online session of a participant. -/
def Online (st : Server) (m : StoredMessage) (target : SessionId) : Prop :=
  target ∈ st.pool.sessions ∧ 0 < st.userId target ∧ Participant st (st.userId target) m

/-- Handling the event delivers the announcement of the request to the session. -/
def Notified (env : Env) (st : Server) (event : Event) (request : Object) (target : SessionId) : Prop :=
  ∃ d ∈ (handle env event st).out, d.target = target ∧ typeField d.payload = returnType (typeField request)

/-- The request names the participants that are online, each of them on the
session that the index holds for the user, and no other user that is online. -/
structure Covers (st : Server) (uid : Int32) (request : Object) (m : StoredMessage) : Prop where
  named : ∀ target, Online st m target → Named st uid request (st.userId target)
  indexed : ∀ target, Online st m target → st.pool.user_to_session (st.userId target) = some target
  participants : ∀ user target, Named st uid request user → st.pool.findByUserId user = some target →
    Participant st user m

section Notices

variable {env : Env} {db : Database} {events : List Event} {event : Event} {st st' : Server} {uid : Int32}
  {request : Object} {row : Row} {target : SessionId}

/-- The sessions that receive the announcement are those of the users whom the
request names. -/
theorem notified_iff_named (hrun : run (step env) (.start db) events = some st)
    (hbrings : Brings st event uid request) (hstep : step env st event = some st')
    (hrow : row ∈ st.db.content .messages) (hchanges : changes uid request row = true) :
    Notified env st event request target ↔
      ∃ user, Named st uid request user ∧ st.pool.findByUserId user = some target := by
  obtain ⟨session, json, now, later, rfl, hhandled, hparse, rfl⟩ := hbrings
  have huser : st.userId session ≠ 0 := by
    intro hzero
    rw [hzero] at hchanges
    cases hchanges
  have hheartbeat : typeField request ≠ some .Heartbeat := by
    intro htype
    simp [changes, htype] at hchanges
  obtain ⟨hmessages, hmembers⟩ := inMemory_of_run hrun huser
  obtain ⟨rows, hrows⟩ := Option.isSome_iff_exists.mp hmessages
  obtain ⟨members, hmembers⟩ := Option.isSome_iff_exists.mp hmembers
  rw [content_of_cached hrows] at hrow
  obtain ⟨s, hroster, hdb, hhandle⟩ := @handle_frame env session st json now later request hhandled
    ((parseObject_of_step hhandled hstep).trans hparse) hheartbeat
  have hsame := Server.userId_of_roster hroster session
  rw [← hsame] at hchanges
  rw [← hdb] at hrows
  obtain ⟨payload, carries, s', htype, haudience, hdispatch⟩ := @dispatch_of_changes env s session request rows row
    hrows hrow hchanges
  obtain ⟨hok, -⟩ := of_step hstep
  unfold Notified
  rw [hhandle, hdispatch] at hok ⊢
  have hcached : s'.db.tables .group_members = some members := by rw [haudience.members, hdb, hmembers]
  refine (notified_of_deliverToConversation (P := fun payload => typeField payload = returnType (typeField request))
    htype hcached hok).trans ?_
  rw [hsame]
  refine exists_congr fun user => and_congr ?_ ?_
  · unfold Named Server.IsMember
    rw [content_of_cached hcached, content_of_cached hmembers]
  · rw [findByUserId_of_roster haudience.roster, findByUserId_of_roster hroster]

/-- An announcement reaches exactly the online sessions of the participants of the
stored message when the request covers them. -/
theorem notified_iff_covers {env : Env} {db : Database} {events : List Event} {event : Event} {st st' : Server}
    {uid : Int32} {request : Object} {row : Row} (hrun : run (step env) (.start db) events = some st)
    (hbrings : Brings st event uid request) (hstep : step env st event = some st')
    (hrow : row ∈ st.db.content .messages) (hchanges : changes uid request row = true) :
    (∀ target, Notified env st event request target ↔ Online st (fromRow row) target) ↔
      Covers st uid request (fromRow row) := by
  have hnotified := fun target => @notified_iff_named env db events event st st' uid request row target hrun
    hbrings hstep hrow hchanges
  have hindexed : st.pool.Indexed := SessionPool.indexed_bare.mp (kept_of_run hrun).indexed
  have hfound : ∀ {user target}, st.pool.findByUserId user = some target →
      st.pool.user_to_session user = some target ∧ target ∈ st.pool.sessions ∧ st.userId target = user ∧
        0 < user := by
    intro user target h
    obtain ⟨hindex, hmem⟩ := (SessionPool.findByUserId_eq_some _ _).mp h
    exact ⟨hindex, hmem, (hindexed.sound _ _ hindex).2, hindexed.positive _ _ hindex⟩
  constructor
  · intro h
    refine ⟨fun target honline => ?_, fun target honline => ?_, fun user target hnamed hfind => ?_⟩
    · obtain ⟨user, hnamed, hfind⟩ := (hnotified target).mp ((h target).mpr honline)
      obtain ⟨-, -, rfl, -⟩ := hfound hfind
      exact hnamed
    · obtain ⟨user, -, hfind⟩ := (hnotified target).mp ((h target).mpr honline)
      obtain ⟨hindex, -, rfl, -⟩ := hfound hfind
      exact hindex
    · obtain ⟨-, -, rfl, -⟩ := hfound hfind
      exact ((h target).mp ((hnotified target).mpr ⟨_, hnamed, hfind⟩)).2.2
  · intro hcovers target
    rw [hnotified]
    constructor
    · rintro ⟨user, hnamed, hfind⟩
      have hpart := hcovers.participants user target hnamed hfind
      obtain ⟨-, hmem, rfl, hpos⟩ := hfound hfind
      exact ⟨hmem, hpos, hpart⟩
    · intro honline
      exact ⟨_, hcovers.named target honline,
        (SessionPool.findByUserId_eq_some _ _).mpr ⟨hcovers.indexed target honline, honline.1⟩⟩

end Notices

/-- User 1000 edits the message to user 1001. -/
def edit (fields : List (String × Value)) : Event :=
  request 1 .MessageEdit ([("msg_id", .int 1), ("msg", text "yo")] ++ fields)

/-- The edit succeeds, while user 1001 is online on session 2. -/
theorem exists_edit {fields : List (String × Value)} {targets : List SessionId}
    (h : ((run (step .ideal) (.boot .ideal .empty) greeting).bind fun st =>
      (readObject (requestText .MessageEdit ([("msg_id", .int 1), ("msg", text "yo")] ++ fields))).map fun sent =>
        ((decide (Handled st 1 0), st.userId 1, (step .ideal st (edit fields)).isSome),
          ((st.db.content .messages).any fun row => changes 1000 sent row &&
            decide ((fromRow row).group_id = 0 ∧ (fromRow row).to_id = 1001)),
          decide (2 ∈ st.pool.sessions), st.userId 2, (handle .ideal (edit fields) st).out.map Delivery.target)) =
      some ((true, 1000, true), true, true, 1001, targets)) :
    ∃ st st' sent row, run (step .ideal) (.boot .ideal .empty) greeting = some st ∧
      Brings st (edit fields) 1000 sent ∧ step .ideal st (edit fields) = some st' ∧
      row ∈ st.db.content .messages ∧ changes 1000 sent row = true ∧ Online st (fromRow row) 2 ∧
      (handle .ideal (edit fields) st).out.map Delivery.target = targets := by
  obtain ⟨st, hst, h⟩ := Option.bind_eq_some_iff.mp h
  obtain ⟨sent, hparse, h⟩ := Option.map_eq_some_iff.mp h
  simp only [Prod.mk.injEq, decide_eq_true_eq, List.any_eq_true, Bool.and_eq_true] at h
  obtain ⟨⟨hhandled, huser, hstep⟩, ⟨row, hrow, hchanges, hgroup, hto⟩, hmem, hother, htargets⟩ := h
  obtain ⟨st', hstep⟩ := Option.isSome_iff_exists.mp hstep
  refine ⟨st, st', sent, row, hst, ⟨1, _, 0, 0, rfl, hhandled, hparse, huser⟩, hstep, hrow, hchanges,
    ⟨hmem, by rw [hother]; decide, ?_⟩, htargets⟩
  rw [Participant, hgroup, if_neg (by decide), hother]
  exact .inr hto.symm

/-- The edit names user 1001, and is announced on both sessions. -/
theorem notified_iff_covers_edit :
    ∃ st st' sent row, run (step .ideal) (.boot .ideal .empty) greeting = some st ∧
      Brings st (edit [("toId", .int 1001)]) 1000 sent ∧ step .ideal st (edit [("toId", .int 1001)]) = some st' ∧
      row ∈ st.db.content .messages ∧ changes 1000 sent row = true ∧
      ((∀ target, Notified .ideal st (edit [("toId", .int 1001)]) sent target ↔ Online st (fromRow row) target) ↔
        Covers st 1000 sent (fromRow row)) := by
  obtain ⟨st, st', sent, row, hst, hbrings, hstep, hrow, hchanges, -, -⟩ :=
    @exists_edit [("toId", .int 1001)] [1, 2] (by decide +kernel)
  exact ⟨st, st', sent, row, hst, hbrings, hstep, hrow, hchanges,
    notified_iff_covers hst hbrings hstep hrow hchanges⟩

/-- The edit names nobody, and user 1001 does not hear of it. -/
theorem participant_not_notified :
    ¬∀ env db events st event st' uid sent row, run (step env) (.start db) events = some st →
      Brings st event uid sent → step env st event = some st' → row ∈ st.db.content .messages →
      changes uid sent row = true →
        ∀ target, Notified env st event sent target ↔ Online st (fromRow row) target := by
  intro hall
  obtain ⟨st, st', sent, row, hst, hbrings, hstep, hrow, hchanges, honline, htargets⟩ :=
    @exists_edit [] [1] (by decide +kernel)
  obtain ⟨d, hd, htarget, -⟩ := (hall _ _ _ st _ st' _ sent row hst hbrings hstep hrow hchanges 2).mpr honline
  have hmem : d.target ∈ [1] := htargets ▸ List.mem_map_of_mem hd
  rw [htarget] at hmem
  revert hmem
  decide

end TcpServer

end LanChat
