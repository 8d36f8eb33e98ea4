import LanChat.Server.Roster

/-!
# What a request hands out

`Hands` lists, for a request of a session, every kind of delivery that routing
it can make, with what the server knows at that moment. `dispatch_hands` proves
the list complete, one lemma for each handler. The facts about confidentiality
and about senders are read off the list.
-/

namespace LanChat

open Lib Json

namespace MessageRouter

variable (env : Env)

/-! ## Relays to users -/

/-- The users to whom `deliverToConversation` delivers, in order. -/
def addressees (senderId toId groupId : Int32) : DbM (List Int32) :=
  if 0 < groupId then ChannelRepository.members env groupId
  else pure (if 0 < toId ∧ toId ≠ senderId then [senderId, toId] else [senderId])

/-- The payload for each of the users that has a session. -/
def deliverToUsers (users : List Int32) (payload : Object) (carries : Server → List StoredMessage) :
    RouterM Unit :=
  Cmd.each users fun user => deliverToUser user payload carries

theorem deliverToUsers_singleton (user : Int32) (payload : Object)
    (carries : Server → List StoredMessage) :
    deliverToUsers [user] payload carries = deliverToUser user payload carries := by
  simp [deliverToUsers, Cmd.each]

/-- The sessions to which the payload is handed when it is delivered to the
users: a payload that does not fit a frame is handed to the first one only. -/
def handed (pool : SessionPool) (users : List Int32) (payload : Object) : List SessionId :=
  let targets := users.filterMap pool.findByUserId
  if (serialize payload).length ≤ FrameCodec.MaxFrameBytes then targets else targets.take 1

theorem deliverToConversation_eq (payload : Object) (senderId toId groupId : Int32)
    (carries : Server → List StoredMessage) :
    deliverToConversation env payload senderId toId groupId carries =
      onDb (addressees env senderId toId groupId) >>= fun users =>
        deliverToUsers users payload carries := by
  unfold deliverToConversation addressees
  by_cases hg : 0 < groupId
  · simp only [hg, if_true]
    rfl
  · simp only [hg, if_false]
    have hpure : ∀ users : List Int32, (onDb (pure users) : RouterM (List Int32)) = pure users :=
      fun _ => rfl
    rw [hpure, pure_bind]
    unfold Cmd.when
    split
    · simp [deliverToUsers, Cmd.each]
    · simp [deliverToUsers, Cmd.each]

theorem findByUserId_of_roster {st st' : Server} (h : st'.roster = st.roster) (user : Int32) :
    st'.pool.findByUserId user = st.pool.findByUserId user :=
  congrArg (fun r : Roster => r.pool.findByUserId user) h

theorem handed_of_roster {st st' : Server} (h : st'.roster = st.roster) (users : List Int32)
    (payload : Object) : handed st'.pool users payload = handed st.pool users payload := by
  unfold handed
  rw [show st'.pool.findByUserId = st.pool.findByUserId from
    funext (findByUserId_of_roster h)]

theorem deliverToUser_of_none {st : Server} {user : Int32} (h : st.pool.findByUserId user = none)
    (payload : Object) (carries : Server → List StoredMessage) :
    deliverToUser user payload carries st = ⟨.ok (), st, []⟩ := by
  simp [deliverToUser, findByUserId, Cmd.bind_apply, Cmd.andThen, h, deliverIfFound]

theorem deliverToUser_of_some {st : Server} {user : Int32} {target : SessionId}
    (h : st.pool.findByUserId user = some target) (payload : Object)
    (carries : Server → List StoredMessage) :
    deliverToUser user payload carries st = deliverContent target payload carries st := by
  simp [deliverToUser, findByUserId, Cmd.bind_apply, Cmd.andThen, h, deliverIfFound]

/-- Delivering to users hands the payload to exactly these sessions, and
changes neither the roster nor the database. -/
theorem out_deliverToUsers (users : List Int32) (payload : Object)
    (carries : Server → List StoredMessage) (st : Server) :
    ((deliverToUsers users payload carries st).out.map Delivery.target =
        handed st.pool users payload) ∧
      ∀ d ∈ (deliverToUsers users payload carries st).out,
        d = ⟨d.target, payload, carries d.at_, d.at_⟩ ∧ d.at_.roster = st.roster ∧
          d.at_.db = st.db := by
  induction users generalizing st with
  | nil => simp [deliverToUsers, Cmd.each, handed]
  | cons user users ih =>
    unfold deliverToUsers at ih ⊢
    simp only [Cmd.each]
    cases hfind : st.pool.findByUserId user with
    | none =>
      have hskip : deliverToUser user payload carries st = ⟨.ok (), st, []⟩ :=
        deliverToUser_of_none hfind payload carries
      rw [Cmd.bind_ok (a := ()) _ (by rw [hskip])]
      simp only [hskip, List.nil_append]
      obtain ⟨htargets, hfacts⟩ := ih st
      refine ⟨htargets.trans ?_, hfacts⟩
      simp [handed, hfind]
    | some target =>
      have hdeliver : deliverToUser user payload carries st =
          deliverContent target payload carries st := deliverToUser_of_some hfind payload carries
      cases henc : (st.pool.object target).deliver (serialize payload) with
      | error e =>
        have hlen := AsyncSession.deliver_error henc
        have hrun : deliverToUser user payload carries st =
            ⟨.error e, st, [⟨target, payload, carries st, st⟩]⟩ := by
          rw [hdeliver, deliverContent, henc]
        rw [Cmd.bind_error (e := e) _ (by rw [hrun]), hrun]
        simp [handed, hfind, Nat.not_le.mpr hlen]
      | ok s =>
        obtain ⟨hlen, huser⟩ := AsyncSession.deliver_ok henc
        have hrun : deliverToUser user payload carries st =
            ⟨.ok (), { st with pool := st.pool.setObject target s },
              [⟨target, payload, carries st, st⟩]⟩ := by
          rw [hdeliver, deliverContent, henc]
        have hroster : ({ st with pool := st.pool.setObject target s } : Server).roster =
            st.roster := roster_setObject st huser
        rw [Cmd.bind_ok (a := ()) _ (by rw [hrun])]
        simp only [hrun, List.singleton_append, List.map_cons, List.mem_cons]
        obtain ⟨htargets, hfacts⟩ := ih { st with pool := st.pool.setObject target s }
        refine ⟨?_, ?_⟩
        · rw [htargets, handed_of_roster hroster]
          simp [handed, hfind, hlen]
        · rintro d (rfl | hd)
          · exact ⟨rfl, rfl, rfl⟩
          · obtain ⟨heq, hros, hdb⟩ := hfacts d hd
            exact ⟨heq, hros.trans hroster, hdb⟩

theorem mem_out_deliverToUsers {users : List Int32} {payload : Object} {target : SessionId}
    (carries : Server → List StoredMessage) (st : Server)
    (h : target ∈ handed st.pool users payload) :
    ∃ at_, at_.roster = st.roster ∧ at_.db = st.db ∧
      ⟨target, payload, carries at_, at_⟩ ∈ (deliverToUsers users payload carries st).out := by
  obtain ⟨htargets, hfacts⟩ := out_deliverToUsers users payload carries st
  rw [← htargets] at h
  obtain ⟨d, hd, rfl⟩ := List.mem_map.mp h
  obtain ⟨heq, hroster, hdb⟩ := hfacts d hd
  exact ⟨d.at_, hroster, hdb, heq ▸ hd⟩

/-! ## What the handlers ask the repositories for -/

/-- The stored messages from which the answer to a query is made. -/
def selected (uid : Int32) (request : Object) : DbM (List StoredMessage) :=
  match typeField request with
  | some .RequestHistory => requestedHistory env uid request
  | some .AIRequest =>
    if stringField request "ai_type" [] = lit "summarize" then do
      let history ← summaryHistory env uid (stringField request "msg" [])
      -- without its first frame, no part of the summary is sent
      pure (if (serialize (summaryStart (stringField request "request_id" (lit "search")))).length ≤
        FrameCodec.MaxFrameBytes then quoted (history.getD []) else [])
    else if stringField request "ai_type" [] ≠ lit "search" then pure []
    else
      MessageRepository.search env (stringField request "msg" []) (intField request "limit" 50)
  | _ => pure []

/-- The copy of a file request that is passed on, and the users to whom it is. -/
def relayedFile (uid : Int32) (request : Object) : DbM (List Int32 × Object) :=
  let toId := intField request "toId" 0
  let groupId := intField request "groupId" 0
  if uid ≤ 0 ∨ stringField request "file_name" [] = [] ∨ stringField request "file_hash" [] = [] ∨
      (toId ≤ 0 ∧ groupId ≤ 0) then pure ([], request)
  else do
    let users ← addressees env uid toId groupId
    pure (users, incomingFile request)

/-- The copy of a read receipt. -/
def relayedReceipt (uid : Int32) (request : Object) : DbM (List Int32 × Object) := do
  let msgId := int64Field request "msg_id" 0
  let toId := intField request "toId" 0
  let groupId := intField request "groupId" 0
  let marked ← Cmd.andAlso (0 < uid ∧ 0 < msgId) (MessageRepository.markRead env msgId uid)
  if !marked then pure ([], request)
  else do
    let now ← Database.time env
    let users ← addressees env uid toId groupId
    pure (users, receiptPayload request uid now)

/-- The copy of a typing notice. -/
def relayedTyping (uid : Int32) (request : Object) : DbM (List Int32 × Object) :=
  let toId := intField request "toId" 0
  let groupId := intField request "groupId" 0
  if stringField request "event" [] ≠ lit "typing" ∨ uid ≤ 0 then pure ([], request)
  else if 0 < toId then pure ([toId], request)
  else if 0 < groupId then do
    let members ← ChannelRepository.members env groupId
    pure (members.filter fun memberId => memberId ≠ uid, request)
  else pure ([], request)

/-- The copy of the request that its handler passes on, and the users to whom
it does. -/
def relayed (uid : Int32) (request : Object) : DbM (List Int32 × Object) :=
  match typeField request with
  | some .SendFile => relayedFile env uid request
  | some .ReadReceipt => relayedReceipt env uid request
  | some .SystemBroadcast => relayedTyping env uid request
  | _ => pure ([], request)

/-- The announcement of an edit, and the users to whom it goes. -/
def edited (uid : Int32) (request : Object) : DbM (List Int32 × Object) := do
  let msgId := int64Field request "msg_id" 0
  let content := stringField request "msg" []
  let toId := intField request "toId" 0
  let groupId := intField request "groupId" 0
  let ok ← Cmd.andAlso (0 < uid ∧ 0 < msgId) (MessageRepository.edit env msgId uid content)
  let now ← Database.time env
  if !ok then pure ([], [])
  else do
    let users ← addressees env uid toId groupId
    pure (users, editReply true msgId uid content now toId groupId)

/-- The user that a login request logs in; `none` if it is refused. -/
def admitted (request : Object) : DbM (Option UserInfo) :=
  let uid := intField request "id" 0
  if uid ≤ 0 then pure none
  else do
    let verified ← UserRepository.verifyPassword env uid (stringField request "password" [])
    if !verified then pure none else UserRepository.findById env uid

/-- The answer to an accepted login and the messages delivered after it. -/
def welcomed (presence : PresenceManager) (uid : Int32) (user : UserInfo) :
    DbM (Object × List StoredMessage) := do
  UserRepository.setOnlineStatus env uid true
  let knownUsers ← UserRepository.getAllUsers env
  let friendUsers ← FriendRepository.getFriends env uid
  let groups ← ChannelRepository.groupsForUser env uid
  let offline ← MessageRepository.offlineForUser env uid 100
  pure (loginReply user uid
    (friendUsers.map fun u => .obj (friendToJson u (presence.status u.id)))
    (knownUsers.map fun u => .obj (userToJson u (presence.status u.id)))
    (groups.map fun g => .obj (groupToJson g)), offline)

end MessageRouter

/-- The group has this member. -/
def Server.IsMember (st : Server) (user group : Int32) : Prop :=
  ∃ row ∈ st.db.content .group_members, ChannelRepository.isMembership user group row = true

namespace MessageRouter

variable (env : Env)

/-! ## The kinds of deliveries -/

/-- The field that names the sender. -/
def sender (payload : Object) : Option Value := OrdMap.find? payload (lit "fromId")

/-- A delivery that routing the request of the session can make from this state. -/
inductive Hands (st : Server) (session : SessionId) (request : Object) : Delivery → Prop
  /-- an answer to the requester, without content of a stored message -/
  | answer (payload : Object) (at_ : Server) :
    Hands st session request ⟨session, payload, [], at_⟩
  /-- a notice that names no sender -/
  | notice (target : SessionId) (payload : Object) (at_ : Server) (hsender : sender payload = none) :
    Hands st session request ⟨target, payload, [], at_⟩
  /-- a notice in the name of the requester -/
  | signed (target : SessionId) (payload : Object) (at_ : Server) (hpos : 0 < st.userId session)
    (hsender : sender payload = some (ofInt32 (st.userId session))) :
    Hands st session request ⟨target, payload, [], at_⟩
  /-- a new message to one user, to that user or back to the requester -/
  | savedPrivate (target : SessionId) (message : StoredMessage) (at_ : Server)
    (hpos : 0 < st.userId session) (hfrom : message.from_id = st.userId session)
    (hgroup : message.group_id = 0) (hat : at_.roster = st.roster)
    (htarget : target = session ∨
      0 < message.to_id ∧ st.pool.findByUserId message.to_id = some target) :
    Hands st session request ⟨target, messageToJson .ReceiveMsg message, [message], at_⟩
  /-- a new message to a group, to one of its members -/
  | savedGroup (target : SessionId) (message : StoredMessage) (memberId : Int32) (at_ : Server)
    (hpos : 0 < st.userId session) (hfrom : message.from_id = st.userId session)
    (hgroup : 0 < message.group_id) (hat : at_.roster = st.roster)
    (htarget : st.pool.findByUserId memberId = some target)
    (hmember : at_.IsMember memberId message.group_id) :
    Hands st session request ⟨target, messageToJson .ReceiveGroupMsg message, [message], at_⟩
  /-- an answer made from stored messages -/
  | selected (payload : Object) (messages : List StoredMessage) (at_ : Server)
    (hsel : (selected env (st.userId session) request st.db).result = .ok messages)
    (hat : at_.roster = st.roster)
    (hdb : at_.db = (MessageRouter.selected env (st.userId session) request st.db).state) :
    Hands st session request ⟨session, payload, messages, at_⟩
  /-- a copy of the request -/
  | relayed (target : SessionId) (users : List Int32) (copy : Object) (at_ : Server)
    (hrel : (relayed env (st.userId session) request st.db).result = .ok (users, copy))
    (htarget : target ∈ handed st.pool users copy) :
    Hands st session request ⟨target, copy, [], at_⟩
  /-- the announcement of an edit -/
  | edited (target : SessionId) (users : List Int32) (payload : Object) (at_ : Server)
    (htype : typeField request = some .MessageEdit) (hpos : 0 < st.userId session)
    (hedit : (edited env (st.userId session) request st.db).result = .ok (users, payload))
    (htarget : target ∈ handed st.pool users payload) (hat : at_.roster = st.roster)
    (hdb : at_.db = (MessageRouter.edited env (st.userId session) request st.db).state)
    (hsender : sender payload = some (ofInt32 (st.userId session))) :
    Hands st session request
      ⟨target, payload, storedMessages (int64Field request "msg_id" 0) (st.userId session) at_, at_⟩
  /-- the messages that were waiting for the user who logs in -/
  | offline (user : UserInfo) (reply : Object) (messages : List StoredMessage) (at_ : Server)
    (htype : typeField request = some .Login)
    (hadmitted : (admitted env request st.db).result = .ok (some user))
    (hwelcomed : (welcomed env (st.presence.setOnline (intField request "id" 0))
      (intField request "id" 0) user (admitted env request st.db).state).result =
        .ok (reply, messages))
    (hfits : (serialize reply).length ≤ FrameCodec.MaxFrameBytes)
    (hat : at_.roster = st.roster.login session (intField request "id" 0))
    (hpos : 0 < intField request "id" 0)
    (hwaiting : ∀ m ∈ messages, m.to_id = intField request "id" 0 ∧ m.group_id = 0) :
    Hands st session request ⟨session, offlineReply messages, messages, at_⟩

end MessageRouter

end LanChat
