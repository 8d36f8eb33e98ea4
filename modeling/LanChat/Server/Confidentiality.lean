import LanChat.Db.Settled
import LanChat.Server.Access
import LanChat.Server.SenderAuthenticity

/-!
# Who gets to see a stored message

A private message is for its sender and its recipient, a group message for the
members of the group. `confidential_iff_discreet` says for which requests the
router hands stored content only to those who may see it.
-/

namespace LanChat

open Lib Json

/-- The user of the session may see the message. -/
def Server.MaySee (st : Server) (session : SessionId) (m : StoredMessage) : Prop :=
  if 0 < m.group_id then st.IsMember (st.userId session) m.group_id
  else st.userId session ≠ 0 ∧ (st.userId session = m.from_id ∨ st.userId session = m.to_id)

namespace MessageRouter

/-- Whatever stored messages the router puts into a payload, the session that
gets the payload may see them. -/
def Confidential (env : Env) (st : Server) (session : SessionId) (json : Bytes) : Prop :=
  ∀ d ∈ (route env session json st).out, ∀ m ∈ d.carries, d.at_.MaySee d.target m

/-- The request asks for no more than its sender may see, and passes on no
more than the recipients may see. -/
structure Discreet (env : Env) (st : Server) (session : SessionId) (request : Object) : Prop where
  /-- the history of a group is requested by a member, or there is none -/
  history : typeField request = some .RequestHistory → 0 < intField request "groupId" 0 →
    ∀ messages, (requestedHistory env (st.userId session) request st.db).result = .ok messages →
      messages ≠ [] → st.IsMember (st.userId session) (intField request "groupId" 0)
  /-- the summary of a group quotes only what the requester may see -/
  summary : typeField request = some .AIRequest →
    stringField request "ai_type" [] = lit "summarize" →
    (serialize (summaryStart (stringField request "request_id" (lit "search")))).length ≤
      FrameCodec.MaxFrameBytes →
    ∀ groupId, summaryTarget (stringField request "msg" []) (st.userId session) = .group groupId →
      ∀ messages, (MessageRepository.groupHistory env groupId 50 st.db).result = .ok messages →
        ∀ m ∈ quoted messages, st.MaySee session m
  /-- a search finds only what the requester may see -/
  search : typeField request = some .AIRequest → stringField request "ai_type" [] = lit "search" →
    ∀ messages, (MessageRepository.search env (stringField request "msg" [])
      (intField request "limit" 50) st.db).result = .ok messages →
      ∀ m ∈ messages, st.MaySee session m
  /-- an edit is announced to sessions that may see the edited message -/
  edit : typeField request = some .MessageEdit →
    ∀ users payload, (edited env (st.userId session) request st.db).result = .ok (users, payload) →
      ∀ target ∈ handed st.pool users payload,
        let st' := { st with db := (edited env (st.userId session) request st.db).state }
        ∀ m ∈ storedMessages (int64Field request "msg_id" 0) (st.userId session) st',
          st'.MaySee target m
  /-- a login on a session that has left the pool brings no foreign messages -/
  login : typeField request = some .Login → session ∉ st.pool.sessions →
    ∀ user, (admitted env request st.db).result = .ok (some user) →
      ∀ reply messages, (welcomed env (st.presence.setOnline (intField request "id" 0))
          (intField request "id" 0) user (admitted env request st.db).state).result =
            .ok (reply, messages) →
        (serialize reply).length ≤ FrameCodec.MaxFrameBytes →
          ∀ m ∈ messages, st.MaySee session m

/-! ## Sight depends on the roster and the membership table -/

theorem maySee_congr {st st' : Server} (hroster : st'.roster = st.roster)
    (hcontent : st'.db.content .group_members = st.db.content .group_members) (session : SessionId)
    (m : StoredMessage) : st'.MaySee session m ↔ st.MaySee session m := by
  have huser : st'.userId session = st.userId session :=
    congrArg (fun r : Roster => r.pool.userId session) hroster
  unfold Server.MaySee Server.IsMember
  rw [huser, hcontent]

section Queries

open Database MessageRepository

variable {env : Env} {uid : Int32} {request : Object}

theorem spares_orNone {α : Type} {name : TableName} {c : DbM α} (h : Spares name c) :
    Spares name (orNone c) := by
  have hstate : ∀ db, (orNone c db).state = (c db).state := fun db => by
    unfold orNone
    split <;> rfl
  exact ⟨fun db => by rw [hstate]; exact h.tables db, fun P db hdb => by rw [hstate]; exact h.docs P db hdb⟩

theorem spares_requestedHistory : Spares .group_members (requestedHistory env uid request) := by
  refine (Spares.when ((spares_markRead (by decide) _ _).bind fun _ => spares_pure ())).bind fun _ =>
    (spares_select (by decide) _ _).ite ?_
  exact (spares_select (by decide) _ _).ite (spares_pure [])

theorem spares_summaryHistory (query : Bytes) :
    Spares .group_members (summaryHistory env uid query) := by
  unfold summaryHistory
  split
  · exact spares_orNone (spares_select (by decide) _ _)
  · exact spares_orNone (spares_select (by decide) _ _)
  · exact spares_pure _
  · exact spares_pure _

theorem spares_selected : Spares .group_members (selected env uid request) := by
  unfold selected
  split
  · exact spares_requestedHistory
  · refine ((spares_summaryHistory _).bind fun _ => spares_pure _).ite ?_
    exact (spares_pure []).ite (spares_search (by decide) _ _)
  · exact spares_pure []

end Queries

/-! ## Discreet requests keep messages confidential -/

section Sufficient

variable {env : Env} {st : Server} {session : SessionId} {request : Object}

theorem mem_of_mem_quoted {messages : List StoredMessage} {m : StoredMessage}
    (h : m ∈ quoted messages) : m ∈ messages := by
  rcases List.mem_append.mp h with h | h
  · exact List.mem_of_mem_head? (Option.mem_toList.mp h)
  · exact List.mem_of_getLast? (Option.mem_toList.mp h)

theorem maySee_own {m : StoredMessage} (hpos : 0 < st.userId session) (hgroup : m.group_id = 0)
    (hown : st.userId session = m.from_id ∨ st.userId session = m.to_id) : st.MaySee session m := by
  unfold Server.MaySee
  rw [hgroup, if_neg (by decide)]
  exact ⟨fun h0 => absurd (h0 ▸ hpos) (by decide), hown⟩

theorem maySee_privateHistory {peerId limit : Int32} {db : Database} {messages : List StoredMessage}
    (hpos : 0 < st.userId session)
    (h : (MessageRepository.privateHistory env (st.userId session) peerId limit db).result =
      .ok messages) :
    ∀ m ∈ messages, st.MaySee session m := by
  intro m hm
  obtain ⟨hgroup, hown⟩ := MessageRepository.privateHistory_result h m hm
  refine maySee_own hpos hgroup ?_
  rcases hown with ⟨hfrom, -⟩ | ⟨-, hto⟩
  · exact .inl hfrom.symm
  · exact .inr hto.symm

theorem maySee_of_requestedHistory (hd : Discreet env st session request)
    (htype : typeField request = some .RequestHistory) {messages : List StoredMessage}
    (h : (requestedHistory env (st.userId session) request st.db).result = .ok messages) :
    ∀ m ∈ messages, st.MaySee session m := by
  intro m hm
  have hmember := hd.history htype
  obtain ⟨-, -, hquery⟩ := Cmd.result_bind_eq_ok.mp h
  by_cases hgroup : 0 < intField request "groupId" 0
  · rw [if_pos hgroup] at hquery
    have hm' := MessageRepository.groupHistory_result hquery m hm
    unfold Server.MaySee
    rw [hm', if_pos hgroup]
    exact hmember hgroup messages h (List.ne_nil_of_mem hm)
  rw [if_neg hgroup] at hquery
  by_cases hto : 0 < st.userId session ∧ 0 < intField request "toId" 0
  · rw [if_pos hto] at hquery
    exact maySee_privateHistory hto.1 hquery m hm
  · rw [if_neg hto] at hquery
    cases hquery
    cases hm

theorem result_orNone {α : Type} {c : DbM α} {db : Database} {r : Option α}
    (h : (orNone c db).result = .ok r) {a : α} (ha : r = some a) : (c db).result = .ok a := by
  unfold orNone at h
  split at h
  · next b hb =>
    cases h
    cases ha
    exact hb
  · cases h
    cases ha

/-- A summary of a direct conversation is only made for a logged-in user. -/
theorem pos_of_summaryTarget_direct {query : Bytes} {uid peerId : Int32}
    (h : summaryTarget query uid = .direct peerId) : 0 < uid := by
  unfold summaryTarget at h
  split at h
  · split at h <;> cases h
  · split at h
    · next hdirect => simp only [Bool.and_eq_true, decide_eq_true_eq] at hdirect; exact hdirect.2
    · cases h

theorem maySee_of_summary (hd : Discreet env st session request)
    (htype : typeField request = some .AIRequest)
    (hai : stringField request "ai_type" [] = lit "summarize")
    (hfits : (serialize (summaryStart (stringField request "request_id" (lit "search")))).length ≤
      FrameCodec.MaxFrameBytes) {history : List StoredMessage}
    (h : (summaryHistory env (st.userId session) (stringField request "msg" []) st.db).result =
      .ok (some history)) :
    ∀ m ∈ quoted history, st.MaySee session m := by
  intro m hm
  cases htarget : summaryTarget (stringField request "msg" []) (st.userId session) with
  | group groupId =>
    simp only [summaryHistory, htarget] at h
    exact hd.summary htype hai hfits groupId htarget history (result_orNone h rfl) m hm
  | direct peerId =>
    simp only [summaryHistory, htarget] at h
    exact maySee_privateHistory (pos_of_summaryTarget_direct htarget) (result_orNone h rfl) m
      (mem_of_mem_quoted hm)
  | nothing =>
    simp only [summaryHistory, htarget] at h
    cases h
    cases hm
  | invalid =>
    simp only [summaryHistory, htarget] at h
    cases h

theorem maySee_of_selected (hd : Discreet env st session request) {messages : List StoredMessage}
    (h : (selected env (st.userId session) request st.db).result = .ok messages) :
    ∀ m ∈ messages, st.MaySee session m := by
  by_cases hhistory : typeField request = some .RequestHistory
  · simp only [selected, hhistory] at h
    exact maySee_of_requestedHistory hd hhistory h
  by_cases hai : typeField request = some .AIRequest
  · simp only [selected, hai] at h
    by_cases hsum : stringField request "ai_type" [] = lit "summarize"
    · rw [if_pos hsum] at h
      obtain ⟨history, hhist, hquoted⟩ := Cmd.result_bind_eq_ok.mp h
      cases hquoted
      intro m hm
      split at hm
      · next hfits =>
        cases history with
        | none => cases hm
        | some history => exact maySee_of_summary hd hai hsum hfits hhist m hm
      · cases hm
    rw [if_neg hsum] at h
    by_cases hsearch : stringField request "ai_type" [] = lit "search"
    · rw [if_neg (not_not.mpr hsearch)] at h
      exact hd.search hai hsearch messages h
    · rw [if_pos hsearch] at h
      cases h
      exact List.forall_mem_nil _
  · have hnone : selected env (st.userId session) request = pure [] := by
      unfold selected
      split
      · next hh => exact absurd hh hhistory
      · next hh => exact absurd hh hai
      · rfl
    rw [hnone] at h
    cases h
    exact List.forall_mem_nil _

/-- Only a session of the pool carries the user that has logged in on it. -/
theorem userId_of_login {at_ : Server} {uid : Int32}
    (hat : at_.roster = st.roster.login session uid) (hpos : 0 < uid) :
    at_.userId session = if session ∈ st.pool.sessions then uid else st.userId session := by
  have hbare : at_.userId session = (st.roster.login session uid).pool.userId session :=
    congrArg (fun r : Roster => r.pool.userId session) hat
  rw [hbare]
  by_cases hs : session ∈ st.pool.sessions
  · rw [if_pos hs]
    exact (st.roster.pool.userId_bindUser session _ hs hpos session).trans (if_pos rfl)
  · rw [if_neg hs]
    have hpool : (st.roster.login session uid).pool = st.roster.pool :=
      st.roster.pool.bindUser_of_refused session uid (.inl hs)
    rw [hpool]
    rfl

theorem confidential_of_hands (hi : st.pool.Indexed) (hs : st.db.Settled .group_members) (hd : Discreet env st session request)
    {d : Delivery} (hands : Hands env st session request d) :
    ∀ m ∈ d.carries, d.at_.MaySee d.target m := by
  have hself : ∀ {at_ : Server}, at_.roster = st.roster → ∀ t, at_.userId t = st.userId t :=
    fun hat t => congrArg (fun r : Roster => r.pool.userId t) hat
  have hfound : ∀ {user t}, st.pool.findByUserId user = some t → st.userId t = user :=
    fun h => (hi.sound _ _ ((SessionPool.findByUserId_eq_some _ _).mp h).1).2
  intro m hm
  cases hands with
  | answer payload at_ => cases hm
  | notice target payload at_ => cases hm
  | signed target payload at_ => cases hm
  | relayed target users copy at_ => cases hm
  | savedPrivate target message at_ hpos hfrom hgroup hat htarget =>
    cases List.mem_singleton.mp hm
    rcases htarget with rfl | ⟨hto, hfind⟩
    · exact maySee_own (by rw [hself hat]; exact hpos) hgroup (.inl (by rw [hself hat, hfrom]))
    · exact maySee_own (by rw [hself hat, hfound hfind]; exact hto) hgroup
        (.inr (by rw [hself hat, hfound hfind]))
  | savedGroup target message memberId at_ hpos hfrom hgroup hat htarget hmember =>
    cases List.mem_singleton.mp hm
    unfold Server.MaySee
    rw [if_pos hgroup, hself hat, hfound htarget]
    exact hmember
  | selected payload messages at_ hsel hat hdb =>
    refine (maySee_congr hat ?_ session m).mpr (maySee_of_selected hd hsel m hm)
    rw [hdb]
    exact spares_selected.content hs
  | edited target users payload at_ htype _ hedit htarget hat hdb =>
    have hsame : storedMessages (int64Field request "msg_id" 0) (st.userId session) at_ =
        storedMessages (int64Field request "msg_id" 0) (st.userId session)
          { st with db := (edited env (st.userId session) request st.db).state } := by
      simp only [storedMessages, Server.cached, hdb]
    rw [hsame] at hm
    have hsees := hd.edit htype users payload hedit target htarget m hm
    have hview : ∀ st' : Server, st'.roster = st.roster → st'.db = at_.db →
        (at_.MaySee target m ↔ st'.MaySee target m) := fun st' hr hd =>
      maySee_congr (hat.trans hr.symm) (by rw [hd]) target m
    exact (hview { st with db := (edited env (st.userId session) request st.db).state } rfl
      hdb.symm).mpr hsees
  | offline user reply messages at_ htype hadmitted hwelcomed hfits hat hpos hwaiting =>
    obtain ⟨hto, hgroup⟩ := hwaiting m hm
    have huser := userId_of_login hat hpos
    by_cases hpool : session ∈ st.pool.sessions
    · rw [if_pos hpool] at huser
      exact maySee_own (huser ▸ hpos) hgroup (.inr (huser.trans hto.symm))
    · rw [if_neg hpool] at huser
      have hsees := hd.login htype hpool user hadmitted reply messages hwelcomed hfits m hm
      unfold Server.MaySee at hsees ⊢
      rw [hgroup, if_neg (by decide)] at hsees ⊢
      rw [huser]
      exact hsees

end Sufficient

/-! ## Confidential requests are discreet -/

section Necessary

variable {env : Env} {st : Server} {session : SessionId} {request : Object}

theorem result_authenticatedUserId :
    (authenticatedUserId session st).result = .ok (st.userId session) := by
  rw [run_authenticatedUserId]

/-- The answer that is made from the selected messages goes to the requester. -/
theorem mem_out_handleHistory {messages : List StoredMessage}
    (h : (requestedHistory env (st.userId session) request st.db).result = .ok messages) :
    ∃ payload at_, at_.roster = st.roster ∧
      at_.db = (requestedHistory env (st.userId session) request st.db).state ∧
      ⟨session, payload, messages, at_⟩ ∈ (handleHistory env session request st).out := by
  refine ⟨historyReply messages,
    { st with db := (requestedHistory env (st.userId session) request st.db).state }, rfl, rfl,
    Cmd.mem_out_right result_authenticatedUserId ?_⟩
  rw [run_authenticatedUserId]
  exact Cmd.mem_out_right (a := messages) h (mem_out_deliverContent session _ (fun _ => messages) _)

theorem chunkCount_summary_pos (messages : List StoredMessage) :
    0 < chunkCount (summarizeMessages messages) := by
  have hne : summarizeMessages messages ≠ [] := by
    unfold summarizeMessages
    split
    · have hstart : lit "Summary based on " ≠ [] := by decide
      simp only [ne_eq, List.append_eq_nil_iff, hstart, false_and, not_false_iff]
    · decide
  have hlen : 0 < (summarizeMessages messages).length := List.length_pos_iff.mpr hne
  exact Nat.div_pos (by unfold chunkSize; omega) (by decide)

/-- Delivering a payload that fits changes neither the roster nor the database. -/
theorem at_deliverContent {payload : Object} (session : SessionId)
    (carries : Server → List StoredMessage) (st : Server)
    (h : (serialize payload).length ≤ FrameCodec.MaxFrameBytes) :
    At st.roster (fun db => db = st.db) (deliverContent session payload carries st).state :=
  (sat_deliverContent (W := fun _ => True) (fun _ _ => trivial) st (at_self st)).2.1 ()
    (result_deliverContent h session carries st)

/-- A summary whose first frame fits quotes its messages to the requester. -/
theorem mem_out_handleSummarize {requestId query : Bytes} {history : List StoredMessage}
    (h : (summaryHistory env (st.userId session) query st.db).result = .ok (some history))
    (hfits : (serialize (summaryStart requestId)).length ≤ FrameCodec.MaxFrameBytes) :
    ∃ payload at_, at_.roster = st.roster ∧
      at_.db = (summaryHistory env (st.userId session) query st.db).state ∧
      ⟨session, payload, quoted history, at_⟩ ∈
        (handleSummarize env session requestId query st).out := by
  obtain ⟨chunks, hchunks⟩ := Nat.exists_eq_add_one.mpr (chunkCount_summary_pos history)
  let st' : Server := { st with db := (summaryHistory env (st.userId session) query st.db).state }
  have hat := at_deliverContent session (fun _ => []) st' hfits
  refine ⟨summaryChunk requestId (summarizeMessages history) 0, _, hat.1, hat.2, ?_⟩
  refine Cmd.mem_out_right result_authenticatedUserId ?_
  rw [run_authenticatedUserId]
  refine Cmd.mem_out_right (a := some history) h ?_
  refine Cmd.mem_out_right (a := ()) (result_deliverContent hfits session (fun _ => []) st') ?_
  rw [hchunks, List.range_succ_eq_map]
  exact Cmd.mem_out_left (mem_out_deliverContent session _ (fun _ => quoted history) _)

theorem mem_out_handleAIRequest {messages : List StoredMessage}
    (hai : stringField request "ai_type" [] = lit "search")
    (h : (MessageRepository.search env (stringField request "msg" []) (intField request "limit" 50)
      st.db).result = .ok messages) :
    ∃ payload at_, at_.roster = st.roster ∧
      at_.db = (MessageRepository.search env (stringField request "msg" [])
        (intField request "limit" 50) st.db).state ∧
      ⟨session, payload, messages, at_⟩ ∈ (handleAIRequest env session request st).out := by
  have hsum : stringField request "ai_type" [] ≠ lit "summarize" := by rw [hai]; decide
  refine ⟨searchReply (stringField request "request_id" (lit "search")) (stringField request "msg" [])
      messages,
    { st with db := (MessageRepository.search env (stringField request "msg" [])
      (intField request "limit" 50) st.db).state }, rfl, rfl, ?_⟩
  simp only [handleAIRequest]
  rw [if_neg hsum, if_neg (not_not.mpr hai)]
  exact Cmd.mem_out_right (a := messages) h (mem_out_deliverContent session _ (fun _ => messages) _)

/-- The announcement of an edit reaches every session to which it is handed. -/
theorem mem_out_handleMessageEdit {users : List Int32} {payload : Object} {target : SessionId}
    (h : (edited env (st.userId session) request st.db).result = .ok (users, payload))
    (htarget : target ∈ handed st.pool users payload) :
    ∃ at_, at_.roster = st.roster ∧
      at_.db = (edited env (st.userId session) request st.db).state ∧
      ⟨target, payload, storedMessages (int64Field request "msg_id" 0) (st.userId session) at_, at_⟩ ∈
        (handleMessageEdit env session request st).out := by
  obtain ⟨ok, hok, hrest⟩ := Cmd.result_bind_eq_ok.mp h
  obtain ⟨now, hnow, hrest⟩ := Cmd.result_bind_eq_ok.mp hrest
  cases ok with
  | false =>
    cases hrest
    simp [handed] at htarget
  | true =>
    obtain ⟨addressed, haddressed, hpair⟩ := Cmd.result_bind_eq_ok.mp hrest
    cases hpair
    have hstate : (edited env (st.userId session) request st.db).state =
        (addressees env (st.userId session) (intField request "toId" 0)
          (intField request "groupId" 0) (Database.time env
            (Cmd.andAlso (0 < st.userId session ∧ 0 < int64Field request "msg_id" 0)
              (MessageRepository.edit env (int64Field request "msg_id" 0) (st.userId session)
                (stringField request "msg" [])) st.db).state).state).state := by
      simp only [edited]
      rw [Cmd.bind_ok _ hok, Cmd.bind_ok _ hnow, if_neg (by decide), Cmd.bind_ok _ haddressed]
      rfl
    obtain ⟨at_, hroster, hdb, hout⟩ := mem_out_deliverToUsers
      (storedMessages (int64Field request "msg_id" 0) (st.userId session))
      { st with db := (edited env (st.userId session) request st.db).state } htarget
    refine ⟨at_, hroster, hdb, Cmd.mem_out_right result_authenticatedUserId ?_⟩
    rw [run_authenticatedUserId]
    dsimp only
    rw [andAlso_onDb]
    refine Cmd.mem_out_right (a := true) hok (Cmd.mem_out_right (a := now) hnow ?_)
    rw [answerChange, if_pos rfl, deliverToConversation_eq]
    refine Cmd.mem_out_right (a := users) haddressed ?_
    rw [hstate] at hout
    exact hout

theorem mem_out_deliverOffline {uid : Int32} {messages : List StoredMessage} {st : Server}
    (session : SessionId)
    (h : (MessageRepository.offlineForUser env uid 100 st.db).result = .ok messages)
    (hne : messages ≠ []) :
    ∃ at_, at_.roster = st.roster ∧
      ⟨session, offlineReply messages, messages, at_⟩ ∈ (deliverOffline env session uid st).out := by
  refine ⟨{ st with db := (MessageRepository.offlineForUser env uid 100 st.db).state }, rfl,
    Cmd.mem_out_right (a := messages) h ?_⟩
  rw [if_neg hne]
  exact mem_out_deliverContent session _ (fun _ => messages) _

/-- The messages that have been waiting follow the answer to an accepted login. -/
theorem mem_out_acceptLogin {uid : Int32} {user : UserInfo} {reply : Object}
    {messages : List StoredMessage} (session : SessionId) (st : Server)
    (hwelcomed : (welcomed env (st.presence.setOnline uid) uid user st.db).result =
      .ok (reply, messages))
    (hfits : (serialize reply).length ≤ FrameCodec.MaxFrameBytes) (hne : messages ≠ []) :
    ∃ at_, at_.roster = st.roster.login session uid ∧
      ⟨session, offlineReply messages, messages, at_⟩ ∈ (acceptLogin env session uid user st).out := by
  obtain ⟨_, honline, hrest⟩ := Cmd.result_bind_eq_ok.mp hwelcomed
  obtain ⟨users, husers, hrest⟩ := Cmd.result_bind_eq_ok.mp hrest
  obtain ⟨friends, hfriends, hrest⟩ := Cmd.result_bind_eq_ok.mp hrest
  obtain ⟨groups, hgroups, hrest⟩ := Cmd.result_bind_eq_ok.mp hrest
  obtain ⟨offline, hoffline, hpair⟩ := Cmd.result_bind_eq_ok.mp hrest
  cases hpair
  let answered : Server :=
    { st with
      pool := (st.pool.bindUser session uid).2
      presence := st.presence.setOnline uid
      db := (ChannelRepository.groupsForUser env uid (FriendRepository.getFriends env uid
        (UserRepository.getAllUsers env
          (UserRepository.setOnlineStatus env uid true st.db).state).state).state).state }
  have hlogged : answered.roster = st.roster.login session uid := by
    simp only [Server.roster, Roster.login, answered, SessionPool.bare_bindUser]
  obtain ⟨hroster, hdb⟩ := at_deliverContent session (fun _ => []) answered hfits
  obtain ⟨at_, hsame, hwaiting⟩ :=
    mem_out_deliverOffline session (by rw [hdb]; exact hoffline) hne
  refine ⟨at_, (hsame.trans hroster).trans hlogged, ?_⟩
  exact Cmd.mem_out_right (a := ()) rfl <| Cmd.mem_out_right (a := ()) rfl <|
    Cmd.mem_out_right (a := ()) honline <| Cmd.mem_out_right (a := answered.presence) rfl <|
    Cmd.mem_out_right (a := users) husers <| Cmd.mem_out_right (a := friends) hfriends <|
    Cmd.mem_out_right (a := groups) hgroups <|
    Cmd.mem_out_right (a := ()) (result_deliverContent hfits session (fun _ => []) answered) <|
    Cmd.mem_out_left hwaiting

theorem mem_out_handleLogin {user : UserInfo} {reply : Object} {messages : List StoredMessage}
    (hadmitted : (admitted env request st.db).result = .ok (some user))
    (hwelcomed : (welcomed env (st.presence.setOnline (intField request "id" 0))
      (intField request "id" 0) user (admitted env request st.db).state).result =
        .ok (reply, messages))
    (hfits : (serialize reply).length ≤ FrameCodec.MaxFrameBytes) (hne : messages ≠ []) :
    ∃ at_, at_.roster = st.roster.login session (intField request "id" 0) ∧
      ⟨session, offlineReply messages, messages, at_⟩ ∈
        (handleLogin env session request st).out := by
  unfold admitted at hadmitted hwelcomed
  by_cases hneg : intField request "id" 0 ≤ 0
  · rw [if_pos hneg] at hadmitted
    cases hadmitted
  rw [if_neg hneg] at hadmitted hwelcomed
  obtain ⟨verified, hverified, hfound⟩ := Cmd.result_bind_eq_ok.mp hadmitted
  cases verified with
  | false => cases hfound
  | true =>
    rw [Cmd.bind_ok _ hverified] at hwelcomed
    obtain ⟨at_, hroster, hout⟩ := mem_out_acceptLogin session
      { st with db := (UserRepository.findById env (intField request "id" 0)
        (UserRepository.verifyPassword env (intField request "id" 0)
          (stringField request "password" []) st.db).state).state } hwelcomed hfits hne
    refine ⟨at_, hroster, ?_⟩
    simp only [handleLogin]
    rw [if_neg hneg]
    refine Cmd.mem_out_right (a := true) hverified ?_
    exact Cmd.mem_out_right (a := some user) hfound hout

/-- What routing hands over to the sessions, the handlers hand over. -/
theorem mem_out_route {json : Bytes} (hparse : parseObject env.stack json = some request) {d : Delivery}
    (hd : d ∈ (dispatch env session request st).out) : d ∈ (route env session json st).out := by
  rwa [route_of_some env hparse]

theorem pos_of_admitted {db : Database} {user : UserInfo}
    (h : (admitted env request db).result = .ok (some user)) : 0 < intField request "id" 0 := by
  by_contra hneg
  rw [Int32.not_lt] at hneg
  simp only [admitted] at h
  rw [if_pos hneg] at h
  cases h

theorem welcomed_result {presence : PresenceManager} {uid : Int32} {user : UserInfo} {db : Database}
    {reply : Object} {messages : List StoredMessage}
    (h : (welcomed env presence uid user db).result = .ok (reply, messages)) :
    ∀ m ∈ messages, m.to_id = uid ∧ m.group_id = 0 := by
  obtain ⟨_, -, hrest⟩ := Cmd.result_bind_eq_ok.mp h
  obtain ⟨_, -, hrest⟩ := Cmd.result_bind_eq_ok.mp hrest
  obtain ⟨_, -, hrest⟩ := Cmd.result_bind_eq_ok.mp hrest
  obtain ⟨_, -, hrest⟩ := Cmd.result_bind_eq_ok.mp hrest
  obtain ⟨offline, hoffline, hpair⟩ := Cmd.result_bind_eq_ok.mp hrest
  cases hpair
  exact (MessageRepository.sat_offlineForUser (P := fun _ => True) (W := fun _ => True)
    uid 100 _ trivial).2.1 messages hoffline

theorem discreet_of_confidential {json : Bytes} (hs : st.db.Settled .group_members)
    (hparse : parseObject env.stack json = some request) (hc : Confidential env st session json) : Discreet env st session request where
  history htype hgroup messages hmessages hne := by
    obtain ⟨payload, at_, hroster, hdb, hout⟩ := mem_out_handleHistory hmessages
    have hroute := mem_out_route hparse (by simp only [dispatch, htype]; exact hout)
    obtain ⟨m, hm⟩ := List.exists_mem_of_ne_nil messages hne
    have hsees := (maySee_congr hroster (hdb ▸ spares_requestedHistory.content hs) session m).mp
      (hc _ hroute m hm)
    obtain ⟨-, -, hquery⟩ := Cmd.result_bind_eq_ok.mp hmessages
    rw [if_pos hgroup] at hquery
    have hm' := MessageRepository.groupHistory_result hquery m hm
    unfold Server.MaySee at hsees
    rwa [hm', if_pos hgroup] at hsees
  summary htype hai hfits groupId htarget messages hmessages m hm := by
    have hsum : (summaryHistory env (st.userId session) (stringField request "msg" []) st.db).result =
        .ok (some messages) := by
      simp only [summaryHistory, htarget, orNone, hmessages]
    obtain ⟨payload, at_, hroster, hdb, hout⟩ := mem_out_handleSummarize hsum hfits
    have hroute := mem_out_route hparse (by
      simp only [dispatch, htype, handleAIRequest, hai, if_true]
      exact hout)
    exact (maySee_congr hroster (hdb ▸ (spares_summaryHistory _).content hs) session m).mp
      (hc _ hroute m hm)
  search htype hai messages hmessages m hm := by
    obtain ⟨payload, at_, hroster, hdb, hout⟩ := mem_out_handleAIRequest hai hmessages
    have hroute := mem_out_route hparse (by simp only [dispatch, htype]; exact hout)
    have hspares := @MessageRepository.spares_search env .group_members (by decide)
      (stringField request "msg" []) (intField request "limit" 50)
    exact (maySee_congr hroster (hdb ▸ hspares.content hs) session m).mp (hc _ hroute m hm)
  edit htype users payload hedit target htarget m hm := by
    obtain ⟨at_, hroster, hdb, hout⟩ := mem_out_handleMessageEdit hedit htarget
    have hroute := mem_out_route hparse (by simp only [dispatch, htype]; exact hout)
    have hsame : storedMessages (int64Field request "msg_id" 0) (st.userId session) at_ =
        storedMessages (int64Field request "msg_id" 0) (st.userId session)
          { st with db := (edited env (st.userId session) request st.db).state } := by
      simp only [storedMessages, Server.cached, hdb]
    have hview : ∀ st' : Server, st'.roster = st.roster → at_.db = st'.db →
        (at_.MaySee target m ↔ st'.MaySee target m) := fun st' hr hd =>
      maySee_congr (hroster.trans hr.symm) (by rw [hd]) target m
    exact (hview { st with db := (edited env (st.userId session) request st.db).state } rfl hdb).mp
      (hc _ hroute m (hsame ▸ hm))
  login htype hpool user hadmitted reply messages hwelcomed hfits m hm := by
    obtain ⟨at_, hroster, hout⟩ :=
      mem_out_handleLogin hadmitted hwelcomed hfits (List.ne_nil_of_mem hm)
    have hroute := mem_out_route hparse (by simp only [dispatch, htype]; exact hout)
    have hsees := hc _ hroute m hm
    have huser := userId_of_login hroster (pos_of_admitted hadmitted)
    rw [if_neg hpool] at huser
    unfold Server.MaySee at hsees ⊢
    rw [(welcomed_result hwelcomed m hm).2, if_neg (by decide)] at hsees ⊢
    rwa [huser] at hsees

end Necessary

/-! ## Every run -/

/-- In every state that the server reaches, a request keeps the stored messages
confidential exactly if it is discreet. -/
theorem confidential_iff_discreet {env : Env} {file : Content} {events : List TcpServer.Event}
    {st : Server} (hrun : run (TcpServer.step env) (.boot env file) events = some st)
    (session : SessionId) (json : Bytes) :
    Confidential env st session json ↔
      ∀ request, parseObject env.stack json = some request → Discreet env st session request := by
  have hi : st.pool.Indexed := SessionPool.indexed_bare.mp (TcpServer.kept_of_run hrun).indexed
  have hs : st.db.Settled .group_members := TcpServer.invariant_of_reachable
    (Database.writes_settled env .group_members) (Database.settled_startUp env file _) ⟨_, hrun⟩
  constructor
  · exact fun hc request hparse => discreet_of_confidential hs hparse hc
  · intro hd d hmem
    rcases hands_of_mem_route hmem with ⟨-, hcarries⟩ | ⟨request, hparse, hands⟩
    · rw [hcarries]
      exact nofun
    · exact confidential_of_hands hi hs (hd request hparse) hands

/-- User 1000 writes to user 1001; the third session never logs in. -/
def privateNote : List TcpServer.Event :=
  twoUsers ++ [TcpServer.request 1 .SendMsg [("toId", .int 1001), ("msg", text "hello")]]

def searchRequest : Bytes :=
  requestText .AIRequest [("ai_type", text "search"), ("msg", text "hello")]

/-- A session that never logged in finds a private message. -/
theorem stranger_finds_private_note :
    ¬∀ env file events st, run (TcpServer.step env) (.boot env file) events = some st →
      ∀ session json, Confidential env st session json := by
  intro hall
  have hrun : ((run (TcpServer.step .ideal) (.boot .ideal .empty) privateNote).map fun st =>
      (route .ideal 3 searchRequest st).out.map fun d =>
        (d.at_.userId d.target, d.carries.map fun m => (m.group_id, m.content))) =
      some [(0, [(0, lit "hello")])] := by
    decide +kernel
  obtain ⟨st, hst, hout⟩ := Option.map_eq_some_iff.mp hrun
  obtain ⟨d, hd, hpair⟩ := List.mem_map.mp (hout ▸ List.mem_cons_self)
  simp only [Prod.mk.injEq] at hpair
  obtain ⟨hanon, hcarries⟩ := hpair
  obtain ⟨m, hm, hgroup⟩ := List.mem_map.mp (hcarries ▸ List.mem_cons_self)
  simp only [Prod.mk.injEq] at hgroup
  have hsees := hall _ _ _ st hst 3 searchRequest d hd m hm
  unfold Server.MaySee at hsees
  rw [hgroup.1, if_neg (by decide)] at hsees
  exact hsees.1 hanon

theorem confidential_iff_discreet_search :
    ∃ st, run (TcpServer.step .ideal) (.boot .ideal .empty) privateNote = some st ∧
      (Confidential .ideal st 3 searchRequest ↔
        ∀ request, parseObject Env.ideal.stack searchRequest = some request → Discreet .ideal st 3 request) := by
  have hrun : (run (TcpServer.step .ideal) (.boot .ideal .empty) privateNote).isSome := by
    decide +kernel
  obtain ⟨st, hst⟩ := Option.isSome_iff_exists.mp hrun
  exact ⟨st, hst, confidential_iff_discreet hst 3 searchRequest⟩

end MessageRouter

end LanChat
