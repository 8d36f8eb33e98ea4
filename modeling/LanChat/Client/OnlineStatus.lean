import LanChat.Client.Presence
import LanChat.Client.World

/-!
# When the client and the server agree on who is online

What each event of the server does to a page that follows it, and from it the
runs in which a page agrees with the server in every state.
-/

namespace LanChat

open Lib Json

namespace Client

open MessageRouter FriendRepository

section Events

variable {js : Js} {env : Env} {session t : SessionId} {ρ : Roster} {known : Int32 → Bool} {rows : List FriendshipRow}
  {before : Page}

theorem sat_of_guarded {α : Type} {F : Database → Prop} {c : DbM α} (h : Database.Guarded F F c) :
    Cmd.Sat F c (fun _ => F) (fun _ _ => True) fun _ => True :=
  h.weaken (fun _ h => h) (fun _ _ h => h) (fun _ _ _ => trivial) fun _ h => h

/-! ## Removals -/

/-- A session with a user that is removed. -/
def Gone (t : SessionId) (ρ : Roster) : Prop := t ∈ ρ.pool.sessions ∧ 0 < ρ.pool.userId t

theorem sat_markOfflineAndBroadcast_standing (uid : Int32) :
    Cmd.Sat (At ρ (Standing env known rows)) (TcpServer.markOfflineAndBroadcast env uid)
      (fun _ => At { ρ with presence := ρ.presence.setOffline uid } (Standing env known rows)) (fun _ _ => True)
      fun d => ∃ info, d.payload = TcpServer.offlinePayload info uid := by
  refine sat_modifyPresence.bind fun _ => (sat_onDb (sat_of_guarded (standing_setOnlineStatus uid false))).bind fun _ =>
    (sat_onDb (sat_of_guarded (reads_standing.findById uid))).bind fun user => ?_
  cases user with
  | none => exact Cmd.sat_pure fun _ h => h
  | some user =>
    exact (Cmd.sat_asks (Q := fun _ => At _ (Standing env known rows)) fun _ h => h).bind fun _ =>
      Cmd.sat_each fun _ _ => sat_deliver fun _ _ => ⟨user, rfl⟩

theorem sat_removeSession_standing :
    Cmd.Sat (At ρ (Standing env known rows)) (TcpServer.removeSession env t)
      (fun _ => At (ρ.remove t) (Standing env known rows)) (fun _ _ => True)
      fun d => Gone t ρ ∧ ∃ info, d.payload = TcpServer.offlinePayload info (ρ.pool.userId t) := by
  refine (Cmd.sat_asks (Q := fun uid st =>
    (uid = if t ∈ ρ.pool.sessions then ρ.pool.userId t else 0) ∧ At ρ (Standing env known rows) st)
      fun st hst => ⟨by rw [← hst.1]; rfl, hst⟩).bind fun uid => Cmd.Sat.of_fact fun h => ?_
  subst h
  refine (sat_modifyPool (ρ.pool.remove t) fun st hst => ?_).bind fun _ => ?_
  · rw [SessionPool.bare_remove]
    exact congrArg (fun r : Roster => r.pool.remove t) hst.1
  · refine Cmd.sat_ite (fun hpos => ?_) fun hpos => Cmd.sat_pure fun st hst => ⟨?_, hst.2⟩
    · have hgone : Gone t ρ := by
        by_cases ht : t ∈ ρ.pool.sessions
        · exact ⟨ht, by rwa [if_pos ht] at hpos⟩
        · rw [if_neg ht] at hpos
          exact absurd hpos (by decide)
      refine (sat_markOfflineAndBroadcast_standing _).weaken (fun _ h => h) (fun _ st hst => ⟨hst.1.trans ?_, hst.2⟩)
        (fun _ _ h => h) fun d hd => ⟨hgone, ?_⟩
      · simp only [Roster.remove, if_pos hpos]
      · rwa [if_pos hgone.1] at hd
    · rw [hst.1]
      simp only [Roster.remove, if_neg hpos]

theorem shown_removeSession (hnodup : ρ.pool.sessions.Nodup) (leaving : List SessionId) :
    Shown js session ρ (Standing env known rows) (Follows known rows session (t :: leaving) ρ)
      (TcpServer.removeSession env t) (ρ.remove t) (fun _ => Standing env known rows)
      fun _ => Follows known rows session leaving (ρ.remove t) := by
  rintro st page ⟨hst, hpage⟩ a ha
  let J := fun page' : Page => page' = page ∨ t ∈ ρ.pool.sessions ∧ 0 < ρ.pool.userId t ∧
    page' = page.updateContactStatus (some (ofInt32 (ρ.pool.userId t))) .offline
  have hread : Cmd.Observed (reads js session) (fun st page => At ρ (Standing env known rows) st ∧ J page)
      (TcpServer.removeSession env t) fun _ st page => At (ρ.remove t) (Standing env known rows) st ∧ J page := by
    refine Cmd.Observed.of_sat sat_removeSession_standing fun d page' hd hJ => ?_
    obtain ⟨⟨hmem, hpos⟩, info, hpayload⟩ := hd
    unfold reads
    split
    · rw [hpayload, handle_offlinePayload]
      refine .inr ⟨hmem, hpos, ?_⟩
      rcases hJ with rfl | ⟨-, -, rfl⟩
      · rfl
      · simp only [Page.updateContactStatus, Page.withStatus_withStatus]
    · exact hJ
  obtain ⟨hst, hpage'⟩ := hread st page ⟨hst, .inl rfl⟩ a ha
  exact ⟨hst, hpage.remove hnodup hpage'⟩

theorem shown_removeSessions (hnodup : ρ.pool.sessions.Nodup) (sessions : List SessionId) :
    Shown js session ρ (Standing env known rows) (Follows known rows session sessions ρ)
      (Cmd.each sessions (TcpServer.removeSession env)) (sessions.foldl Roster.remove ρ)
      (fun _ => Standing env known rows) fun _ => Follows known rows session [] (sessions.foldl Roster.remove ρ) := by
  induction sessions generalizing ρ with
  | nil => exact shown_pure ()
  | cons t sessions ih =>
    have hrest : (ρ.remove t).pool.sessions.Nodup := by
      rw [show (ρ.remove t).pool.sessions = ρ.pool.sessions.erase t from SessionPool.sessions_remove ρ.pool t]
      exact hnodup.erase t
    exact (shown_removeSession hnodup sessions).bind fun _ => ih hrest

/-! ## Logouts -/

theorem shown_handleLogout (henv : env.Serves) :
    Shown js session ρ (Standing env known rows) (fun page => page = before) (handleLogout env t) (ρ.logout t)
      (fun _ => Standing env known rows) fun _ page => (0 < ρ.pool.userId t →
        Announced known rows (ρ.logout t) session (ρ.pool.userId t) .offline before page) ∧
        (¬0 < ρ.pool.userId t → page = before) := by
  have hauth : Shown js session ρ (Standing env known rows) (fun page => page = before) (authenticatedUserId t) ρ
      (fun uid db => uid = ρ.pool.userId t ∧ Standing env known rows db) fun _ page => page = before :=
    (Cmd.Observed.of_sat (sat_authenticatedUserId (W := fun _ => False)) fun _ _ h => h.elim).post fun _ _ _ h =>
      ⟨⟨h.1.2.1, h.1.1, h.1.2.2⟩, h.2⟩
  refine hauth.bind fun uid => Shown.fact fun huid => ?_
  subst huid
  refine Cmd.Observed.bind (R := fun _ st page => At (ρ.logout t) (Standing env known rows) st ∧ _) ?_ fun _ =>
    shown_reply (by decide) (ofType_okReply (List.mem_singleton_self _) _ : OfType [.SystemBroadcast] _)
  refine Cmd.observed_ite (fun hpos => ?_) fun hpos => ?_
  · have hlogout : ρ.logout t = { ρ with
        pool := ρ.pool.unbindUser (ρ.pool.userId t)
        presence := ρ.presence.setOffline (ρ.pool.userId t) } := by
      simp only [Roster.logout, if_pos hpos]
    rw [hlogout]
    refine (shown_modifyPresence _).bind fun _ => (shown_onDb (sat_of_guarded (standing_setOnlineStatus _ false))).bind
      fun _ => (shown_modifyPool (ρ.pool.unbindUser (ρ.pool.userId t)) fun st hst => ?_).bind fun _ =>
        (shown_broadcastPresence henv .UserOffline _ before).post fun _ _ _ h => ⟨h.1, fun _ => h.2, fun h => (h hpos).elim⟩
    rw [SessionPool.bare_unbindUser]
    exact congrArg (fun r : Roster => r.pool.unbindUser _) hst.1
  · have hlogout : ρ.logout t = ρ := by simp only [Roster.logout, if_neg hpos]
    rw [hlogout]
    exact Cmd.observed_pure fun st page h => ⟨h.1, fun h => (hpos h).elim, fun _ => h.2⟩

/-! ## Logins -/

theorem status_toContacts {infos : Option Value} {c : Contact} (hc : c ∈ Page.toContacts infos) : c.status = .offline := by
  obtain ⟨info, -, rfl⟩ := List.mem_map.mp hc
  rfl

/-- Everybody in the list is shown, and as offline. -/
theorem shows_toContacts {listed : List UserInfo} (status : UserInfo → Bytes) {user : Int32} {known : Bool}
    (hlisted : known = true → user ∈ listed.map (·.id)) :
    Page.Shows (Page.toContacts (some (.arr (listed.map fun u => .obj (userToJson u (status u)))))) user known false where
  status c hc _ := by
    rw [status_toContacts hc]
    decide
  listed hknown := by
    obtain ⟨u, hu, rfl⟩ := List.mem_map.mp (hlisted hknown)
    refine ⟨Page.toContact (userToJson u (status u)), List.mem_map_of_mem ?_, ?_⟩
    · exact List.mem_filterMap.mpr ⟨_, List.mem_map_of_mem hu, rfl⟩
    · have hid : (Page.toContact (userToJson u (status u))).id = some (ofInt32 u.id) := by
        simp [Page.toContact, member, userToJson, find?_object]
      rw [Page.isOf, hid, strictEq_ofInt32]
      exact decide_eq_true rfl

theorem handle_loginReply (page : Page) (user : UserInfo) (uid : Int32) (friends users groups : List Value) :
    page.handleIncomingMessage js (loginReply user uid friends users groups) =
      ⟨some uid.toInt64, Page.toContacts (some (.arr users)), Page.toContacts (some (.arr friends))⟩ := by
  rw [Page.handle_login (typeField_of_find? (by rw [loginReply, find?_object]; simp))]
  simp [Page.loggedIn, member, loginReply, find?_object, truthy, int64Field, ofInt32, Value.isNumber, Value.asInt]

theorem foldl_messagesToArray (page : Page) (messages : List StoredMessage) :
    (elements (some (.arr (messagesToArray messages)))).foldl (Page.handleOne js) page = page := by
  induction messages with
  | nil => rfl
  | cons message messages ih =>
    obtain ⟨type, hmem, htype⟩ : OfType [.ReceiveGroupMsg, .ReceiveMsg]
        (messageToJson (if 0 < message.group_id then .ReceiveGroupMsg else .ReceiveMsg) message) :=
      ofType_messageToJson (by split <;> decide) message
    have hnone : type ∉ Page.seen := by
      have hall : ∀ type ∈ [MsgType.ReceiveGroupMsg, .ReceiveMsg], type ∉ Page.seen := by decide
      exact hall type hmem
    show (messageToJson _ message :: elements (some (.arr (messagesToArray messages)))).foldl (Page.handleOne js) page = page
    rw [List.foldl_cons, Page.handleOne_of_type htype hnone]
    exact ih

/-- What waits for a client are messages. -/
theorem handle_offlineReply (page : Page) (messages : List StoredMessage) :
    page.handleIncomingMessage js (offlineReply messages) = page := by
  have htype : typeField (offlineReply messages) = some .OfflineMessages :=
    typeField_of_find? (by rw [offlineReply, find?_object]; simp)
  have hmessages : member (offlineReply messages) "messages" = some (.arr (messagesToArray messages)) := by
    simp [member, offlineReply, find?_object]
  simp only [Page.handleIncomingMessage, htype, hmessages]
  exact foldl_messagesToArray page messages

theorem shown_deliverOffline (uid : Int32) {I : Page → Prop} :
    Shown js session ρ (Standing env known rows) I (deliverOffline env t uid) ρ (fun _ => Standing env known rows)
      fun _ => I := by
  have hr := @reads_standing env known rows
  refine (shown_onDb (sat_of_guarded ((writesTo_standing (by decide)).offlineForUser hr uid 100))).bind fun messages =>
    Cmd.observed_ite (fun _ => shown_pure ()) fun _ => shown_deliverContent fun page hpage => ?_
  split
  · rwa [handle_offlineReply]
  · exact hpage

/-- What a page shows after a login on session `t`. -/
def Welcomed (known : Int32 → Bool) (rows : List FriendshipRow) (ρ : Roster) (session t : SessionId) (user : Int32)
    (before after : Page) : Prop :=
  ∃ page, (t = session → ∀ friend, rows.any (isAccepted user friend) = true → ShowsBoth page friend (known friend) false) ∧
    (t ≠ session → page = before) ∧ Announced known rows ρ session user .online page after

theorem shown_acceptLogin (henv : env.Serves) (uid : Int32) (user : UserInfo) :
    Shown js session ρ (Standing env known rows) (fun page => page = before) (acceptLogin env t uid user)
      (ρ.login t uid) (fun _ => Standing env known rows) fun _ => Welcomed known rows (ρ.login t uid) session t uid before := by
  have hbind : ∀ st, At ρ (Standing env known rows) st → (st.pool.bindUser t uid).2.bare = (ρ.pool.bindUser t uid).2 := by
    intro st hst
    rw [SessionPool.bare_bindUser]
    exact congrArg (fun r : Roster => (r.pool.bindUser t uid).2) hst.1
  have hasks : Shown js session (ρ.login t uid) (Standing env known rows) (fun page => page = before)
      (Cmd.asks fun st => st.presence) (ρ.login t uid) (fun _ => Standing env known rows) fun _ page => page = before :=
    Cmd.Observed.of_sat (Cmd.sat_asks (E := fun _ _ => True) (W := fun _ => False) fun _ h => h) fun _ _ h => h.elim
  refine (shown_modifyPool _ hbind).bind fun _ => (shown_modifyPresence _).bind fun _ => ?_
  change Shown js session (ρ.login t uid) _ _ _ _ _ _
  refine (shown_onDb (sat_of_guarded (standing_setOnlineStatus uid true))).bind fun _ => hasks.bind fun presence =>
    (shown_onDb sat_getAllUsers_known).bind fun users => Shown.fact fun husers =>
    (shown_onDb (sat_getFriends_known henv uid)).bind fun friends => Shown.fact fun hfriends =>
    (shown_onDb (sat_of_guarded (reads_standing.groupsForUser uid))).bind fun groups => ?_
  let page := if t = session then (⟨some uid.toInt64,
      Page.toContacts (some (.arr (users.map fun u => .obj (userToJson u (presence.status u.id))))),
      Page.toContacts (some (.arr (friends.map fun u => .obj (friendToJson u (presence.status u.id)))))⟩ : Page)
    else before
  refine Cmd.Observed.bind (shown_deliverContent (J := fun p => p = page) fun p hp => ?_) fun _ =>
    (shown_deliverOffline uid).bind fun _ => (shown_broadcastPresence henv .UserOnline uid page).post fun _ _ _ h => ⟨h.1, page, fun ht => ?_, fun ht => ?_, h.2⟩
  · rw [hp, handle_loginReply]
  · intro friend hfriend
    simp only [page, if_pos ht]
    exact ⟨shows_toContacts (fun u => presence.status u.id) (husers friend),
      shows_toContacts (fun u => presence.status u.id) fun hknown => (hfriends friend hknown).mpr hfriend⟩
  · simp only [page, if_neg ht]

/-- Where a login request leads to from the database `db`. -/
def LoginOutcome (env : Env) (known : Int32 → Bool) (rows : List FriendshipRow) (session t : SessionId) (request : Object)
    (db : Database) (ρ : Roster) (before : Page) (st : Server) (after : Page) : Prop :=
  let uid := intField request "id" 0
  At ρ (Standing env known rows) st ∧ after = before ∨
    ∃ info, (admitted env request db).result = .ok (some info) ∧ 0 < uid ∧ known uid = true ∧
      At (ρ.login t uid) (Standing env known rows) st ∧ Welcomed known rows (ρ.login t uid) session t uid before after

theorem shown_handleLogin (henv : env.Serves) {db : Database} (hdb : Standing env known rows db) (request : Object) :
    Cmd.Observed (reads js session) (fun st page => At ρ (fun db' => db' = db) st ∧ page = before)
      (handleLogin env t request) fun _ => LoginOutcome env known rows session t request db ρ before := by
  have hrefused : ∀ {db' : Database} (code : Int32) (msg : String), Standing env known rows db' →
      Cmd.Observed (reads js session) (fun st page => At ρ (fun d => d = db') st ∧ page = before)
        (deliver t (errorReply .LoginFailedReturn code msg))
        fun _ => LoginOutcome env known rows session t request db ρ before := by
    intro db' code msg hdb'
    refine (shown_reply (by decide) (ofType_errorReply (List.mem_singleton_self _) code msg :
      OfType [.LoginFailedReturn] _)).post fun _ st page h => .inl ⟨⟨h.1.1, ?_⟩, h.2⟩
    rw [h.1.2]
    exact hdb'
  refine Cmd.observed_ite (fun _ => hrefused _ _ hdb) fun hneg => ?_
  have hverify := (standing_verifyPassword (intField request "id" 0) (stringField request "password" []) db hdb).2.1
  refine (shown_onDb_exact _ _).bind fun verified => Cmd.Observed.of_fact fun hverified => ?_
  refine Cmd.observed_ite (fun _ => hrefused _ _ (hverify verified hverified)) fun hv => ?_
  have hfind := (sat_findById_known (intField request "id" 0) _ (hverify verified hverified)).2.1
  refine (shown_onDb_exact _ _).bind fun found => Cmd.Observed.of_fact fun hfound => ?_
  obtain ⟨hknown, hdb'⟩ := hfind found hfound
  cases found with
  | none => exact hrefused _ _ hdb'
  | some user =>
    have hadmitted : (admitted env request db).result = .ok (some user) := by
      simp only [admitted]
      rw [if_neg hneg, Cmd.bind_ok _ hverified, if_neg hv]
      exact hfound
    have hknown : known (intField request "id" 0) = true := by
      by_contra hno
      rw [if_neg hno] at hknown
      cases hknown
    refine ((shown_acceptLogin henv _ user).pre fun st page h => ⟨⟨h.1.1, ?_⟩, h.2⟩).post fun _ st page h =>
      .inr ⟨user, hadmitted, Int32.not_le.mp hneg, hknown, h.1, h.2⟩
    rw [h.1.2]
    exact hdb'

end Events

/-! ## Steps -/

section Steps

variable {js : Js} {env : Env} {known : Int32 → Bool} {rows : List FriendshipRow} {session : SessionId}

/-- The tables can be read, and the page follows the server. -/
structure Accord (env : Env) (known : Int32 → Bool) (rows : List FriendshipRow) (session : SessionId) (st : Server)
    (page : Page) : Prop where
  standing : Standing env known rows st.db
  recorded : Recorded known st.roster
  follows : Follows known rows session [] st.roster page

/-- The page follows the server when it has caught up. -/
structure InStep (js : Js) (env : Env) (known : Int32 → Bool) (rows : List FriendshipRow) (session : SessionId)
    (w : Clients) : Prop where
  kept : TcpServer.Kept w.server.roster
  accord : Accord env known rows session w.server (w.caughtUp js session)

theorem InStep.start {db : Database} (hdb : Standing env known rows db) (page : SessionId → Page) :
    InStep js env known rows session (.start db page) where
  kept := TcpServer.kept_start db
  accord :=
    { standing := hdb
      recorded := ⟨fun t ht => (List.not_mem_nil ht).elim, fun user h => by cases h⟩
      follows := fun h => (List.not_mem_nil h.2.1).elim }

/-- What has been handed out is on its way. -/
theorem caughtUp_serverHandles (js : Js) (session : SessionId) {w w' : Clients} {event : TcpServer.Event} (h : w.serverHandles env event = some w') :
    (TcpServer.handle env event w.server).result = .ok () ∧ w'.server = (TcpServer.handle env event w.server).state ∧
      w'.caughtUp js session =
        (TcpServer.handle env event w.server).out.foldl (reads js session) (w.caughtUp js session) := by
  unfold Clients.serverHandles at h
  dsimp only at h
  cases hresult : (TcpServer.handle env event w.server).result with
  | error e =>
    rw [hresult] at h
    cases h
  | ok _ =>
    rw [hresult] at h
    cases h
    refine ⟨rfl, rfl, ?_⟩
    rw [foldl_reads]
    exact List.foldl_append ..

theorem shown_modifySession {ρ : Roster} {F : Database → Prop} {I : Page → Prop} (t : SessionId)
    (f : AsyncSession → AsyncSession) (h : ∀ s, (f s).user_id = s.user_id) :
    Shown js session ρ F I (TcpServer.modifySession t f) ρ (fun _ => F) fun _ => I :=
  Cmd.Observed.of_sat (TcpServer.sat_modifySession (W := fun _ => False) h) fun _ _ h => h.elim

theorem shown_heartbeat {ρ : Roster} {F : Database → Prop} {I : Page → Prop} (t : SessionId) (now later : Int) :
    Shown js session ρ F I (TcpServer.modifySession t (fun s => (s.consumeRateLimitToken now).2) >>= fun _ =>
        TcpServer.modifySession t (AsyncSession.heartbeatReceived later) >>= fun _ =>
          deliver t (okReply .HeartbeatAck "ok"))
      ρ (fun _ => F) fun _ => I :=
  (shown_modifySession t _ (AsyncSession.consumeRateLimitToken_user_id now)).bind fun _ =>
    (shown_modifySession t (AsyncSession.heartbeatReceived later) fun _ => rfl).bind fun _ =>
      shown_reply (by decide) (ofType_okReply (List.mem_singleton_self _) "ok" : OfType [.HeartbeatAck] _)

theorem recorded_removeAll {ρ : Roster} (h : Recorded known ρ) (sessions : List SessionId) :
    Recorded known (sessions.foldl Roster.remove ρ) := by
  induction sessions generalizing ρ with
  | nil => exact h
  | cons t sessions ih => exact ih (h.remove t)

section Handle

variable {w : Clients} (h : InStep js env known rows session w)

include h

/-- No friend that is online is among the sessions that the event removes. -/
theorem follows_removes {event : TcpServer.Event} (hcalm : Calm js env session w event) :
    Follows known rows session (TcpServer.removes env w.server event) w.server.roster (w.caughtUp js session) := by
  intro hlogged hstays
  refine ⟨(h.accord.follows hlogged List.not_mem_nil).1, fun t ht hpooled hfriend => ?_⟩
  refine hcalm.stays hlogged hstays t ht hpooled ?_
  unfold Clients.friends
  rwa [h.accord.standing.friendRows]

theorem accord_removeSessions (sessions : List SessionId) :
    Cmd.Observed (reads js session)
      (fun st page => At w.server.roster (Standing env known rows) st ∧ Follows known rows session sessions w.server.roster page)
      (Cmd.each sessions (TcpServer.removeSession env)) fun _ => Accord env known rows session :=
  (shown_removeSessions (TcpServer.nodup_sessions h.kept) sessions).post fun _ _ _ hst =>
    have hroster := hst.1.1
    ⟨hst.1.2, hroster ▸ recorded_removeAll h.accord.recorded sessions, hroster ▸ hst.2⟩

theorem accord_removeSession (t : SessionId) :
    Cmd.Observed (reads js session)
      (fun st page => At w.server.roster (Standing env known rows) st ∧ Follows known rows session [t] w.server.roster page)
      (TcpServer.removeSession env t) fun _ => Accord env known rows session :=
  (shown_removeSession (TcpServer.nodup_sessions h.kept) []).post fun _ _ _ hst =>
    have hroster := hst.1.1
    ⟨hst.1.2, hroster ▸ h.accord.recorded.remove t, hroster ▸ hst.2⟩

/-- A user logs in on this session, or on another. -/
theorem accord_login (henv : env.Serves) {event : TcpServer.Event} {t : SessionId} {request : Object}
    (hlogs : ∀ info, (admitted env request w.server.db).result = .ok (some info) →
      LogsIn env w.server event t (intField request "id" 0)) (hcalm : Calm js env session w event) :
    Cmd.Observed (reads js session)
      (fun st page => At w.server.roster (fun db => db = w.server.db) st ∧ page = w.caughtUp js session)
      (handleLogin env t request) fun _ => Accord env known rows session := by
  refine (shown_handleLogin henv h.accord.standing request).post fun _ st page hout => ?_
  rcases hout with ⟨hst, rfl⟩ | ⟨info, hadmitted, hpos, hknown, hst, shown, hself, hother, hread⟩
  · have hroster := hst.1
    exact ⟨hst.2, hroster ▸ h.accord.recorded, hroster ▸ h.accord.follows⟩
  · have hroster := hst.1
    refine ⟨hst.2, hroster ▸ h.accord.recorded.login hpos hknown t, hroster ▸ ?_⟩
    have hlogsIn := hlogs info hadmitted
    rcases eq_or_ne t session with rfl | hne
    · refine Follows.login_self hknown hpos (hcalm.sole _ hlogsIn) (fun friend hfriend hrow => ?_) (hself rfl) hread
      refine hcalm.first _ hlogsIn friend ?_ hfriend
      unfold Clients.friends
      rwa [h.accord.standing.friendRows]
    · cases hother hne
      exact h.accord.follows.login_other h.accord.recorded hknown hpos hne
        (fun hlogged => hcalm.alone hlogged t _ hne hlogsIn) hread

theorem accord_logout (henv : env.Serves) (t : SessionId) :
    Cmd.Observed (reads js session)
      (fun st page => At w.server.roster (Standing env known rows) st ∧ page = w.caughtUp js session)
      (handleLogout env t) fun _ => Accord env known rows session := by
  refine (shown_handleLogout henv).post fun _ st page hst => ?_
  obtain ⟨⟨hroster, hdb⟩, hannounced, hsame⟩ := hst
  refine ⟨hdb, hroster ▸ h.accord.recorded.logout h.kept.indexed t, hroster ▸ ?_⟩
  rcases em (0 < w.server.roster.pool.userId t) with hpos | hpos
  · exact h.accord.follows.logout h.kept.indexed h.accord.recorded hpos (hannounced hpos)
  · rw [hsame hpos, show w.server.roster.logout t = w.server.roster by simp only [Roster.logout, if_neg hpos]]
    exact h.accord.follows

theorem accord_here : At w.server.roster (Standing env known rows) w.server := ⟨rfl, h.accord.standing⟩

/-- A frame: it is refused, or a login, a logout or a heartbeat. -/
theorem accord_frame (henv : env.Serves) {t : SessionId} {json : Bytes} {now later : Int}
    (hreading : w.server.reading t = true) (hcomes : comesOrGoes (.frame t json now later) = true)
    (hcalm : Calm js env session w (.frame t json now later)) :
    Cmd.Observed (reads js session) (fun st page => st = w.server ∧ page = w.caughtUp js session)
      (TcpServer.handle env (.frame t json now later)) fun _ => Accord env known rows session := by
  rintro st page ⟨rfl, rfl⟩
  have hgone := follows_removes h hcalm
  have hmeter : ∀ s : AsyncSession, (s.consumeRateLimitToken now).2.user_id = s.user_id :=
    AsyncSession.consumeRateLimitToken_user_id now
  rcases em (TcpServer.Exhausted w.server t now) with hout | hgranted
  · rw [TcpServer.handle_reading_frame hreading, if_pos hout]
    rw [TcpServer.removes, if_pos ⟨hreading, TcpServer.exhausted_iff.mp hout⟩] at hgone
    exact ((shown_modifySession t _ hmeter).bind fun _ => accord_removeSession h t) _ _ ⟨accord_here h, hgone⟩
  have hhandled : TcpServer.Handled w.server t now := by
    rw [TcpServer.exhausted_iff, Bool.not_eq_false] at hgranted
    exact ⟨hreading, hgranted⟩
  intro a hresult
  have hsame := TcpServer.parseObject_of_handle hhandled hresult
  cases hparse : readObject json with
  | none => simp [comesOrGoes, hparse] at hcomes
  | some request =>
    rcases em (typeField request = some .Heartbeat) with hbeat | hbeat
    · rw [TcpServer.handle_reading_frame hreading, if_neg hgranted, if_pos (by simp [hsame, hparse, hbeat])] at hresult ⊢
      have hshown : Cmd.Observed (reads js session) _ _ fun _ => Accord env known rows session :=
        (shown_heartbeat t now later).post fun _ _ _ hst =>
          ⟨hst.1.2, hst.1.1 ▸ h.accord.recorded, hst.1.1 ▸ hst.2⟩
      exact hshown _ _ ⟨accord_here h, h.accord.follows⟩ a hresult
    · obtain ⟨s, hroster, hdb, hrun⟩ := TcpServer.handle_frame hhandled (hsame.trans hparse) hbeat
      rw [hrun] at hresult ⊢
      have htype : typeField request = some .Login ∨ typeField request = some .Logout := by
        simpa [comesOrGoes, hparse, hbeat] using hcomes
      rcases htype with htype | htype
      · have hlogs : ∀ info, (admitted env request w.server.db).result = .ok (some info) →
            LogsIn env w.server (.frame t json now later) t (intField request "id" 0) := fun info hinfo => by
          simp only [LogsIn, loginOf, hparse, bind, Option.bind, hinfo, if_pos (And.intro hhandled htype)]
        have hlogin := accord_login h henv hlogs hcalm
        unfold dispatch at hresult ⊢
        simp only [htype] at hresult ⊢
        exact hlogin s _ ⟨⟨hroster, hdb⟩, rfl⟩ a hresult
      · unfold dispatch at hresult ⊢
        simp only [htype] at hresult ⊢
        exact accord_logout h henv t s _ ⟨⟨hroster, hdb ▸ h.accord.standing⟩, rfl⟩ a hresult

theorem accord_handle (henv : env.Serves) {event : TcpServer.Event} (hcomes : comesOrGoes event = true)
    (hcalm : Calm js env session w event) :
    Cmd.Observed (reads js session) (fun st page => st = w.server ∧ page = w.caughtUp js session)
      (TcpServer.handle env event) fun _ => Accord env known rows session := by
  have hgone := follows_removes h hcalm
  rintro st page ⟨rfl, rfl⟩
  cases event with
  | accept now =>
    intro _ _
    have hout : (TcpServer.handle env (.accept now) w.server).out = [] := TcpServer.out_accept now w.server
    have hroster : (TcpServer.handle env (.accept now) w.server).state.roster = w.server.roster.accept :=
      (TcpServer.sat_handle w.server (.accept now) _ rfl).2.1 _ (by assumption)
    rw [hout]
    refine ⟨?_, hroster ▸ h.accord.recorded.accept, hroster ▸ h.accord.follows.accept⟩
    show Standing env known rows (TcpServer.accept now w.server).state.db
    rw [TcpServer.state_accept]
    exact h.accord.standing
  | frame t json now later =>
    rcases em (w.server.reading t = true) with hreading | hreading
    · exact accord_frame h henv hreading hcomes hcalm _ _ ⟨rfl, rfl⟩
    · intro _ _
      have hnone : TcpServer.handle env (.frame t json now later) w.server = ⟨.ok (), w.server, []⟩ := by
        unfold TcpServer.handle
        dsimp only
        rw [Cmd.bind_of_run _ (Cmd.asks_apply ..), if_neg (show ¬(w.server.pool.object t).reading = true from hreading)]
        rfl
      rw [hnone]
      exact h.accord
  | readError t =>
    unfold TcpServer.handle
    dsimp only
    rw [Cmd.bind_of_run _ (Cmd.asks_apply ..)]
    rcases em (w.server.reading t = true) with hreading | hreading
    · rw [TcpServer.removes, if_pos hreading] at hgone
      rw [show (w.server.pool.object t).reading = true from hreading, if_pos rfl]
      exact ((shown_modifySession t AsyncSession.stopReading fun _ => rfl).bind fun _ => accord_removeSession h t)
        _ _ ⟨accord_here h, hgone⟩
    · rw [if_neg (show ¬(w.server.pool.object t).reading = true from hreading)]
      intro _ _
      exact h.accord
  | sweep now =>
    exact accord_removeSessions h _ _ _ ⟨accord_here h, hgone⟩

end Handle

/-- A page that reads a frame has caught up no less. -/
theorem caughtUp_receive {w : Clients} {s : SessionId} {payload : Object} {rest : List Object} (hdown : w.down s = payload :: rest) :
    Clients.caughtUp js { w with
      page := Function.update w.page s ((w.page s).handleIncomingMessage js payload)
      down := Function.update w.down s rest } session = w.caughtUp js session := by
  unfold Clients.caughtUp
  rcases eq_or_ne session s with rfl | hne
  · simp only [Function.update_self, hdown, List.foldl_cons]
  · simp only [Function.update_of_ne hne]

theorem InStep.step (henv : env.Serves) {w w' : Clients} {e : ClientEvent} (h : InStep js env known rows session w)
    (hcalm : CalmFor js env session w e) (hstep : w.step js env e = some w') :
    InStep js env known rows session w' := by
  cases e with
  | server event =>
    unfold Clients.step at hstep
    dsimp only at hstep
    split at hstep
    · next hcomes =>
      obtain ⟨hok, hserver, hpage⟩ := caughtUp_serverHandles js session hstep
      refine ⟨?_, ?_⟩
      · have hserved : TcpServer.step env w.server event = some w'.server := by
          unfold TcpServer.step
          rw [hok, hserver]
        exact h.kept.step hserved
      · rw [hserver, hpage]
        exact accord_handle h henv hcomes hcalm _ _ ⟨rfl, rfl⟩ () hok
    · cases hstep
  | receive s =>
    unfold Clients.step at hstep
    dsimp only at hstep
    cases hdown : w.down s with
    | nil =>
      rw [hdown] at hstep
      cases hstep
    | cons payload rest =>
      rw [hdown] at hstep
      cases hstep
      exact ⟨h.kept, h.accord.standing, h.accord.recorded, (caughtUp_receive hdown).symm ▸ h.accord.follows⟩
  | logout s =>
    cases hstep
    refine ⟨h.kept, h.accord.standing, h.accord.recorded, ?_⟩
    rcases eq_or_ne session s with rfl | hne
    · have hpage : Clients.caughtUp js { w with page := Function.update w.page session (w.page session).logout } session =
          (w.down session).foldl (Page.handleIncomingMessage js) Page.initial := by
        simp only [Clients.caughtUp, Function.update_self]
        rfl
      rw [hpage]
      rcases Page.foldl_handle_or js (w.page session) Page.initial (w.down session) with hsame | ⟨-, hnone⟩
      · exact hsame ▸ h.accord.follows
      · exact fun hlogged => (hlogged.1 hnone).elim
    · have hpage : Clients.caughtUp js { w with page := Function.update w.page s (w.page s).logout } session =
          w.caughtUp js session := by
        simp only [Clients.caughtUp, Function.update_of_ne hne]
      exact hpage.symm ▸ h.accord.follows

theorem InStep.agreesFor {w : Clients} (h : InStep js env known rows session w) : w.AgreesFor js session := by
  intro hdown hlogged friend hfriend
  have hpage : w.caughtUp js session = w.page session := by
    unfold Clients.caughtUp
    rw [hdown]
    rfl
  unfold Clients.friends at hfriend
  rw [h.accord.standing.friendRows] at hfriend
  have hlists := (h.accord.follows hlogged List.not_mem_nil).1.lists friend hfriend
  rw [hpage] at hlists
  have hlisted := h.accord.recorded.online friend
  exact ⟨⟨hlists.1.status, fun hon => hlists.1.listed (hlisted hon)⟩,
    ⟨hlists.2.status, fun hon => hlists.2.listed (hlisted hon)⟩⟩

end Steps

/-! ## Runs -/

open FriendRepository in
/-- A page agrees with the server about its friends in every state of a run whose
events are calm for it. -/
theorem statuses_agree (js : Js) {env : Env} (henv : env.Serves) {known : Int32 → Bool} {rows : List FriendshipRow}
    {db : Database} (hdb : Standing env known rows db) (page : SessionId → Page) (session : SessionId)
    {events : List ClientEvent}
    (h : Along (Clients.step js env) (CalmFor js env session) (.start db page) events) :
    Throughout (Clients.step js env) (Clients.AgreesFor js session) (.start db page) events :=
  (throughout_of_along (J := fun _ => True) (I := InStep js env known rows session) (fun _ _ _ _ _ => trivial)
    (fun _ _ _ _ hstep hs hcalm => hstep.step henv hcalm hs) trivial (.start hdb page) h).imp fun _ h => h.agreesFor

/-! ### Two friends -/

/-- The database with the friends 1000 and 1001 and the user 1002. -/
def befriended : Database :=
  (run (TcpServer.step .ideal) (.boot .ideal .empty) (TcpServer.threeUsers ++ TcpServer.befriend)).elim
    (Server.boot .ideal .empty).db fun st => st.db

/-- The two friends log in one after the other. -/
def twoLogins : List ClientEvent :=
  [.server (.accept 0), .server (.accept 0),
    .server (TcpServer.request 1 .Login [("id", .int 1000), ("password", text "p")]),
    .server (TcpServer.request 2 .Login [("id", .int 1001), ("password", text "p")])]

theorem standing_befriended :
    ∃ users : RowList, Standing .ideal (fun id => users.any (isRowOf id)) befriended.friendRows befriended := by
  have hcheck : (befriended.tables .users).any (fun users =>
      users.all fun row => userFields.all fun key => (row.find? (lit key)).isSome) = true ∧
      befriended.sqlite.transaction.isNone = true := by
    decide +kernel
  obtain ⟨users, hmem, hall⟩ := (Option.any_eq_true _ _).mp hcheck.1
  refine ⟨users, ⟨users, .inl hmem, fun row hrow key hkey => ?_, fun _ => rfl⟩,
    Database.friendsShow_of_idle (Option.isNone_iff_eq_none.mp hcheck.2) rfl⟩
  exact List.all_eq_true.mp (List.all_eq_true.mp hall row hrow) key hkey

/-- The one who logs in first is told of the other. -/
theorem statuses_agree_first : ∃ known rows, Standing .ideal known rows befriended ∧
    Throughout (Clients.step .plain .ideal) (Clients.AgreesFor .plain 1) (.start befriended fun _ => .initial)
      (twoLogins ++ [ClientEvent.receive 1, .receive 1, .receive 2]) := by
  obtain ⟨users, hstanding⟩ := standing_befriended
  exact ⟨_, _, hstanding, statuses_agree .plain (fun _ => rfl) hstanding _ 1 (by decide +kernel)⟩

/-- The one who logs in second is shown the first as offline. -/
theorem friend_shown_offline :
    ¬∀ js env known rows db page session events, env.Serves → Standing env known rows db →
      Throughout (Clients.step js env) (Clients.AgreesFor js session) (.start db page) events := by
  intro hall
  obtain ⟨users, hstanding⟩ := standing_befriended
  have hrun : ((run (Clients.step .plain .ideal) (.start befriended fun _ => .initial) (twoLogins ++ [ClientEvent.receive 2])).map fun w =>
      ((w.down 2).isEmpty, decide (w.LoggedIn .plain 2), Clients.friends w.server (w.server.userId 2) 1000,
        w.server.presence.isOnline 1000,
        (w.page 2).contacts.any fun c => Page.isOf 1000 c && c.status = .offline)) =
      some (true, true, true, true, true) := by
    decide +kernel
  obtain ⟨w, hw, heq⟩ := Option.map_eq_some_iff.mp hrun
  simp only [Prod.mk.injEq, List.isEmpty_iff, decide_eq_true_eq] at heq
  obtain ⟨hdown, hlogged, hfriend, honline, hshown⟩ := heq
  obtain ⟨c, hc, hoffline⟩ := List.any_eq_true.mp hshown
  simp only [Bool.and_eq_true, decide_eq_true_eq] at hoffline
  have hagrees := (hall .plain .ideal _ _ befriended _ 2 _ (fun _ => rfl) hstanding).last hw hdown hlogged 1000 hfriend
  have hon := (hagrees.1.status c hc hoffline.1).mpr honline
  rw [hoffline.2] at hon
  cases hon

end Client

end LanChat
