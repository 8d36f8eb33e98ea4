import LanChat.Db.Friendships
import LanChat.Server.Access

/-!
# Who changes a friendship

What a step of the server does to the friendships: nothing, or what the friend
request that it handles does (`friends_step`).
-/

namespace LanChat

open Lib Json

namespace MessageRouter

open Database FriendRepository

variable (env : Env)

/-- The requests about friends. -/
def friendTypes : List MsgType := [.FriendRequest, .FriendAccept, .FriendRemove]

/-- The repository call of a request that is about friends, and whether it succeeds. -/
def friendCall (uid : Int32) (request : Object) : DbM Bool :=
  match typeField request with
  | some .FriendRequest =>
    Cmd.andAlso (0 < uid ∧ 0 < intField request "toId" 0) <|
      sendRequest env uid (intField request "toId" 0) (stringField request "msg" [])
  | some .FriendAccept =>
    Cmd.andAlso (0 < intField request "fromId" 0 ∧ 0 < uid) <|
      acceptRequest env (intField request "fromId" 0) uid
  | some .FriendRemove => do
    let answer ← rejectOrRemove env uid (intField request "fromId" 0) (intField request "toId" 0)
    pure answer.2
  | _ => pure false

/-- What a request of the user may do to the friendships. -/
inductive Change (uid : Int32) (request : Object) (rows rows' : List FriendshipRow) : Prop
  | requested : typeField request = some .FriendRequest → 0 < uid →
      Requested uid (intField request "toId" 0) rows rows' → Change uid request rows rows'
  | accepted : typeField request = some .FriendAccept → 0 < uid →
      Answered (intField request "fromId" 0) uid .accepted rows rows' → Change uid request rows rows'
  | rejected : typeField request = some .FriendRemove → 0 < uid → intField request "toId" 0 = uid →
      Answered (intField request "fromId" 0) uid .rejected rows rows' → Change uid request rows rows'
  | removed : typeField request = some .FriendRemove → 0 < uid → 0 < intField request "fromId" 0 →
      0 < intField request "toId" 0 →
      Removed (intField request "fromId" 0) (intField request "toId" 0) rows rows' →
      Change uid request rows rows'

variable {env} {uid : Int32} {request : Object} {db : Database}

theorem alters_andAlso {A : List FriendshipRow → List FriendshipRow → Prop} {b : Prop} [Decidable b]
    {c : DbM Bool} (hidle : db.Idle) (h : b → Alters A c db) : Alters A (Cmd.andAlso b c) db := by
  unfold Cmd.andAlso
  split
  · next hb => exact h hb
  · exact alters_false hidle

/-- What `rejectOrRemove` may answer, and what it has done then. -/
inductive Removal (uid fromId toId : Int32) (rows rows' : List FriendshipRow) : Bool × Bool → Prop
  | nothing : rows' = rows → Removal uid fromId toId rows rows' (false, false)
  | rejected : 0 < uid → toId = uid → Answered fromId uid .rejected rows rows' →
      Removal uid fromId toId rows rows' (true, true)
  | removed : 0 < uid → 0 < fromId → 0 < toId → Removed fromId toId rows rows' →
      Removal uid fromId toId rows rows' (false, true)

theorem alters_reject {fromId toId : Int32} (hidle : db.Idle) :
    Alters (fun rows rows' => toId = uid ∧ Answered fromId uid .rejected rows rows')
      (Cmd.andAlso (uid = toId) (rejectRequest env fromId toId)) db :=
  alters_andAlso hidle fun heq => heq ▸ (alters_setStatus hidle ..).imp fun h => ⟨rfl, h⟩

theorem run_rejectOrRemove {fromId toId : Int32} (hidle : db.Idle) :
    ∃ answer db', rejectOrRemove env uid fromId toId db = ⟨.ok answer, db', []⟩ ∧ db'.Idle ∧
      Removal uid fromId toId db.friendRows db'.friendRows answer := by
  unfold rejectOrRemove
  split
  · exact ⟨_, db, rfl, hidle, .nothing rfl⟩
  next hvalid =>
  simp only [not_or, Int32.not_le] at hvalid
  obtain ⟨hpos, hfrom, hto⟩ := hvalid
  obtain ⟨b, db₁, hrun, hidle₁, hrows⟩ := @alters_reject env uid _ fromId toId hidle
  rw [Cmd.bind_of_run _ hrun]
  rcases hrows with ⟨rfl, hsame⟩ | ⟨rfl, hself, hrejected⟩
  · obtain ⟨removed, db₂, hrun₂, hidle₂, hrows₂⟩ := @alters_removeFriendship env _ hidle₁ fromId toId
    simp only [Bool.false_eq_true, if_false]
    rw [Cmd.bind_of_run _ hrun₂]
    rw [hsame] at hrows₂
    refine ⟨_, db₂, rfl, hidle₂, ?_⟩
    rcases hrows₂ with ⟨rfl, hsame₂⟩ | ⟨rfl, hremoved⟩
    · exact .nothing hsame₂
    · exact .removed hpos hfrom hto hremoved
  · exact ⟨_, db₁, rfl, hidle₁, .rejected hpos hself hrejected⟩

/-- A pending request is rejected when SQLite serves. -/
theorem result_rejectOrRemove (henv : env.Serves) (hidle : db.Idle) {fromId : Int32} (hpos : 0 < uid)
    (hfrom : 0 < fromId) (hpending : db.friendRows.any (isPending fromId uid) = true) :
    (rejectOrRemove env uid fromId uid db).result = .ok (true, true) := by
  have hvalid : ¬(uid ≤ 0 ∨ fromId ≤ 0 ∨ uid ≤ 0) := by
    simp only [not_or, Int32.not_le]
    exact ⟨hpos, hfrom, hpos⟩
  have hreject : (rejectRequest env fromId uid db).result = .ok true :=
    result_setStatus henv hidle hpending
  obtain ⟨b, db₁, hrun, -, -⟩ := @alters_setStatus env _ hidle fromId uid .rejected
  rw [rejectRequest, hrun] at hreject
  cases hreject
  rw [rejectOrRemove, if_neg hvalid, Cmd.andAlso, if_pos rfl, rejectRequest, Cmd.bind_of_run _ hrun]
  rfl

/-- Only a request that succeeds changes the friendships. -/
theorem alters_friendCall (hidle : db.Idle) : Alters (Change uid request) (friendCall env uid request) db := by
  unfold friendCall
  split
  · next htype =>
    exact alters_andAlso hidle fun hpos => (alters_sendRequest hidle ..).imp (.requested htype hpos.1)
  · next htype =>
    exact alters_andAlso hidle fun hpos => (alters_setStatus hidle ..).imp (.accepted htype hpos.2)
  · next htype =>
    obtain ⟨answer, db', hrun, hidle', hremoval⟩ := @run_rejectOrRemove env uid _
      (intField request "fromId" 0) (intField request "toId" 0) hidle
    refine ⟨answer.2, db', by rw [Cmd.bind_of_run _ hrun]; rfl, hidle', ?_⟩
    cases hremoval with
    | nothing h => exact .inl ⟨rfl, h⟩
    | rejected hpos hto h => exact .inr ⟨rfl, .rejected htype hpos hto h⟩
    | removed hpos hfrom hto h => exact .inr ⟨rfl, .removed htype hpos hfrom hto h⟩
  · exact alters_false hidle

/-! ## Requests -/

section Dispatch

variable {P : List FriendshipRow → Prop} {st : Server} {session : SessionId} {α : Type}

/-- The first database access of a handler. -/
theorem sat_call {c : DbM α} (h : FriendsShow P (c db).state) :
    Cmd.Sat (fun s => s.db = db) (onDb c) (fun _ s => FriendsShow P s.db)
      (fun e s => FriendsShow P s.db ∨ e.OutsideDb ∧ FriendsShow P s.db)
      fun d => FriendsShow P d.at_.db := by
  rintro s rfl
  exact ⟨nofun, fun _ _ => h, fun _ _ => .inl h⟩

theorem sat_andAlso_call {b : Prop} [Decidable b] {c : DbM Bool}
    (h : FriendsShow P (Cmd.andAlso b c db).state) :
    Cmd.Sat (fun s => s.db = db) (Cmd.andAlso b (onDb c)) (fun _ s => FriendsShow P s.db)
      (fun e s => FriendsShow P s.db ∨ e.OutsideDb ∧ FriendsShow P s.db)
      fun d => FriendsShow P d.at_.db := by
  unfold Cmd.andAlso at h ⊢
  split at h
  · next hb =>
    rw [if_pos hb]
    exact sat_call h
  · next hb =>
    rw [if_neg hb]
    exact Cmd.sat_pure fun _ hs => hs ▸ h

theorem sat_auth {f : Int32 → RouterM Unit} {Q : Unit → Server → Prop} {E : Exn → Server → Prop}
    {W : Delivery → Prop} (h : Cmd.Sat (fun s => s.db = db) (f uid) Q E W) :
    Cmd.Sat (fun s => s.userId session = uid ∧ s.db = db) (authenticatedUserId session >>= f) Q E W := by
  rintro s ⟨rfl, hs⟩
  rw [Cmd.bind_of_run _ (run_authenticatedUserId s session)]
  exact h s hs

/-- A request about friends leaves the friendships as its repository call leaves them. -/
theorem dispatch_friendCall {type : MsgType} (htype : typeField request = some type)
    (hfriend : type ∈ friendTypes)
    (hcall : FriendsShow P (friendCall env (st.userId session) request st.db).state) :
    TcpServer.DispatchSat env (FriendsShow P) (FriendsShow P) st session request := by
  have hr := reads_friends env P
  unfold TcpServer.DispatchSat
  simp only [friendTypes, List.mem_cons, List.not_mem_nil, or_false] at hfriend
  rcases hfriend with rfl | rfl | rfl
  · simp only [friendCall, htype] at hcall
    simp only [dispatch, htype]
    exact sat_auth <| (sat_andAlso_call hcall).bind fun _ => Guards.ite (fun _ => guards_deliver _ _)
      fun _ => (guards_deliver _ _).bind fun _ => guards_deliverToUser _ _ _
  · simp only [friendCall, htype] at hcall
    simp only [dispatch, htype]
    exact sat_auth <| (sat_andAlso_call hcall).bind fun _ => (guards_onDb (hr.findById _)).bind fun _ =>
      (guards_onDb (hr.findById _)).bind fun _ => (guards_deliver _ _).bind fun _ =>
        guards_deliverToUser _ _ _
  · simp only [friendCall, htype] at hcall
    simp only [dispatch, htype]
    rw [Cmd.state_bind_pure] at hcall
    exact sat_auth <| (sat_call hcall).bind fun _ => (guards_deliver _ _).bind fun _ =>
      guards_deliverToUser _ _ _

/-- A request leaves the friendships as its call about friends leaves them. -/
theorem dispatch_friends (hst : FriendsShow P st.db)
    (hcall : FriendsShow P (friendCall env (st.userId session) request st.db).state) :
    TcpServer.DispatchSat env (FriendsShow P) (FriendsShow P) st session request := by
  rcases em (∃ type, typeField request = some type ∧ type ∈ friendTypes) with ⟨type, htype, hfriend⟩ | hother
  · exact dispatch_friendCall htype hfriend hcall
  have habsurd : ∀ {type : MsgType}, typeField request = some type → type ∈ friendTypes → False :=
    fun htype hfriend => hother ⟨_, htype, hfriend⟩
  have hr := reads_friends env P
  have hw := writesTo_friends env P
  refine TcpServer.dispatchSat_of_calls hr hst fun α c hc => ?_
  cases hc with
  | sendRequest htype _ => exact (habsurd htype (by decide)).elim
  | acceptRequest htype _ => exact (habsurd htype (by decide)).elim
  | rejectOrRemove htype _ => exact (habsurd htype (by decide)).elim
  | create _ _ _ _ => exact (hw .users).create hr _ _ _
  | verifyPassword _ _ _ => exact (hw .users).verifyPassword hr _ _
  | setOnline _ _ => exact (hw .users).setOnlineStatus hr _ _
  | setOffline _ _ => exact (hw .users).setOnlineStatus hr _ _
  | updateProfile _ _ _ _ => exact (hw .users).updateProfile hr _ _ _
  | join _ _ => exact (hw .group_members).join hr _ _
  | leave _ _ => exact (hw .group_members).leave _ _
  | createGroup _ _ _ => exact WritesTo.createGroup hr (hw .groups) (hw .group_members) _ _
  | offlineForUser _ _ => exact (hw .messages).offlineForUser hr _ _
  | savePrivate _ _ _ _ _ _ => exact (hw .messages).savePrivate hr _ _ _ _ _
  | saveGroup _ _ _ _ _ => exact (hw .messages).saveGroup hr _ _ _ _
  | markReadByNobody _ _ _ => exact (hw .messages).markRead _ _
  | markRead _ _ _ _ => exact (hw .messages).markRead _ _
  | addReaction _ _ _ _ _ => exact (hw .messages).addReaction _ _ _
  | edit _ _ _ _ _ => exact (hw .messages).edit hr _ _ _
  | softDelete _ _ _ _ => exact (hw .messages).softDelete hr _ _

end Dispatch

end MessageRouter

namespace TcpServer

open Database FriendRepository MessageRouter

variable {env : Env} {st st' : Server} {event : Event}

/-- The event is a frame of a session with the user `uid` that brings the request
and is handled. -/
def Brings (st : Server) (event : Event) (uid : Int32) (request : Object) : Prop :=
  ∃ session json now later, event = .frame session json now later ∧ Handled st session now ∧
    readObject json = some request ∧ st.userId session = uid

theorem friendsShow_step {P : List FriendshipRow → Prop} (hst : FriendsShow P st.db)
    (hcall : ∀ uid request, Brings st event uid request →
      FriendsShow P (friendCall env uid request st.db).state)
    (hstep : step env st event = some st') : FriendsShow P st'.db := by
  have hoffline : ∀ id, Guarded (FriendsShow P) (FriendsShow P) (UserRepository.setOnlineStatus env id false) :=
    fun id => (writesTo_friends env P .users).setOnlineStatus (reads_friends env P) id false
  refine invariant_step_of_dispatch (reads_friends env P) hoffline ?_ hst hstep
  rintro session json now later request rfl hhandled hparse
  exact dispatch_friends hst (hcall _ request ⟨session, json, now, later, rfl, hhandled, hparse, rfl⟩)

/-- Outside a transaction, a step changes the friendships only by a request that succeeds. -/
theorem friends_step (hidle : st.db.Idle) (hstep : step env st event = some st') :
    st'.db.friendRows = st.db.friendRows ∨ ∃ uid request, Brings st event uid request ∧
      (friendCall env uid request st.db).result = .ok true ∧
      Change uid request st.db.friendRows st'.db.friendRows := by
  have hshow : FriendsShow (fun rows => rows = st.db.friendRows ∨
      ∃ uid request, Brings st event uid request ∧
        (friendCall env uid request st.db).result = .ok true ∧
        Change uid request st.db.friendRows rows) st'.db := by
    refine friendsShow_step (friendsShow_of_idle hidle (.inl rfl)) (fun uid request hbrings => ?_) hstep
    obtain ⟨b, db', hrun, hidle', hrows⟩ := @alters_friendCall env uid request _ hidle
    rw [hrun]
    refine friendsShow_of_idle hidle' (hrows.imp And.right fun h => ⟨uid, request, hbrings, ?_, h.2⟩)
    rw [hrun]
    exact congrArg Except.ok h.1
  exact hshow.view

/-- After a step that handles a request about friends, the friendships are as its
repository call has left them. -/
theorem friendRows_of_brings {uid : Int32} {request : Object} {type : MsgType} (hidle : st.db.Idle)
    (hbrings : Brings st event uid request) (htype : typeField request = some type)
    (hfriend : type ∈ friendTypes) (hstep : step env st event = some st') :
    st'.db.friendRows = (friendCall env uid request st.db).state.friendRows := by
  obtain ⟨session, json, now, later, rfl, hhandled, hparse, rfl⟩ := hbrings
  have hheartbeat : typeField request ≠ some .Heartbeat := by
    rw [htype]
    rintro ⟨⟩
    revert hfriend
    decide
  obtain ⟨s, hroster, hdb, hhandle⟩ := @handle_frame env session st json now later request hhandled
    ((parseObject_of_step hhandled hstep).trans hparse) hheartbeat
  obtain ⟨b, db', hrun, hidle', -⟩ := @alters_friendCall env (st.userId session) request _ hidle
  have hleft : FriendsShow (fun rows => rows = db'.friendRows)
      (friendCall env (st.userId session) request st.db).state := by
    rw [hrun]
    exact friendsShow_of_idle hidle' rfl
  have hdispatch := dispatch_friendCall htype hfriend hleft s ⟨Server.userId_of_roster hroster session, hdb⟩
  unfold step at hstep
  rw [hhandle] at hstep
  split at hstep
  · next a ha =>
    cases hstep
    rw [hrun]
    exact (hdispatch.2.1 a ha).view
  · cases hstep

/-- A removal that rejects a request does no more than that. -/
theorem answered_of_rejects {uid : Int32} {request : Object} (hidle : st.db.Idle)
    (hbrings : Brings st event uid request) (htype : typeField request = some .FriendRemove)
    (hresult : (rejectOrRemove env uid (intField request "fromId" 0) (intField request "toId" 0)
      st.db).result = .ok (true, true))
    (hstep : step env st event = some st') :
    Answered (intField request "fromId" 0) uid .rejected st.db.friendRows st'.db.friendRows := by
  obtain ⟨answer, db', hrun, -, hremoval⟩ := @run_rejectOrRemove env uid _
    (intField request "fromId" 0) (intField request "toId" 0) hidle
  rw [hrun] at hresult
  cases hresult
  have hcall : (friendCall env uid request st.db).state = db' := by
    simp only [friendCall, htype]
    rw [Cmd.state_bind_pure, hrun]
  rw [friendRows_of_brings hidle hbrings htype (by decide) hstep, hcall]
  cases hremoval with
  | rejected _ _ hanswered => exact hanswered

theorem Brings.user_unique {uid uid' : Int32} {request request' : Object} (h : Brings st event uid request)
    (h' : Brings st event uid' request') : uid' = uid := by
  obtain ⟨session, json, now, later, rfl, -, -, rfl⟩ := h
  obtain ⟨session', json', now', later', hevent, -, -, rfl⟩ := h'
  cases hevent
  rfl

/-! ## Nobody else's business -/

/-- The rows that concern the two users. -/
def pairRows (uidA uidB : Int32) (db : Database) : List FriendshipRow :=
  db.friendRows.filter (concerns uidA uidB)

/-- The step changes rows of two users only while it handles a request of a
session with one of them. -/
def OwnBusiness (st : Server) (event : Event) (st' : Server) : Prop :=
  ∀ uidA uidB, pairRows uidA uidB st'.db ≠ pairRows uidA uidB st.db →
    ∃ uid request, Brings st event uid request ∧ 0 < uid ∧ (uid = uidA ∨ uid = uidB)

/-- Nobody removes a friendship of two others. -/
def NoStranger (st : Server) (event : Event) : Prop :=
  ∀ uid request, Brings st event uid request → typeField request = some .FriendRemove →
    0 < uid → 0 < intField request "fromId" 0 → 0 < intField request "toId" 0 →
      uid = intField request "fromId" 0 ∨ uid = intField request "toId" 0 ∨
        pairRows (intField request "fromId" 0) (intField request "toId" 0) st.db = []

theorem ownBusiness_of_noStranger (hidle : st.db.Idle) (hstep : step env st event = some st')
    (h : NoStranger st event) : OwnBusiness st event st' := by
  intro uidA uidB hchanged
  rcases friends_step hidle hstep with hsame | ⟨uid, request, hbrings, -, hchange⟩
  · exact absurd (congrArg (List.filter (concerns uidA uidB)) hsame) hchanged
  refine ⟨uid, request, hbrings, ?_⟩
  rcases em (uid = uidA ∨ uid = uidB) with hown | hstranger
  · cases hchange with
    | requested _ hpos _ => exact ⟨hpos, hown⟩
    | accepted _ hpos _ => exact ⟨hpos, hown⟩
    | rejected _ hpos _ _ => exact ⟨hpos, hown⟩
    | removed _ hpos _ _ _ => exact ⟨hpos, hown⟩
  refine absurd ?_ hchanged
  have hne : uid ≠ uidA ∧ uid ≠ uidB := not_or.mp hstranger
  cases hchange with
  | requested _ _ hrows => exact hrows.filter_concerns hne
  | accepted _ _ hrows => exact hrows.filter_concerns hne
  | rejected _ _ _ hrows => exact hrows.filter_concerns hne
  | removed htype hpos hfrom hto hrows =>
    refine hrows.filter_concerns fun r hr hconcerns => ?_
    rw [Bool.eq_false_iff]
    intro hremoved
    obtain ⟨hfromPair, htoPair⟩ := concerns_of_concerns hconcerns hremoved
    rcases h uid request hbrings htype hpos hfrom hto with hown | hown | hnone
    · exact hstranger (hown ▸ hfromPair)
    · exact hstranger (hown ▸ htoPair)
    · exact List.filter_eq_nil_iff.mp hnone r hr hremoved

/-- With an SQLite that serves, a stranger's removal does go through. -/
theorem noStranger_of_ownBusiness (henv : env.Serves) (hidle : st.db.Idle)
    (hstep : step env st event = some st') (h : OwnBusiness st event st') : NoStranger st event := by
  intro uid request hbrings htype hpos hfrom hto
  by_contra hstranger
  obtain ⟨hnotFrom, hnotTo, hrows⟩ : uid ≠ intField request "fromId" 0 ∧
      uid ≠ intField request "toId" 0 ∧
        pairRows (intField request "fromId" 0) (intField request "toId" 0) st.db ≠ [] := by
    simpa only [not_or] using hstranger
  have hcall : (friendCall env uid request st.db).state = (removeFriendship env
      (intField request "fromId" 0) (intField request "toId" 0) st.db).state := by
    have hvalid : ¬(uid ≤ 0 ∨ intField request "fromId" 0 ≤ 0 ∨ intField request "toId" 0 ≤ 0) := by
      simp only [not_or, Int32.not_le]
      exact ⟨hpos, hfrom, hto⟩
    simp only [friendCall, htype]
    rw [Cmd.state_bind_pure, rejectOrRemove, if_neg hvalid, Cmd.andAlso, if_neg hnotTo]
    exact Cmd.state_bind_pure ..
  have hremoved : Removed (intField request "fromId" 0) (intField request "toId" 0) st.db.friendRows
      st'.db.friendRows := by
    rw [friendRows_of_brings hidle hbrings htype (by decide) hstep, hcall]
    exact removed_removeFriendship henv hidle hrows
  have hgone : pairRows (intField request "fromId" 0) (intField request "toId" 0) st'.db = [] := by
    rw [pairRows, hremoved, List.filter_filter, List.filter_eq_nil_iff]
    intro r _
    simp
  obtain ⟨uid', request', hbrings', -, hown⟩ := h _ _ (by rw [hgone]; exact hrows.symm)
  rw [hbrings.user_unique hbrings'] at hown
  exact hown.elim hnotFrom hnotTo

/-- With an SQLite that serves, no transaction stays open. -/
theorem throughout_idle (henv : env.Serves) {db : Database} (hidle : db.Idle) (events : List Event) :
    Throughout (step env) (fun st => st.db.Idle) (.start db) events :=
  throughout_of_step (fun _ _ _ hidle hstep => invariant_step (writes_idle henv) hidle hstep) hidle events

/-- As long as no transaction is left open and nobody removes a friendship of
two others, friendships are the business of their two users. With an SQLite that
serves no transaction stays open, and the runs are exactly those. -/
theorem ownBusiness_iff_noStranger (env : Env) (db : Database) (events : List Event) :
    (Along (step env) (fun st event => st.db.Idle ∧ NoStranger st event) (.start db) events →
      EachStep (step env) OwnBusiness (.start db) events) ∧
    (env.Serves → db.Idle → (EachStep (step env) OwnBusiness (.start db) events ↔
      Along (step env) NoStranger (.start db) events)) := by
  constructor
  · refine fun h => eachStep_of_along (fun st event st' hstep hc => ?_) h
    exact ownBusiness_of_noStranger hc.1 hstep hc.2
  intro henv hidle
  refine eachStep_iff_along (J := fun st => st.db.Idle)
    (fun _ _ _ hidle hstep => invariant_step (writes_idle henv) hidle hstep)
    (fun st event st' hidle hstep => ?_) hidle events
  exact ⟨noStranger_of_ownBusiness henv hidle hstep, ownBusiness_of_noStranger hidle hstep⟩

/-- Users 1000, 1001 and 1002 log in on sessions 1, 2 and 3. -/
def threeUsers : List Event :=
  [.accept 0, .accept 0, .accept 0,
    request 1 .RegisterUser [("nickname", text "a"), ("password", text "p")],
    request 2 .RegisterUser [("nickname", text "b"), ("password", text "p")],
    request 3 .RegisterUser [("nickname", text "c"), ("password", text "p")],
    request 1 .Login [("id", .int 1000), ("password", text "p")],
    request 2 .Login [("id", .int 1001), ("password", text "p")],
    request 3 .Login [("id", .int 1002), ("password", text "p")]]

/-- User 1001 accepts the request of user 1000. -/
def befriend : List Event :=
  [request 1 .FriendRequest [("toId", .int 1001)], request 2 .FriendAccept [("fromId", .int 1000)]]

/-- The request of a session to remove the pair. -/
def removal (session : SessionId) : Event :=
  request session .FriendRemove [("fromId", .int 1000), ("toId", .int 1001)]

theorem idle_boot : (Server.boot .ideal .empty).db.Idle := by
  have hnone : (Server.boot .ideal .empty).db.sqlite.transaction.isNone = true := by decide +kernel
  exact Option.isNone_iff_eq_none.mp hnone

theorem ownBusiness_iff_noStranger_befriend :
    EachStep (step .ideal) OwnBusiness (.boot .ideal .empty) (threeUsers ++ befriend) ↔
      Along (step .ideal) NoStranger (.boot .ideal .empty) (threeUsers ++ befriend) :=
  (ownBusiness_iff_noStranger .ideal _ _).2 (fun _ => rfl) idle_boot

/-- User 1002 ends the friendship of the users 1000 and 1001. -/
theorem stranger_removes_friendship :
    ¬∀ env db events, EachStep (step env) OwnBusiness (.start db) events := by
  intro hall
  have hrun : ((run (step .ideal) (.boot .ideal .empty) (threeUsers ++ befriend)).bind fun st =>
      (step .ideal st (removal 3)).map fun st' =>
        (st.userId 3, (pairRows 1000 1001 st.db).length, pairRows 1000 1001 st'.db)) =
      some (1002, 1, []) := by
    decide +kernel
  obtain ⟨st, hst, hstep⟩ := Option.bind_eq_some_iff.mp hrun
  obtain ⟨st', hst', heq⟩ := Option.map_eq_some_iff.mp hstep
  simp only [Prod.mk.injEq] at heq
  obtain ⟨huser, hbefore, hafter⟩ := heq
  obtain ⟨uid, req, ⟨session, json, now, later, hevent, -, -, rfl⟩, -, hown⟩ :=
    (hall .ideal _ _).last hst hst' 1000 1001 (by
      rw [hafter]
      intro hsame
      rw [← hsame] at hbefore
      cases hbefore)
  cases hevent
  rw [huser] at hown
  revert hown
  decide

end TcpServer

end LanChat
