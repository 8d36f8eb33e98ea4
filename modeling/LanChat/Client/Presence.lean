import LanChat.Client.Contacts
import LanChat.Db.UserLists
import LanChat.Lib.Observer
import LanChat.Server.Friendship
import LanChat.Server.FrameTypes
import LanChat.Server.Removal

/-!
# Who is shown as online

Any number of clients that log in, log out and lose their connection. A page
starts from a list on which everybody is offline, and follows its friends by the
notices of their logins and logouts. It agrees with the server as long as no
friend is online when it logs in and none loses the connection (`Calm`).
-/

namespace LanChat

open Lib Json

namespace Client

open MessageRouter

/-- The server, the page on each connection, and the frames that are on their
way to it. -/
structure Clients where
  server : Server
  page : SessionId → Page
  down : SessionId → List Object

/-- What can happen next. -/
inductive ClientEvent where
  /-- the server handles an event -/
  | server (event : TcpServer.Event)
  /-- the page handles the next frame -/
  | receive (session : SessionId)
  /-- the user logs out on the page -/
  | logout (session : SessionId)

/-- A client connects, logs in or out, or loses the connection. -/
def comesOrGoes : TcpServer.Event → Bool
  | .frame _ json _ _ => (readObject json).bind typeField ∈ [some .Login, some .Logout, some .Heartbeat]
  | _ => true

/-- The payloads that are handed to the session. -/
def payloadsTo (session : SessionId) (out : List Delivery) : List Object :=
  (out.filter fun d => d.target = session).map fun d => d.payload

namespace Clients

variable (js : Js) (env : Env)

/-- The pages are there before the server is. -/
def start (db : Database) (page : SessionId → Page) : Clients := ⟨.start db, page, fun _ => []⟩

def serverHandles (w : Clients) (event : TcpServer.Event) : Option Clients :=
  let outcome := TcpServer.handle env event w.server
  match outcome.result with
  | .ok _ =>
    some { w with server := outcome.state, down := fun session => w.down session ++ payloadsTo session outcome.out }
  | .error _ => none

/-- One step; `none` if the event cannot happen now, or ends the server. -/
def step (w : Clients) : ClientEvent → Option Clients
  | .server event => if comesOrGoes event then w.serverHandles env event else none
  | .receive session =>
    match w.down session with
    | payload :: rest =>
      some { w with
        page := Function.update w.page session ((w.page session).handleIncomingMessage js payload)
        down := Function.update w.down session rest }
    | [] => none
  | .logout session => some { w with page := Function.update w.page session (w.page session).logout }

/-- The page when it has handled every frame that is on its way. -/
def caughtUp (w : Clients) (session : SessionId) : Page :=
  (w.down session).foldl (Page.handleIncomingMessage js) (w.page session)

/-- The server has the session logged in, and so will the page when it has caught up. -/
def LoggedIn (w : Clients) (session : SessionId) : Prop :=
  (w.caughtUp js session).currentUser ≠ none ∧ session ∈ w.server.pool.sessions ∧ 0 < w.server.userId session

/-- The users have an accepted friendship. -/
def friends (st : Server) (user other : Int32) : Bool := st.db.friendRows.any (FriendRepository.isAccepted user other)

/-- Both lists show each friend as the server has it. -/
def AgreesFor (session : SessionId) (w : Clients) : Prop :=
  w.down session = [] → w.LoggedIn js session → ∀ friend, friends w.server (w.server.userId session) friend →
    Page.Shows (w.page session).contacts friend (w.server.presence.isOnline friend)
      (w.server.presence.isOnline friend) ∧
    Page.Shows (w.page session).friends friend (w.server.presence.isOnline friend)
      (w.server.presence.isOnline friend)

end Clients

/-- The session and the user that the event logs in. -/
def loginOf (env : Env) (st : Server) : TcpServer.Event → Option (SessionId × Int32)
  | .frame session json now _ => do
    let request ← readObject json
    match (admitted env request st.db).result with
    | .ok (some _) =>
      if TcpServer.Handled st session now ∧ typeField request = some .Login then
        some (session, intField request "id" 0)
      else none
    | _ => none
  | _ => none

/-- The event logs the user in on the session. -/
def LogsIn (env : Env) (st : Server) (event : TcpServer.Event) (session : SessionId) (user : Int32) : Prop :=
  loginOf env st event = some (session, user)

/-- What keeps the page of the session right: it logs in when no friend is
online, its user is logged in on one session only, and while it is logged in no
friend that is online loses the connection. -/
structure Calm (js : Js) (env : Env) (session : SessionId) (w : Clients) (event : TcpServer.Event) : Prop where
  first : ∀ user, LogsIn env w.server event session user → ∀ friend, Clients.friends w.server user friend = true →
    friend ≠ user → w.server.presence.isOnline friend = false
  sole : ∀ user, LogsIn env w.server event session user → ∀ t ∈ w.server.pool.sessions, t ≠ session →
    w.server.userId t ≠ user
  alone : w.LoggedIn js session → ∀ t user, t ≠ session → LogsIn env w.server event t user →
    user ≠ w.server.userId session
  stays : w.LoggedIn js session → session ∉ TcpServer.removes env w.server event →
    ∀ t ∈ TcpServer.removes env w.server event, t ∈ w.server.pool.sessions →
      Clients.friends w.server (w.server.userId session) (w.server.userId t) = true →
        w.server.presence.isOnline (w.server.userId t) = false

/-- If the server handles an event, it is calm for the session. -/
def CalmFor (js : Js) (env : Env) (session : SessionId) (w : Clients) : ClientEvent → Prop
  | .server event => Calm js env session w event
  | _ => True

section Decide

variable {js : Js} {env : Env} {session : SessionId} {w : Clients} {event : TcpServer.Event}

instance : Decidable (w.LoggedIn js session) :=
  haveI : Decidable ((w.caughtUp js session).currentUser ≠ none) := decidable_of_iff _ Option.isSome_iff_ne_none
  inferInstanceAs (Decidable (_ ∧ _ ∧ _))

open FriendRepository in
/-- The friends of a user stand in the rows. -/
instance decidableForallFriends (st : Server) (user : Int32) (P : Int32 → Prop) [DecidablePred P] :
    Decidable (∀ friend, Clients.friends st user friend = true → P friend) :=
  decidable_of_iff (∀ row ∈ st.db.friendRows, isAccepted user (friendOf user row) row = true → P (friendOf user row)) <| by
    constructor
    · intro h friend hfriend
      obtain ⟨row, hrow, haccepted⟩ := List.any_eq_true.mp hfriend
      have hsame : friend = friendOf user row := by
        have hpair := haccepted
        rw [isAccepted, Bool.and_eq_true, concerns_iff] at hpair
        unfold friendOf
        rcases hpair.2 with ⟨hfrom, hto⟩ | ⟨hfrom, hto⟩
        · rw [if_pos hfrom, hto]
        · split
          · next hself => rw [← hfrom, hself, hto]
          · exact hfrom.symm
      rw [hsame] at haccepted ⊢
      exact h row hrow haccepted
    · exact fun h row hrow haccepted => h _ (List.any_eq_true.mpr ⟨row, hrow, haccepted⟩)

instance : Decidable (Calm js env session w event) :=
  match hlogin : loginOf env w.server event with
  | none =>
    decidable_of_iff (w.LoggedIn js session → session ∉ TcpServer.removes env w.server event →
      ∀ t ∈ TcpServer.removes env w.server event, t ∈ w.server.pool.sessions →
        Clients.friends w.server (w.server.userId session) (w.server.userId t) = true →
          w.server.presence.isOnline (w.server.userId t) = false) <| by
      have hnone : ∀ t user, ¬LogsIn env w.server event t user := fun t user h => by
        rw [LogsIn, hlogin] at h
        cases h
      exact ⟨fun h => ⟨fun user hin => (hnone _ user hin).elim, fun user hin => (hnone _ user hin).elim,
        fun _ t user _ hin => (hnone t user hin).elim, h⟩, Calm.stays⟩
  | some (t, user) =>
    decidable_of_iff (((t = session → (∀ friend, Clients.friends w.server user friend = true →
        friend ≠ user → w.server.presence.isOnline friend = false) ∧
          ∀ s ∈ w.server.pool.sessions, s ≠ session → w.server.userId s ≠ user) ∧
        (w.LoggedIn js session → t ≠ session → user ≠ w.server.userId session)) ∧
      (w.LoggedIn js session → session ∉ TcpServer.removes env w.server event →
        ∀ t ∈ TcpServer.removes env w.server event, t ∈ w.server.pool.sessions →
          Clients.friends w.server (w.server.userId session) (w.server.userId t) = true →
            w.server.presence.isOnline (w.server.userId t) = false)) <| by
      have hlogs : ∀ t' user', LogsIn env w.server event t' user' ↔ t = t' ∧ user = user' := fun t' user' => by
        rw [LogsIn, hlogin, Option.some_inj, Prod.mk.injEq]
      constructor
      · rintro ⟨⟨hself, hother⟩, hstays⟩
        refine ⟨fun user' hin => ?_, fun user' hin => ?_, fun hlogged t' user' hne hin => ?_, hstays⟩
        · obtain ⟨ht, rfl⟩ := (hlogs session user').mp hin
          exact (hself ht).1
        · obtain ⟨ht, rfl⟩ := (hlogs session user').mp hin
          exact (hself ht).2
        · obtain ⟨rfl, rfl⟩ := (hlogs t' user').mp hin
          exact hother hlogged hne
      · intro h
        refine ⟨⟨?_, fun hlogged hne => h.alone hlogged t user hne hlogin⟩, h.stays⟩
        rintro rfl
        exact ⟨h.first user hlogin, h.sole user hlogin⟩

instance decidableCalmFor : ∀ e, Decidable (CalmFor js env session w e)
  | .server event => inferInstanceAs (Decidable (Calm js env session w event))
  | .receive _ => .isTrue trivial
  | .logout _ => .isTrue trivial

end Decide

/-! ## What a page makes of the deliveries -/

/-- The page of the session reads what is handed to it. -/
def reads (js : Js) (session : SessionId) (page : Page) (d : Delivery) : Page :=
  if d.target = session then page.handleIncomingMessage js d.payload else page

/-- The triple of a command at a roster, for the page of the session. -/
abbrev Shown {α : Type} (js : Js) (session : SessionId) (ρ : Roster) (F : Database → Prop) (I : Page → Prop)
    (c : RouterM α) (ρ' : Roster) (G : α → Database → Prop) (J : α → Page → Prop) : Prop :=
  Cmd.Observed (reads js session) (fun st page => At ρ F st ∧ I page) c fun a st page => At ρ' (G a) st ∧ J a page

section Shown

variable {js : Js} {env : Env} {session : SessionId} {ρ : Roster} {F : Database → Prop} {I : Page → Prop} {α : Type}

theorem foldl_reads (js : Js) (session : SessionId) (out : List Delivery) (page : Page) :
    out.foldl (reads js session) page = (payloadsTo session out).foldl (Page.handleIncomingMessage js) page := by
  induction out generalizing page with
  | nil => rfl
  | cons d out ih =>
    rw [List.foldl_cons, ih, reads, payloadsTo, payloadsTo, List.filter_cons]
    by_cases hd : d.target = session <;> simp [hd]

theorem shown_onDb {c : DbM α} {G : α → Database → Prop}
    (h : Cmd.Sat F c G (fun _ _ => True) fun _ => True) :
    Shown js session ρ F I (onDb c) ρ G fun _ => I :=
  Cmd.Observed.of_sat (sat_onDb (W := fun _ => False) h) fun _ _ h => h.elim

/-- What a repository call from a known database returns and leaves. -/
theorem shown_onDb_exact (c : DbM α) (db : Database) :
    Cmd.Observed (reads js session) (fun st page => At ρ (fun d => d = db) st ∧ I page) (onDb c) fun a st page =>
      (c db).result = .ok a ∧ At ρ (fun d => d = (c db).state) st ∧ I page :=
  (Cmd.Observed.of_sat (sat_onDb_exact (W := fun _ => False) c db) fun _ _ h => h.elim).post fun _ _ _ h =>
    ⟨h.1.1, h.1.2, h.2⟩

theorem shown_modifyPresence (f : PresenceManager → PresenceManager) :
    Shown js session ρ F I (modifyPresence f) { ρ with presence := f ρ.presence } (fun _ => F) fun _ => I :=
  Cmd.Observed.of_sat (sat_modifyPresence (W := fun _ => False)) fun _ _ h => h.elim

theorem shown_modifyPool {f : SessionPool → SessionPool} (pool : SessionPool)
    (h : ∀ st, At ρ F st → (f st.pool).bare = pool) :
    Shown js session ρ F I (modifyPool f) { ρ with pool := pool } (fun _ => F) fun _ => I :=
  Cmd.Observed.of_sat (sat_modifyPool (W := fun _ => False) pool h) fun _ _ h => h.elim

theorem shown_pure (a : α) : Shown js session ρ F I (pure a) ρ (fun _ => F) fun _ => I :=
  Cmd.observed_pure fun _ _ h => h

theorem shown_deliverContent {target : SessionId} {payload : Object} {carries : Server → List StoredMessage}
    {J : Page → Prop} (hJ : ∀ page, I page → J (if target = session then page.handleIncomingMessage js payload else page)) :
    Shown js session ρ F I (deliverContent target payload carries) ρ (fun _ => F) fun _ => J := by
  rintro st page ⟨hst, hpage⟩ a ha
  have hout : (deliverContent target payload carries st).out = [⟨target, payload, carries st, st⟩] := by
    unfold deliverContent
    split <;> rfl
  rw [hout]
  exact ⟨(sat_deliverContent (W := fun _ => True) (fun _ _ => trivial) st hst).2.1 a ha, hJ page hpage⟩

/-- A frame that changes nothing on a page. -/
theorem shown_reply {target : SessionId} {payload : Object} {types : List MsgType} (hseen : ∀ type ∈ types, type ∉ Page.seen)
    (htype : OfType types payload) : Shown js session ρ F I (deliver target payload) ρ (fun _ => F) fun _ => I :=
  shown_deliverContent fun page hpage => by
    obtain ⟨type, hmem, htype⟩ := htype
    split
    · rwa [Page.handle_of_type htype (hseen type hmem)]
    · exact hpage

theorem shown_deliverToUser {user : Int32} {payload : Object} {carries : Server → List StoredMessage} {J : Page → Prop}
    (hJ : ∀ page, I page →
      J (if ρ.pool.findByUserId user = some session then page.handleIncomingMessage js payload else page)) :
    Shown js session ρ F I (deliverToUser user payload carries) ρ (fun _ => F) fun _ => J := by
  have hfound : Shown js session ρ F I (findByUserId user) ρ
      (fun target db => target = ρ.pool.findByUserId user ∧ F db) fun _ => I :=
    (Cmd.Observed.of_sat (sat_findByUserId (W := fun _ => False)) fun _ _ h => h.elim).post fun _ _ _ h =>
      ⟨⟨h.1.2.1, h.1.1, h.1.2.2⟩, h.2⟩
  refine hfound.bind fun target => ?_
  rintro st page ⟨⟨hst, htarget, hdb⟩, hpage⟩
  subst htarget
  cases htarget : ρ.pool.findByUserId user with
  | none =>
    have hkeep := hJ page hpage
    rw [if_neg (by rw [htarget]; nofun)] at hkeep
    exact fun a ha => shown_pure (I := J) () st page ⟨⟨hst, hdb⟩, hkeep⟩ a ha
  | some target =>
    refine shown_deliverContent (I := I) (J := J) (fun page hpage => ?_) st page ⟨⟨hst, hdb⟩, hpage⟩
    simpa [htarget] using hJ page hpage

/-! ## The announcements -/

theorem handle_presencePayload (page : Page) (online : Bool) (info : UserInfo) (user : Int32) :
    page.handleIncomingMessage js (presencePayload online info user) =
      page.announce user (if online then .online else .offline) := by
  have htype : typeField (presencePayload online info user) = some .FriendOnline :=
    typeField_of_find? (by rw [presencePayload, find?_object]; simp)
  have hid : member (presencePayload online info user) "friendId" = some (ofInt32 user) := by
    rw [member, presencePayload, find?_object]
    simp
  have hok : Store.isOk (presencePayload online info user) = online := by
    cases online <;> simp [Store.isOk, stringField, presencePayload, find?_object, text, lit_inj]
  rw [Page.handle_friendOnline htype hid, hok]

theorem handle_offlinePayload (page : Page) (info : UserInfo) (user : Int32) :
    page.handleIncomingMessage js (TcpServer.offlinePayload info user) =
      page.updateContactStatus (some (ofInt32 user)) .offline := by
  have htype : typeField (TcpServer.offlinePayload info user) = some .UserOffline :=
    typeField_of_find? (by rw [TcpServer.offlinePayload, find?_object]; simp)
  refine Page.handle_userOffline htype ?_
  rw [member, TcpServer.offlinePayload, find?_object]
  simp

theorem Shown.fact {φ : Prop} {c : RouterM α} {ρ' : Roster} {G : α → Database → Prop} {J : α → Page → Prop}
    (h : φ → Shown js session ρ F I c ρ' G J) : Shown js session ρ (fun db => φ ∧ F db) I c ρ' G J :=
  fun st page hst => h hst.1.2.1 st page ⟨⟨hst.1.1, hst.1.2.2⟩, hst.2⟩

variable {known : Int32 → Bool} {rows : List FriendshipRow}

open FriendRepository in
/-- The page has read the announcement, or not; it has if its user is a friend. -/
structure Announced (known : Int32 → Bool) (rows : List FriendshipRow) (ρ : Roster) (session : SessionId)
    (user : Int32) (status : ContactStatus) (before after : Page) : Prop where
  either : after = before ∨ after = before.announce user status
  told : known user = true → ∀ friend, known friend = true → rows.any (isAccepted user friend) = true →
    ρ.pool.findByUserId friend = some session → after = before.announce user status

open FriendRepository in
theorem shown_broadcastPresence (henv : env.Serves) (type : MsgType) (user : Int32) (before : Page) :
    Shown js session ρ (Standing env known rows) (fun page => page = before) (broadcastPresence env type user) ρ
      (fun _ => Standing env known rows) fun _ =>
        Announced known rows ρ session user (if type = .UserOnline then .online else .offline) before := by
  refine (shown_onDb (sat_findById_known user)).bind fun found => Shown.fact fun hfound => ?_
  cases found with
  | none =>
    refine (shown_pure (I := fun page => page = before) ()).post fun _ _ page h => ⟨h.1, .inl h.2, fun hknown => ?_⟩
    rw [hknown] at hfound
    cases hfound
  | some info =>
    refine (shown_onDb (sat_getFriends_known henv user)).bind fun friends => Shown.fact fun hfriends => ?_
    let announcement := before.announce user (if type = .UserOnline then .online else .offline)
    let I := fun (rest : List UserInfo) (st : Server) (page : Page) => At ρ (Standing env known rows) st ∧
      (page = before ∨ page = announcement) ∧
      ∀ id ∈ friends.map (·.id), id ∉ rest.map (·.id) → ρ.pool.findByUserId id = some session → page = announcement
    have htell : ∀ (friend : UserInfo) rest, Cmd.Observed (reads js session) (I (friend :: rest))
        (deliverToUser friend.id (presencePayload (type = .UserOnline) info user) fun _ => []) fun _ => I rest := by
      intro friend rest
      rintro st page ⟨hst, hpage, htold⟩ a ha
      obtain ⟨hst', hread⟩ := shown_deliverToUser (I := fun p => p = page) (J := fun p => p =
        if ρ.pool.findByUserId friend.id = some session then
          page.handleIncomingMessage js (presencePayload (type = .UserOnline) info user) else page)
        (fun _ h => by rw [h]) st page ⟨hst, rfl⟩ a ha
      have hannounced : page.announce user (if type = .UserOnline then .online else .offline) = announcement := by
        rcases hpage with rfl | rfl
        · rfl
        · exact Page.announce_announce ..
      rw [handle_presencePayload] at hread
      simp only [decide_eq_true_eq, hannounced] at hread
      show At _ _ _ ∧ _
      rw [hread]
      refine ⟨hst', ?_, fun id hid hnot hfound => ?_⟩
      · split
        · exact .inr rfl
        · exact hpage
      · split
        · rfl
        · next hne =>
          refine htold id hid (fun hmem => ?_) hfound
          rcases List.mem_cons.mp (List.map_cons ▸ hmem) with rfl | hmem
          · exact hne hfound
          · exact hnot hmem
    have hloop := Cmd.observed_each htell friends
    refine hloop.weaken (fun st page h => ⟨h.1, .inl h.2, fun id hid hnot => absurd hid hnot⟩)
      fun _ st page h => ⟨h.1, h.2.1, fun _ other hknown hfriend hother => ?_⟩
    exact h.2.2 other ((hfriends other hknown).mpr hfriend) List.not_mem_nil hother

end Shown

/-! ## Rosters and pages that agree -/

section Follows

open FriendRepository

/-- The session is logged in on the server and on the page. -/
def LoggedInOn (session : SessionId) (ρ : Roster) (page : Page) : Prop :=
  page.currentUser ≠ none ∧ session ∈ ρ.pool.sessions ∧ 0 < ρ.pool.userId session

/-- Both lists show the user as `online` says. -/
def ShowsBoth (page : Page) (user : Int32) (known online : Bool) : Prop :=
  Page.Shows page.contacts user known online ∧ Page.Shows page.friends user known online

/-- The session has its user to itself, and its page shows the friends as they are. -/
structure Faithful (known : Int32 → Bool) (rows : List FriendshipRow) (session : SessionId) (ρ : Roster)
    (page : Page) : Prop where
  index : ρ.pool.user_to_session (ρ.pool.userId session) = some session
  alone : ∀ t ∈ ρ.pool.sessions, t ≠ session → ρ.pool.userId t ≠ ρ.pool.userId session
  lists : ∀ friend, rows.any (isAccepted (ρ.pool.userId session) friend) = true →
    ShowsBoth page friend (known friend) (ρ.presence.isOnline friend)

/-- A session that is logged in is faithful, unless it is leaving itself; no
friend that is leaving is online. -/
def Follows (known : Int32 → Bool) (rows : List FriendshipRow) (session : SessionId) (leaving : List SessionId)
    (ρ : Roster) (page : Page) : Prop :=
  LoggedInOn session ρ page → session ∉ leaving → Faithful known rows session ρ page ∧
    ∀ t ∈ leaving, t ∈ ρ.pool.sessions → rows.any (isAccepted (ρ.pool.userId session) (ρ.pool.userId t)) = true →
      ρ.presence.isOnline (ρ.pool.userId t) = false

/-- Whoever is logged in or online is known. -/
structure Recorded (known : Int32 → Bool) (ρ : Roster) : Prop where
  users : ∀ t ∈ ρ.pool.sessions, 0 < ρ.pool.userId t → known (ρ.pool.userId t) = true
  online : ∀ user, ρ.presence.isOnline user = true → known user = true

variable {known : Int32 → Bool} {rows : List FriendshipRow} {session t : SessionId} {leaving : List SessionId} {ρ : Roster}
  {page : Page} {user : Int32}

theorem ShowsBoth.announce {known before online : Bool} {status : ContactStatus} (h : ShowsBoth page user known before)
    (honline : status = .online ↔ online = true) : ShowsBoth (page.announce user status) user known online :=
  ⟨h.1.renewed honline, h.2.renewed honline⟩

theorem ShowsBoth.beside {known online : Bool} {status : ContactStatus} {other : Int32}
    (h : ShowsBoth page user known online) (hother : other ≠ user) :
    ShowsBoth (page.announce other status) user known online :=
  ⟨h.1.beside hother, h.2.beside hother⟩

theorem isOnline_remove (t : SessionId) (user : Int32) : (ρ.remove t).presence.isOnline user = true ↔
    ρ.presence.isOnline user = true ∧ ¬(t ∈ ρ.pool.sessions ∧ 0 < ρ.pool.userId t ∧ ρ.pool.userId t = user) := by
  rw [Roster.isOnline_remove]
  simp only [not_and]

/-- A page reads that the user of a removed session has gone. -/
theorem Follows.remove (hnodup : ρ.pool.sessions.Nodup) (h : Follows known rows session (t :: leaving) ρ page)
    {page' : Page}
    (hread : page' = page ∨ t ∈ ρ.pool.sessions ∧ 0 < ρ.pool.userId t ∧
      page' = page.updateContactStatus (some (ofInt32 (ρ.pool.userId t))) .offline) :
    Follows known rows session leaving (ρ.remove t) page' := by
  have hcurrent : page'.currentUser = page.currentUser := by
    rcases hread with rfl | ⟨-, -, rfl⟩ <;> rfl
  have huser : ∀ s, (ρ.remove t).pool.userId s = ρ.pool.userId s := fun s => ρ.pool.userId_remove t s
  have hsessions : ∀ s, s ∈ (ρ.remove t).pool.sessions → s ∈ ρ.pool.sessions := fun s hs =>
    List.mem_of_mem_erase ((SessionPool.sessions_remove ρ.pool t) ▸ hs)
  rintro ⟨hpage, hmem, hpos⟩ hstays
  rw [hcurrent] at hpage
  rw [huser] at hpos
  have hne : t ≠ session := by
    rintro rfl
    exact (hnodup.mem_erase_iff.mp ((SessionPool.sessions_remove ρ.pool t) ▸ hmem)).1 rfl
  obtain ⟨hfaithful, hleaving⟩ := h ⟨hpage, hsessions _ hmem, hpos⟩ fun hmem =>
    (List.mem_cons.mp hmem).elim (fun heq => hne heq.symm) hstays
  have hcalm := hleaving t List.mem_cons_self
  refine ⟨⟨?_, fun s hs hs' => ?_, fun friend hfriend => ?_⟩, fun s hs hpooled hfriend => ?_⟩
  · rw [huser]
    refine (SessionPool.user_to_session_remove ..).trans ?_
    rw [if_neg fun hgone => hfaithful.alone t hgone.1 hne hgone.2.2.symm]
    exact hfaithful.index
  · rw [huser, huser]
    exact hfaithful.alone s (hsessions s hs) hs'
  · rw [huser] at hfriend
    have hbefore := hfaithful.lists friend hfriend
    rcases em (t ∈ ρ.pool.sessions ∧ 0 < ρ.pool.userId t ∧ ρ.pool.userId t = friend) with hgone | hother
    · obtain ⟨ht, htpos, rfl⟩ := hgone
      have hoffline := hcalm ht hfriend
      have hnow : (ρ.remove t).presence.isOnline (ρ.pool.userId t) = false := by
        rw [Bool.eq_false_iff, ne_eq, isOnline_remove]
        exact fun hon => hon.2 ⟨ht, htpos, rfl⟩
      rw [hoffline] at hbefore
      rw [hnow]
      rcases hread with rfl | ⟨-, -, rfl⟩
      · exact hbefore
      · exact ⟨hbefore.1.renewed (by decide), hbefore.2⟩
    · have hsame : (ρ.remove t).presence.isOnline friend = ρ.presence.isOnline friend := by
        rw [Bool.eq_iff_iff, isOnline_remove, and_iff_left hother]
      rw [hsame]
      rcases hread with rfl | ⟨ht, htpos, rfl⟩
      · exact hbefore
      · exact ⟨hbefore.1.beside fun heq => hother ⟨ht, htpos, heq⟩, hbefore.2⟩
  · rw [huser, huser] at hfriend
    rw [huser, Bool.eq_false_iff, ne_eq, isOnline_remove, not_and_or]
    exact .inl (Bool.eq_false_iff.mp (hleaving s (List.mem_cons_of_mem _ hs) (hsessions s hpooled) hfriend))

theorem userId_accept (ρ : Roster) (s : SessionId) :
    ρ.accept.pool.userId s = if s = ρ.next_id then 0 else ρ.pool.userId s := by
  simp [Roster.accept]

theorem Follows.accept (h : Follows known rows session [] ρ page) : Follows known rows session [] ρ.accept page := by
  rintro ⟨hpage, hmem, hpos⟩ -
  have hold : session ≠ ρ.next_id := by
    rintro rfl
    rw [userId_accept, if_pos rfl] at hpos
    exact absurd hpos (by decide)
  have huser : ρ.accept.pool.userId session = ρ.pool.userId session := by rw [userId_accept, if_neg hold]
  have hpooled : ∀ s, s ≠ ρ.next_id → s ∈ ρ.accept.pool.sessions → s ∈ ρ.pool.sessions := fun s hs hmem =>
    (SessionPool.mem_sessions_add hmem).resolve_left hs
  rw [huser] at hpos
  obtain ⟨hfaithful, -⟩ := h ⟨hpage, hpooled _ hold hmem, hpos⟩ List.not_mem_nil
  refine ⟨⟨?_, fun s hs hs' => ?_, fun friend hfriend => ?_⟩, nofun⟩
  · rw [huser]
    exact (congrFun (SessionPool.user_to_session_add ..) _).trans hfaithful.index
  · rw [huser, userId_accept]
    split
    · exact fun h0 => absurd hpos (by rw [← h0]; decide)
    · next hne => exact hfaithful.alone s (hpooled s hne hs) hs'
  · rw [huser] at hfriend
    exact hfaithful.lists friend hfriend

/-- The friends of a user are told that the user has gone. -/
theorem Follows.logout (hi : ρ.pool.Indexed) (hr : Recorded known ρ) (h : Follows known rows session [] ρ page)
    {page' : Page} (hpos : 0 < ρ.pool.userId t)
    (hread : Announced known rows (ρ.logout t) session (ρ.pool.userId t) .offline page page') :
    Follows known rows session [] (ρ.logout t) page' := by
  have hcurrent : page'.currentUser = page.currentUser := by
    rcases hread.either with rfl | rfl <;> rfl
  have hlogout : ρ.logout t = { ρ with
      pool := ρ.pool.unbindUser (ρ.pool.userId t)
      presence := ρ.presence.setOffline (ρ.pool.userId t) } := by
    simp only [Roster.logout, if_pos hpos]
  have huser : ∀ s, (ρ.logout t).pool.userId s =
      if ρ.pool.user_to_session (ρ.pool.userId t) = some s then 0 else ρ.pool.userId s := fun s => by
    rw [hlogout]
    exact Roster.userId_unbindUser hi _ s
  have hsessions : (ρ.logout t).pool.sessions = ρ.pool.sessions := by
    rw [hlogout]
    exact SessionPool.sessions_unbindUser ..
  have honline : ∀ u, (ρ.logout t).presence.isOnline u = (!decide (u = ρ.pool.userId t) && ρ.presence.isOnline u) :=
    fun u => by
      rw [hlogout]
      exact PresenceManager.isOnline_setOffline ..
  rintro ⟨hpage, hmem, hposAfter⟩ -
  rw [hcurrent] at hpage
  rw [hsessions] at hmem
  have hstays : ρ.pool.user_to_session (ρ.pool.userId t) ≠ some session := fun hgone => by
    rw [huser, if_pos hgone] at hposAfter
    exact absurd hposAfter (by decide)
  rw [huser, if_neg hstays] at hposAfter
  obtain ⟨hfaithful, -⟩ := h ⟨hpage, hmem, hposAfter⟩ List.not_mem_nil
  have hne : ρ.pool.userId session ≠ ρ.pool.userId t := fun heq => hstays (heq ▸ hfaithful.index)
  have hindex : (ρ.logout t).pool.user_to_session (ρ.pool.userId session) = some session := by
    rw [hlogout]
    refine (SessionPool.user_to_session_unbindUser ..).trans ?_
    rw [if_neg hne]
    exact hfaithful.index
  refine ⟨⟨?_, fun s hs hs' => ?_, fun friend hfriend => ?_⟩,
    fun _ hmem => absurd hmem List.not_mem_nil⟩
  · rw [huser, if_neg hstays]
    exact hindex
  · rw [huser, huser, if_neg hstays]
    split
    · exact fun h0 => absurd hposAfter (by rw [← h0]; decide)
    · exact hfaithful.alone s (hsessions ▸ hs) hs'
  · rw [huser, if_neg hstays] at hfriend
    have hbefore := hfaithful.lists friend hfriend
    rw [honline]
    rcases eq_or_ne friend (ρ.pool.userId t) with rfl | hother
    · simp only [decide_true, Bool.not_true, Bool.false_and]
      have htold : known (ρ.pool.userId t) = true → page' = page.announce (ρ.pool.userId t) .offline := fun hknown =>
        hread.told hknown _ (hr.users session hmem hposAfter) (by rwa [isAccepted_comm])
          ((SessionPool.findByUserId_eq_some ..).mpr ⟨hindex, hsessions ▸ hmem⟩)
      rcases hread.either with rfl | rfl
      · cases hknown : known (ρ.pool.userId t) with
        | true =>
          rw [htold hknown]
          exact (hknown ▸ hbefore).announce (by decide)
        | false =>
          have hoff : ρ.presence.isOnline (ρ.pool.userId t) = false := by
            rw [Bool.eq_false_iff]
            intro hon
            rw [hr.online _ hon] at hknown
            cases hknown
          rwa [hoff, hknown] at hbefore
      · exact hbefore.announce (by decide)
    · simp only [hother, decide_false, Bool.not_false, Bool.true_and]
      rcases hread.either with rfl | rfl
      · exact hbefore
      · exact hbefore.beside hother.symm

theorem isOnline_login (hpos : 0 < user) (u : Int32) :
    (ρ.login t user).presence.isOnline u = (decide (u = user) || ρ.presence.isOnline u) :=
  PresenceManager.isOnline_setOnline _ hpos u

theorem sessions_login (ρ : Roster) (t : SessionId) (user : Int32) :
    (ρ.login t user).pool.sessions = ρ.pool.sessions := SessionPool.sessions_bindUser ..

/-- A page that has just been logged in shows everybody as offline. -/
theorem Follows.login_self (hknown : known user = true) (hpos : 0 < user)
    (hsole : ∀ s ∈ ρ.pool.sessions, s ≠ session → ρ.pool.userId s ≠ user)
    (hfirst : ∀ friend, friend ≠ user → rows.any (isAccepted user friend) = true → ρ.presence.isOnline friend = false)
    (hlists : ∀ friend, rows.any (isAccepted user friend) = true → ShowsBoth page friend (known friend) false)
    {page' : Page}
    (hread : Announced known rows (ρ.login session user) session user .online page page') :
    Follows known rows session [] (ρ.login session user) page' := by
  rintro ⟨-, hmem, -⟩ -
  rw [sessions_login] at hmem
  have huser : ∀ s, (ρ.login session user).pool.userId s = if s = session then user else ρ.pool.userId s :=
    SessionPool.userId_bindUser ρ.pool session user hmem hpos
  have hself : (ρ.login session user).pool.userId session = user := by rw [huser, if_pos rfl]
  have hindex : (ρ.login session user).pool.user_to_session user = some session := by
    refine (SessionPool.user_to_session_bindUser ρ.pool session user hmem hpos user).trans ?_
    rw [if_pos rfl]
  refine ⟨⟨by rwa [hself], fun s hs hne => ?_, fun friend hfriend => ?_⟩, nofun⟩
  · rw [huser, if_neg hne, hself]
    exact hsole s (sessions_login ρ session user ▸ hs) hne
  · rw [hself] at hfriend
    rw [isOnline_login hpos]
    rcases eq_or_ne friend user with rfl | hother
    · simp only [decide_true, Bool.true_or]
      rw [hread.told hknown friend hknown hfriend
        ((SessionPool.findByUserId_eq_some ..).mpr ⟨hindex, sessions_login ρ session friend ▸ hmem⟩)]
      exact (hlists friend hfriend).announce (by decide)
    · simp only [hother, decide_false, Bool.false_or]
      rw [hfirst friend hother hfriend]
      rcases hread.either with rfl | rfl
      · exact hlists friend hfriend
      · exact (hlists friend hfriend).beside hother.symm

/-- The friends of a user are told that the user has come. -/
theorem Follows.login_other (h : Follows known rows session [] ρ page) (hr : Recorded known ρ) (hknown : known user = true)
    (hpos : 0 < user) (hne : t ≠ session) (halone : LoggedInOn session ρ page → user ≠ ρ.pool.userId session)
    {page' : Page} (hread : Announced known rows (ρ.login t user) session user .online page page') :
    Follows known rows session [] (ρ.login t user) page' := by
  have hcurrent : page'.currentUser = page.currentUser := by
    rcases hread.either with rfl | rfl <;> rfl
  have hsame : (ρ.login t user).pool.userId session = ρ.pool.userId session := by
    rcases em (t ∈ ρ.pool.sessions) with ht | ht
    · refine (SessionPool.userId_bindUser ρ.pool t user ht hpos session).trans ?_
      rw [if_neg hne.symm]
    · exact congrArg (SessionPool.userId · session) (SessionPool.bindUser_of_refused ρ.pool t user (.inl ht))
  rintro ⟨hpage, hmem, hposUser⟩ -
  rw [hcurrent] at hpage
  rw [sessions_login] at hmem
  rw [hsame] at hposUser
  have hlogged : LoggedInOn session ρ page := ⟨hpage, hmem, hposUser⟩
  have hapart := halone hlogged
  obtain ⟨hfaithful, -⟩ := h hlogged List.not_mem_nil
  have hindex : (ρ.login t user).pool.user_to_session (ρ.pool.userId session) = some session := by
    rcases em (t ∈ ρ.pool.sessions) with ht | ht
    · refine (SessionPool.user_to_session_bindUser ρ.pool t user ht hpos _).trans ?_
      rw [if_neg hapart.symm, if_neg fun hold => hfaithful.alone t ht hne hold.2.symm]
      exact hfaithful.index
    · refine Eq.trans ?_ hfaithful.index
      exact congrArg (SessionPool.user_to_session · _) (SessionPool.bindUser_of_refused ρ.pool t user (.inl ht))
  refine ⟨⟨by rwa [hsame], fun s hs hs' => ?_, fun friend hfriend => ?_⟩, nofun⟩
  · rw [sessions_login] at hs
    rw [hsame]
    rcases em (t ∈ ρ.pool.sessions) with ht | ht
    · have huser := SessionPool.userId_bindUser ρ.pool t user ht hpos s
      rw [show (ρ.login t user).pool.userId s = _ from huser]
      split
      · exact hapart
      · exact hfaithful.alone s hs hs'
    · have hrefused := congrArg (SessionPool.userId · s) (SessionPool.bindUser_of_refused ρ.pool t user (.inl ht))
      rw [show (ρ.login t user).pool.userId s = ρ.pool.userId s from hrefused]
      exact hfaithful.alone s hs hs'
  · rw [hsame] at hfriend
    have hbefore := hfaithful.lists friend hfriend
    rw [isOnline_login hpos]
    rcases eq_or_ne friend user with rfl | hother
    · simp only [decide_true, Bool.true_or]
      rw [hread.told hknown _ (hr.users session hmem hposUser) (by rwa [isAccepted_comm])
        ((SessionPool.findByUserId_eq_some ..).mpr ⟨hindex, sessions_login ρ t friend ▸ hmem⟩)]
      exact hbefore.announce (by decide)
    · simp only [hother, decide_false, Bool.false_or]
      rcases hread.either with rfl | rfl
      · exact hbefore
      · exact hbefore.beside hother.symm

/-! ### Who is known -/

theorem Recorded.remove (h : Recorded known ρ) (t : SessionId) : Recorded known (ρ.remove t) where
  users s hs hpos := by
    have huser : (ρ.remove t).pool.userId s = ρ.pool.userId s := ρ.pool.userId_remove t s
    rw [huser] at hpos ⊢
    exact h.users s (List.mem_of_mem_erase ((SessionPool.sessions_remove ρ.pool t) ▸ hs)) hpos
  online u hu := h.online u ((isOnline_remove t u).mp hu).1

theorem Recorded.accept (h : Recorded known ρ) : Recorded known ρ.accept where
  users s hs hpos := by
    rw [userId_accept] at hpos ⊢
    split at hpos
    · exact absurd hpos (by decide)
    · next hne =>
      rw [if_neg hne]
      exact h.users s ((SessionPool.mem_sessions_add hs).resolve_left hne) hpos
  online := h.online

theorem Recorded.login (h : Recorded known ρ) (hpos : 0 < user) (hknown : known user = true) (t : SessionId) :
    Recorded known (ρ.login t user) where
  users s hs hposUser := by
    rw [sessions_login] at hs
    rcases em (t ∈ ρ.pool.sessions) with ht | ht
    · have huser := SessionPool.userId_bindUser ρ.pool t user ht hpos s
      rw [show (ρ.login t user).pool.userId s = _ from huser] at hposUser ⊢
      split
      · exact hknown
      · next hne =>
        rw [if_neg hne] at hposUser
        exact h.users s hs hposUser
    · have hrefused := congrArg (SessionPool.userId · s) (SessionPool.bindUser_of_refused ρ.pool t user (.inl ht))
      rw [show (ρ.login t user).pool.userId s = ρ.pool.userId s from hrefused] at hposUser ⊢
      exact h.users s hs hposUser
  online u hu := by
    rw [isOnline_login hpos, Bool.or_eq_true, decide_eq_true_eq] at hu
    rcases hu with rfl | hu
    · exact hknown
    · exact h.online u hu

theorem Recorded.logout (h : Recorded known ρ) (hi : ρ.pool.Indexed) (t : SessionId) : Recorded known (ρ.logout t) := by
  unfold Roster.logout
  dsimp only
  split
  · refine ⟨fun s hs hpos => ?_, fun u hu => ?_⟩
    · have huser : (ρ.pool.unbindUser (ρ.pool.userId t)).userId s = _ := Roster.userId_unbindUser hi _ s
      dsimp only at hpos ⊢
      rw [huser] at hpos ⊢
      split at hpos
      · exact absurd hpos (by decide)
      · next hne =>
        rw [if_neg hne]
        exact h.users s ((SessionPool.sessions_unbindUser ..) ▸ hs) hpos
    · rw [PresenceManager.isOnline_setOffline, Bool.and_eq_true] at hu
      exact h.online u hu.2
  · exact h

end Follows

end Client

end LanChat
