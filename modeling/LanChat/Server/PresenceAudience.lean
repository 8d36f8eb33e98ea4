import LanChat.Db.UserLists
import LanChat.Server.FrameTypes
import LanChat.Server.Friendship
import LanChat.Server.Removal

/-!
# Who is told of a presence change

A login and a logout are announced to the sessions of the user's friends
(`sat_broadcastPresence_friends`). The removal of a session is announced to every
session that is left in the pool, so that friends alone are told as long as
friends alone are left (`friendsOnly_handle`).
-/

namespace LanChat

open Lib Json

namespace MessageRouter

open Database FriendRepository

/-- The user whose coming or going the payload announces. -/
def announced (payload : Object) : Option Int32 :=
  match typeField payload with
  | some .FriendOnline => some (intField payload "friendId" 0)
  | some .UserOnline => some (intField payload "id" 0)
  | some .UserOffline => some (intField payload "id" 0)
  | _ => none

/-- What is announced goes to a session that is logged in as a friend of the
user, as `areFriends` says of the rows at this moment. -/
def FriendsOnly (d : Delivery) : Prop :=
  ∀ user, announced d.payload = some user →
    0 < d.at_.userId d.target ∧ d.at_.db.friendRows.any (isAccepted user (d.at_.userId d.target)) = true

/-- The command tells friends only, from a server with this roster. -/
def TellsFriends (ρ : Roster) (F : Database → Prop) (c : RouterM Unit) : Prop :=
  Cmd.Sat (At ρ F) c (fun _ _ => True) (fun _ _ => True) FriendsOnly

section Announcements

variable {env : Env} {ρ : Roster} {F : Database → Prop} {payload : Object} {user : Int32} {session : SessionId}
  {request : Object}

theorem friendsOnly_of_none {d : Delivery} (h : announced d.payload = none) : FriendsOnly d := fun user huser => by
  rw [h] at huser
  cases huser

theorem announced_of_type (types : List MsgType) (hnone : ∀ type ∈ types, type ∉ [.FriendOnline, .UserOnline, .UserOffline])
    (h : OfType types payload) : announced payload = none := by
  obtain ⟨type, hmem, htype⟩ := h
  have hother := hnone type hmem
  unfold announced
  rw [htype]
  split <;> simp_all

theorem announced_presencePayload (online : Bool) (info : UserInfo) (userId : Int32) :
    announced (presencePayload online info userId) = some userId := by
  have htype : typeField (presencePayload online info userId) = some .FriendOnline :=
    typeField_of_find? (by rw [presencePayload, find?_object]; simp)
  unfold announced
  rw [htype]
  simp [presencePayload, intField, find?_object, ofInt32, Value.isNumber, Value.asInt]

/-- The session that is found for a friend. -/
theorem friendsOnly_of_found (hi : ρ.pool.Indexed) {friend : Int32} {target : SessionId} {at_ : Server}
    {carries : List StoredMessage} (hfound : ρ.pool.findByUserId friend = some target) (hroster : at_.roster = ρ)
    (hannounced : announced payload = some user) (hfriend : at_.db.friendRows.any (isAccepted user friend) = true) :
    FriendsOnly ⟨target, payload, carries, at_⟩ := by
  intro user' huser
  cases hannounced.symm.trans huser
  obtain ⟨hindex, -⟩ := (SessionPool.findByUserId_eq_some ..).mp hfound
  have hid : at_.userId target = friend := by
    rw [← (hi.sound _ _ hindex).2, ← hroster]
    rfl
  rw [hid]
  exact ⟨hi.positive _ _ hindex, hfriend⟩

/-- Logins and logouts are announced to friends. -/
theorem sat_broadcastPresence_friends (hi : ρ.pool.Indexed) (type : MsgType) (user : Int32) :
    TellsFriends ρ F (broadcastPresence env type user) := by
  refine (sat_onDb_any _).bind fun found => ?_
  cases found with
  | none => exact Cmd.sat_pure fun _ _ => trivial
  | some info =>
    refine (sat_onDb (sat_getFriends user)).bind fun friends => ?_
    refine (Cmd.sat_each fun friend hmem => ?_).post fun _ _ _ => trivial
    refine sat_deliverToUser fun target at_ hfound hat => ?_
    exact friendsOnly_of_found hi hfound hat.1 (announced_presencePayload ..) (hat.2 friend hmem)

/-! ## Requests -/

/-- Frames of the other types tell nothing. -/
theorem silent_of_emits {types : List MsgType} {c : RouterM Unit} (h : Emits (OfType types) c)
    (hnone : ∀ type ∈ types, type ∉ [.FriendOnline, .UserOnline, .UserOffline]) :
    Cmd.Sat (fun _ => True) c (fun _ _ => True) (fun _ _ => True) FriendsOnly :=
  h.weaken (fun _ h => h) (fun _ _ h => h) (fun _ _ h => h) fun _ hd =>
    friendsOnly_of_none (announced_of_type types hnone hd)

theorem TellsFriends.of_silent {c : RouterM Unit}
    (h : Cmd.Sat (fun _ => True) c (fun _ _ => True) (fun _ _ => True) FriendsOnly) : TellsFriends ρ F c :=
  h.pre fun _ _ => trivial

theorem silent_reply (types : List MsgType) (hnone : ∀ type ∈ types, type ∉ [.FriendOnline, .UserOnline, .UserOffline])
    (htype : OfType types payload) :
    Cmd.Sat (fun _ => True) (deliver session payload) (fun _ _ => True) (fun _ _ => True) FriendsOnly :=
  silent_of_emits (emits_deliver session htype) hnone

theorem tellsFriends_handleLogout (hi : ρ.pool.Indexed) : TellsFriends ρ F (handleLogout env session) := by
  refine sat_authenticatedUserId.bind fun uid => Cmd.Sat.of_fact fun _ =>
    Cmd.Sat.bind (R := fun _ _ => True) (Cmd.sat_when (fun _ => ?_) fun _ _ _ => trivial) fun _ =>
      silent_reply [.SystemBroadcast] (by decide) (ofType_okReply (by decide) _)
  refine sat_modifyPresence.bind fun _ => (sat_onDb_any _).bind fun _ =>
    (sat_modifyPool (ρ.pool.unbindUser uid) fun st hst => ?_).bind fun _ =>
      sat_broadcastPresence_friends (hi.unbindUser uid) _ _
  rw [SessionPool.bare_unbindUser]
  exact congrArg (fun r : Roster => r.pool.unbindUser uid) hst.1

theorem sat_deliverContent_silent {carries : Server → List StoredMessage} (h : announced payload = none) :
    Cmd.Sat (At ρ F) (deliverContent session payload carries) (fun _ => At ρ F) (fun _ _ => True) FriendsOnly :=
  sat_deliverContent fun _ _ => friendsOnly_of_none h

theorem sat_deliverOffline_silent (uid : Int32) :
    Cmd.Sat (At ρ F) (deliverOffline env session uid) (fun _ => At ρ fun _ => True) (fun _ _ => True) FriendsOnly := by
  refine (sat_onDb_any _).bind fun messages => Cmd.sat_ite (fun _ => Cmd.sat_pure fun _ h => h) fun _ => ?_
  exact sat_deliverContent_silent (announced_of_type [.OfflineMessages] (by decide)
    (ofType_object (t := .OfflineMessages) (by decide) (by simp)))

theorem tellsFriends_acceptLogin (hi : ρ.pool.Indexed) (uid : Int32) (user : UserInfo) :
    TellsFriends ρ F (acceptLogin env session uid user) := by
  have hbind : ∀ st, At ρ F st → (st.pool.bindUser session uid).2.bare = (ρ.pool.bindUser session uid).2 := by
    intro st hst
    rw [SessionPool.bare_bindUser]
    exact congrArg (fun r : Roster => (r.pool.bindUser session uid).2) hst.1
  refine (sat_modifyPool _ hbind).bind fun _ => sat_modifyPresence.bind fun _ => ?_
  change Cmd.Sat (At (ρ.login session uid) F) _ _ _ _
  refine (sat_onDb_any _).bind fun _ => Cmd.Sat.bind (R := fun _ => At (ρ.login session uid) fun _ => True)
    (Cmd.sat_asks fun _ h => h) fun presence => (sat_onDb_any _).bind fun _ => (sat_onDb_any _).bind fun _ =>
    (sat_onDb_any _).bind fun _ => Cmd.Sat.bind (R := fun _ => At (ρ.login session uid) fun _ => True)
      (sat_deliverContent_silent ?_) fun _ => (sat_deliverOffline_silent uid).bind fun _ =>
        sat_broadcastPresence_friends (hi.bindUser session uid) _ _
  exact announced_of_type [.LoginSuccessReturn] (by decide)
    (ofType_object (t := .LoginSuccessReturn) (by decide) (by simp))

theorem tellsFriends_handleLogin (hi : ρ.pool.Indexed) : TellsFriends ρ F (handleLogin env session request) := by
  have hrefused : ∀ {F : Database → Prop} code msg,
      TellsFriends ρ F (deliver session (errorReply .LoginFailedReturn code msg)) := fun code msg =>
    .of_silent (silent_reply [.LoginFailedReturn] (by decide) (ofType_errorReply (by decide) ..))
  refine Cmd.sat_ite (fun _ => hrefused _ _) fun _ => (sat_onDb_any _).bind fun verified =>
    Cmd.sat_ite (fun _ => hrefused _ _) fun _ => (sat_onDb_any _).bind fun user => ?_
  cases user with
  | none => exact hrefused _ _
  | some user => exact tellsFriends_acceptLogin hi _ user

theorem tellsFriends_dispatch (hi : ρ.pool.Indexed) : TellsFriends ρ F (dispatch env session request) := by
  have hemits := @emits_dispatch env session request
  rcases em (typeField request = some .Login) with hlogin | hlogin
  · simp only [dispatch, hlogin]
    exact tellsFriends_handleLogin hi
  rcases em (typeField request = some .Logout) with hlogout | hlogout
  · simp only [dispatch, hlogout]
    exact tellsFriends_handleLogout hi
  refine .of_silent (silent_of_emits hemits ?_)
  generalize typeField request = type at hlogin hlogout
  unfold answers
  split <;> simp_all

theorem tellsFriends_route (hi : ρ.pool.Indexed) (json : Bytes) : TellsFriends ρ F (route env session json) := by
  refine route_rule env ?_ ?_ fun _ _ => tellsFriends_dispatch hi
  · exact .of_silent (@silent_of_emits [] _ (emits_throw _) nofun)
  · exact .of_silent (silent_reply [.SystemBroadcast] (by decide) (ofType_errorReply (by decide) ..))

end Announcements

end MessageRouter

namespace TcpServer

open Database FriendRepository MessageRouter

variable (env : Env)

/-- Each session of the list that is logged in when it is removed leaves only
friends of its user behind. -/
def LeavesFriends (rows : List FriendshipRow) : Roster → List SessionId → Prop
  | _, [] => True
  | r, session :: rest =>
    (session ∈ r.pool.sessions → 0 < r.pool.userId session → ∀ t ∈ (r.remove session).pool.sessions,
      0 < r.pool.userId t ∧ rows.any (isAccepted (r.pool.userId session) (r.pool.userId t)) = true) ∧
    LeavesFriends rows (r.remove session) rest

instance decidableLeavesFriends (rows : List FriendshipRow) :
    ∀ r sessions, Decidable (LeavesFriends rows r sessions)
  | _, [] => isTrue trivial
  | r, session :: rest =>
    have := decidableLeavesFriends rows (r.remove session) rest
    inferInstanceAs (Decidable (_ ∧ _))

/-- The sessions that the event removes leave only friends behind, also if an
open transaction is committed or rolled back meanwhile. -/
def Discreet (st : Server) (event : Event) : Prop :=
  FriendsShow (fun rows => LeavesFriends rows st.roster (removes env st event)) st.db

section Removal

variable {env} {ρ : Roster} {P : List FriendshipRow → Prop} {uid : Int32} {session : SessionId}

theorem announced_offlinePayload (user : UserInfo) (uid : Int32) : announced (offlinePayload user uid) = some uid := by
  have htype : typeField (offlinePayload user uid) = some .UserOffline :=
    typeField_of_find? (by rw [offlinePayload, find?_object]; simp)
  unfold announced
  rw [htype]
  simp [offlinePayload, intField, find?_object, ofInt32, Value.isNumber, Value.asInt]

/-- A disconnection is announced to all that are left. -/
theorem sat_markOfflineAndBroadcast_friends (hfriends : ∀ rows, P rows → ∀ t ∈ ρ.pool.sessions,
    0 < ρ.pool.userId t ∧ rows.any (isAccepted uid (ρ.pool.userId t)) = true) :
    Cmd.Sat (At ρ (FriendsShow P)) (markOfflineAndBroadcast env uid)
      (fun _ => At { ρ with presence := ρ.presence.setOffline uid } (FriendsShow P)) (fun _ _ => True)
      FriendsOnly := by
  have hr := reads_friends env P
  have hoffline : Cmd.Sat (FriendsShow P) (UserRepository.setOnlineStatus env uid false) (fun _ => FriendsShow P)
      (fun _ _ => True) fun _ => True :=
    ((writesTo_friends env P .users).setOnlineStatus hr uid false).weaken (fun _ h => h) (fun _ _ h => h)
      (fun _ _ _ => trivial) fun _ h => h
  have hfind : Cmd.Sat (FriendsShow P) (UserRepository.findById env uid) (fun _ => FriendsShow P)
      (fun _ _ => True) fun _ => True :=
    (hr.findById uid).weaken (fun _ h => h) (fun _ _ h => h) (fun _ _ _ => trivial) fun _ h => h
  refine sat_modifyPresence.bind fun _ => (sat_onDb hoffline).bind fun _ => (sat_onDb hfind).bind fun user => ?_
  cases user with
  | none => exact Cmd.sat_pure fun _ h => h
  | some user =>
    have hpool : ∀ {st : Server}, At { ρ with presence := ρ.presence.setOffline uid } (FriendsShow P) st →
        st.roster.pool = ρ.pool := fun hst => by rw [hst.1]
    refine (Cmd.sat_asks (Q := fun sessions st => (∀ t ∈ sessions, t ∈ ρ.pool.sessions) ∧ At _ (FriendsShow P) st)
      fun st hst => ⟨fun t ht => ?_, hst⟩).bind fun sessions => Cmd.Sat.of_fact fun hsessions =>
        Cmd.sat_each fun t ht => sat_deliver fun st hst user' huser => ?_
    · rw [← hpool hst]
      exact (env.order_perm _).mem_iff.mp ht
    · cases (announced_offlinePayload user uid).symm.trans huser
      have huser : st.roster.pool.userId t = ρ.pool.userId t := by rw [hpool hst]
      rw [show st.userId t = ρ.pool.userId t from huser]
      exact hfriends _ hst.2.view t (hsessions t (List.mem_of_mem_filter ht))

theorem sat_removeSession_friends (hfriends : ∀ rows, P rows → session ∈ ρ.pool.sessions → 0 < ρ.pool.userId session →
    ∀ t ∈ (ρ.remove session).pool.sessions,
      0 < ρ.pool.userId t ∧ rows.any (isAccepted (ρ.pool.userId session) (ρ.pool.userId t)) = true) :
    Cmd.Sat (At ρ (FriendsShow P)) (removeSession env session) (fun _ => At (ρ.remove session) (FriendsShow P))
      (fun _ _ => True) FriendsOnly := by
  refine (Cmd.sat_asks (Q := fun uid st =>
    (uid = if session ∈ ρ.pool.sessions then ρ.pool.userId session else 0) ∧ At ρ (FriendsShow P) st)
      fun st hst => ⟨by rw [← hst.1]; rfl, hst⟩).bind fun uid => Cmd.Sat.of_fact fun h => ?_
  subst h
  refine (sat_modifyPool (ρ.pool.remove session) fun st hst => ?_).bind fun _ => ?_
  · rw [SessionPool.bare_remove]
    exact congrArg (fun r : Roster => r.pool.remove session) hst.1
  · refine Cmd.sat_ite (fun hpos => ?_) fun hpos => Cmd.sat_pure fun st hst => ⟨?_, hst.2⟩
    · refine (sat_markOfflineAndBroadcast_friends fun rows hrows t ht => ?_).post fun _ st hst => ⟨hst.1.trans ?_, hst.2⟩
      · have hpooled : session ∈ ρ.pool.sessions := by
          by_contra hout
          rw [if_neg hout] at hpos
          exact absurd hpos (by decide)
        rw [if_pos hpooled] at hpos ⊢
        have hfriend := hfriends rows hrows hpooled hpos t ht
        rwa [SessionPool.userId_remove]
      · simp only [Roster.remove, if_pos hpos]
    · rw [hst.1]
      simp only [Roster.remove, if_neg hpos]

/-- A sweep, session by session. -/
theorem sat_removeSessions_friends (sessions : List SessionId)
    (hfriends : ∀ rows, P rows → LeavesFriends rows ρ sessions) :
    Cmd.Sat (At ρ (FriendsShow P)) (Cmd.each sessions (removeSession env)) (fun _ _ => True) (fun _ _ => True)
      FriendsOnly := by
  induction sessions generalizing ρ with
  | nil => exact Cmd.sat_pure fun _ _ => trivial
  | cons session sessions ih =>
    exact (sat_removeSession_friends fun rows hrows => (hfriends rows hrows).1).bind fun _ =>
      ih fun rows hrows => (hfriends rows hrows).2

/-! ## Events -/

/-- What a step that meets the condition announces, friends alone are told. -/
theorem friendsOnly_handle {st : Server} {event : Event} (hi : st.roster.pool.Indexed)
    (hdiscreet : Discreet env st event) : ∀ d ∈ (handle env event st).out, FriendsOnly d := by
  have hat : At st.roster (FriendsShow fun rows => LeavesFriends rows st.roster (removes env st event)) st :=
    ⟨rfl, hdiscreet⟩
  cases event with
  | accept now =>
    show ∀ d ∈ (accept now st).out, _
    rw [out_accept]
    exact List.forall_mem_nil _
  | frame session json now later =>
    cases hreading : st.reading session with
    | false =>
      have hreading : (st.pool.object session).reading = false := hreading
      simp only [handle]
      rw [Cmd.bind_of_run _ (Cmd.asks_apply _ _), hreading]
      exact List.forall_mem_nil _
    | true =>
      rw [handle_reading_frame hreading]
      refine (Cmd.Sat.bind (sat_modifySession fun s => s.consumeRateLimitToken_user_id now) fun _ =>
        Cmd.sat_ite (Q := fun _ _ => True) (E := fun _ _ => True) (fun hex => ?_) fun _ =>
          Cmd.sat_ite (fun _ => ?_) fun _ => tellsFriends_route hi json) st hat |>.1
      · refine (sat_removeSession_friends fun rows hrows => ?_).post fun _ _ _ => trivial
        rw [exhausted_iff] at hex
        simp only [removes, hreading, hex, and_self, if_true] at hrows
        exact hrows.1
      · exact (sat_modifySession (f := AsyncSession.heartbeatReceived later) fun _ => rfl).bind fun _ =>
          TellsFriends.of_silent (silent_reply [.HeartbeatAck] (by decide) (ofType_okReply (by decide) _))
  | readError session =>
    simp only [handle]
    rw [Cmd.bind_of_run _ (Cmd.asks_apply _ _)]
    cases hreading : (st.pool.object session).reading with
    | false => exact List.forall_mem_nil _
    | true =>
      rw [if_pos rfl]
      refine (Cmd.Sat.bind (sat_modifySession (f := AsyncSession.stopReading) fun _ => rfl) fun _ =>
        (sat_removeSession_friends fun rows hrows => ?_)) st hat |>.1
      have hremoves : removes env st (.readError session) = [session] := if_pos hreading
      rw [hremoves] at hrows
      exact hrows.1
  | sweep now =>
    simp only [handle, sweepHeartbeatTimeouts]
    rw [Cmd.bind_of_run _ (Cmd.asks_apply _ _)]
    exact (sat_removeSessions_friends _ fun rows hrows => hrows) st hat |>.1

/-- In every reachable state, a step that removes a logged-in session only if
friends of its user are left tells friends only. -/
theorem presence_to_friends (env : Env) (db : Database) (st : Server) (event : Event) (h : Reachable env db st)
    (hdiscreet : Discreet env st event) : ∀ d ∈ (handle env event st).out, FriendsOnly d := by
  obtain ⟨events, hrun⟩ := h
  exact friendsOnly_handle (kept_of_run hrun).indexed hdiscreet

/-- User 1000 loses the connection when only the friend 1001 is left. -/
theorem presence_to_friends_last : ∃ st, Reachable .ideal (Server.boot .ideal .empty).db st ∧
    (handle .ideal (.readError 1) st).out.map (·.target) = [2] ∧
    ∀ d ∈ (handle .ideal (.readError 1) st).out, FriendsOnly d := by
  have hrun : ((run (step .ideal) (.boot .ideal .empty) (threeUsers ++ befriend ++ [Event.readError 3])).map fun st =>
      (st.db.sqlite.transaction.isNone, decide (LeavesFriends st.db.friendRows st.roster (removes .ideal st (.readError 1))),
        (handle .ideal (.readError 1) st).out.map (·.target))) = some (true, true, [2]) := by
    decide +kernel
  obtain ⟨st, hst, heq⟩ := Option.map_eq_some_iff.mp hrun
  simp only [Prod.mk.injEq, Option.isNone_iff_eq_none, decide_eq_true_eq] at heq
  obtain ⟨hidle, hleaves, hout⟩ := heq
  have hreach : Reachable .ideal (Server.boot .ideal .empty).db st := ⟨_, hst⟩
  exact ⟨st, hreach, hout,
    presence_to_friends .ideal _ st (.readError 1) hreach (friendsShow_of_idle hidle hleaves)⟩

/-- The users 1001 and 1002, who have no friends, and session 4, on which nobody
has logged in, are told that user 1000 has gone. -/
theorem presence_told_to_strangers :
    ¬∀ env db st event, Reachable env db st → ∀ d ∈ (handle env event st).out, FriendsOnly d := by
  intro hall
  have hrun : ((run (step .ideal) (.boot .ideal .empty) (threeUsers ++ [Event.accept 0])).map fun st =>
      ((handle .ideal (.readError 1) st).out.map fun d =>
        (d.target, announced d.payload, d.at_.userId d.target))) =
      some [(4, some 1000, 0), (3, some 1000, 1002), (2, some 1000, 1001)] := by
    decide +kernel
  obtain ⟨st, hst, hout⟩ := Option.map_eq_some_iff.mp hrun
  have hstranger : ∃ d ∈ (handle .ideal (.readError 1) st).out,
      (d.target, announced d.payload, d.at_.userId d.target) = (4, some 1000, 0) :=
    List.mem_map.mp (by rw [hout]; exact List.mem_cons_self)
  obtain ⟨d, hd, hvalues⟩ := hstranger
  simp only [Prod.mk.injEq] at hvalues
  obtain ⟨-, hannounced, huser⟩ := hvalues
  obtain ⟨hpos, -⟩ := hall .ideal _ st _ ⟨_, hst⟩ d hd 1000 hannounced
  rw [huser] at hpos
  exact absurd hpos (by decide)

end Removal

end TcpServer

end LanChat
