import LanChat.Server.RosterSteps

/-!
# Who is online, and who is logged out

The presence table is kept beside the pool. `presence_iff_keepsPresence` says
which steps keep the two in agreement; `logout_iff_indexed` says whom a logout
logs out. Both fail when a user is logged in on two sessions.
-/

namespace LanChat

open Lib Json

/-! ## Presence -/

namespace Roster

/-- A user is online exactly when some session of the pool carries that user. -/
def Truthful (r : Roster) : Prop :=
  ∀ user, user ≠ 0 →
    (r.presence.isOnline user = true ↔ ∃ session ∈ r.pool.sessions, r.pool.userId session = user)

/-- The condition on a login of `uid` on `session`: a user who was logged in
there is left with another session, and a session that has left the pool does
not count. -/
def LoginKeeps (r : Roster) (session : SessionId) (uid : Int32) : Prop :=
  if session ∈ r.pool.sessions then
    r.pool.userId session = 0 ∨ r.pool.userId session = uid ∨
      ∃ other ∈ r.pool.sessions, other ≠ session ∧ r.pool.userId other = r.pool.userId session
  else ∃ other ∈ r.pool.sessions, r.pool.userId other = uid

/-- The condition on a logout: the index names every session of the user. -/
def LogoutKeeps (r : Roster) (session : SessionId) : Prop :=
  0 < r.pool.userId session → ∀ other ∈ r.pool.sessions, r.pool.userId other = r.pool.userId session →
    r.pool.user_to_session (r.pool.userId session) = some other

/-- The condition on a removal of sessions: all sessions of their users go. -/
def RemoveKeeps (r : Roster) (sessions : List SessionId) : Prop :=
  ∀ session ∈ sessions, session ∈ r.pool.sessions → r.pool.userId session ≠ 0 →
    ∀ other ∈ r.pool.sessions, r.pool.userId other = r.pool.userId session → other ∈ sessions

theorem truthful_login_iff {r : Roster} (ht : r.Truthful) (session : SessionId) {uid : Int32}
    (hpos : 0 < uid) : (r.login session uid).Truthful ↔ r.LoginKeeps session uid := by
  have hne : uid ≠ 0 := fun h => absurd (h ▸ hpos) (by decide)
  have honline : ∀ user, (r.login session uid).presence.isOnline user = true ↔
      user = uid ∨ r.presence.isOnline user = true := by
    intro user
    simp [Roster.login, PresenceManager.isOnline_setOnline _ hpos]
  unfold LoginKeeps
  split
  · next hs =>
    have huser : ∀ t, (r.login session uid).pool.userId t =
        if t = session then uid else r.pool.userId t :=
      r.pool.userId_bindUser session uid hs hpos
    constructor
    · intro h
      by_contra hcon
      simp only [not_or, not_exists, not_and] at hcon
      obtain ⟨h0, hother, hall⟩ := hcon
      obtain ⟨t, hmem, ht'⟩ := (h _ h0).mp ((honline _).mpr (.inr ((ht _ h0).mpr ⟨session, hs, rfl⟩)))
      rw [huser] at ht'
      split at ht'
      · exact hother ht'.symm
      · next hts =>
        simp only [Roster.login, SessionPool.sessions_bindUser] at hmem
        exact hall t hmem hts ht'
    · intro hcond user h0
      rw [honline]
      simp only [Roster.login, SessionPool.sessions_bindUser] at huser ⊢
      simp only [huser]
      constructor
      · rintro (rfl | hon)
        · exact ⟨session, hs, by simp⟩
        · obtain ⟨t, hmem, htu⟩ := (ht user h0).mp hon
          by_cases hts : t = session
          · subst hts
            rcases hcond with hc | hc | ⟨other, hother, hos, heq⟩
            · exact absurd (htu.symm.trans hc) h0
            · exact ⟨t, hmem, by simp [← hc, htu]⟩
            · exact ⟨other, hother, by rw [if_neg hos, heq, htu]⟩
          · exact ⟨t, hmem, by rw [if_neg hts, htu]⟩
      · rintro ⟨t, hmem, htu⟩
        split at htu
        · exact .inl htu.symm
        · exact .inr ((ht user h0).mpr ⟨t, hmem, htu⟩)
  · next hs =>
    have hpool : (r.login session uid).pool = r.pool :=
      r.pool.bindUser_of_refused session uid (.inl hs)
    constructor
    · intro h
      have := (h uid hne).mp ((honline uid).mpr (.inl rfl))
      rwa [hpool] at this
    · intro hcond user h0
      rw [honline, hpool, ht user h0]
      constructor
      · rintro (rfl | h)
        · exact hcond
        · exact h
      · exact .inr

/-- Only the session that the index names for a user is logged out. -/
theorem userId_unbindUser {pool : SessionPool} (hi : pool.Indexed) (uid : Int32) (t : SessionId) :
    (pool.unbindUser uid).userId t =
      if pool.user_to_session uid = some t then 0 else pool.userId t := by
  cases hindex : pool.user_to_session uid with
  | none => simp [SessionPool.unbindUser_of_none _ _ hindex]
  | some indexed =>
    rw [SessionPool.unbindUser_of_some hindex (hi.sound uid indexed hindex).1]
    simp [eq_comm]

theorem truthful_logout_iff {r : Roster} (hi : r.pool.Indexed) (ht : r.Truthful)
    (session : SessionId) : (r.logout session).Truthful ↔ r.LogoutKeeps session := by
  by_cases hpos : 0 < r.pool.userId session
  swap
  · have hsame : r.logout session = r := by simp only [logout, if_neg hpos]
    rw [hsame]
    exact iff_of_true ht fun h => absurd h hpos
  have hne : r.pool.userId session ≠ 0 := fun h => absurd (h ▸ hpos) (by decide)
  have honline : ∀ user, (r.logout session).presence.isOnline user = true ↔
      user ≠ r.pool.userId session ∧ r.presence.isOnline user = true := by
    intro user
    simp [logout, hpos, PresenceManager.isOnline_setOffline]
  have hsessions : (r.logout session).pool.sessions = r.pool.sessions := by simp [logout, hpos]
  have huser : ∀ t, (r.logout session).pool.userId t =
      if r.pool.user_to_session (r.pool.userId session) = some t then 0 else r.pool.userId t := by
    intro t
    simp only [logout, if_pos hpos]
    exact userId_unbindUser hi _ t
  constructor
  · intro h _ other hother heq
    by_contra hindex
    have hon := (h _ hne).mpr ⟨other, hsessions ▸ hother, by rw [huser, if_neg hindex, heq]⟩
    exact ((honline _).mp hon).1 rfl
  · intro hkeeps user h0
    rw [honline, hsessions]
    simp only [huser]
    constructor
    · rintro ⟨hu, hon⟩
      obtain ⟨t, hmem, htu⟩ := (ht user h0).mp hon
      refine ⟨t, hmem, ?_⟩
      rw [if_neg fun hindex => hu ?_, htu]
      rw [← htu, (hi.sound _ _ hindex).2]
    · rintro ⟨t, hmem, htu⟩
      split at htu
      · exact absurd htu.symm h0
      · next hindex =>
        refine ⟨fun hu => hindex (hkeeps hpos t hmem (htu.trans hu)), ?_⟩
        exact (ht user h0).mpr ⟨t, hmem, htu⟩

/-! ### Removals -/

section RemoveAll

variable {r : Roster} (sessions : List SessionId)

theorem userId_removeAll (t : SessionId) :
    (sessions.foldl remove r).pool.userId t = r.pool.userId t := by
  induction sessions generalizing r with
  | nil => rfl
  | cons session sessions ih => exact ih.trans (r.pool.userId_remove session t)

theorem mem_removeAll (hnodup : r.pool.sessions.Nodup) (t : SessionId) :
    t ∈ (sessions.foldl remove r).pool.sessions ↔ t ∈ r.pool.sessions ∧ t ∉ sessions := by
  induction sessions generalizing r with
  | nil => simp
  | cons session sessions ih =>
    have hstep : (r.remove session).pool.sessions = r.pool.sessions.erase session := by
      simp [remove]
    rw [List.foldl_cons, ih (hstep ▸ hnodup.erase session), hstep, hnodup.mem_erase_iff]
    simp only [List.mem_cons, not_or]
    exact ⟨fun h => ⟨h.1.2, h.1.1, h.2⟩, fun h => ⟨⟨h.2.1, h.1⟩, h.2.2⟩⟩

theorem isOnline_remove (session : SessionId) (user : Int32) :
    (r.remove session).presence.isOnline user = true ↔
      r.presence.isOnline user = true ∧
        (session ∈ r.pool.sessions → 0 < r.pool.userId session → r.pool.userId session ≠ user) := by
  simp only [remove]
  by_cases hs : session ∈ r.pool.sessions
  · by_cases hpos : 0 < r.pool.userId session
    · simp only [hs, hpos, if_true, PresenceManager.isOnline_setOffline, forall_const]
      simp only [Bool.and_eq_true, Bool.not_eq_true', decide_eq_false_iff_not, ne_eq]
      exact ⟨fun h => ⟨h.2, Ne.symm h.1⟩, fun h => ⟨Ne.symm h.2, h.1⟩⟩
    · simp [hs, hpos]
  · simp [hs]

theorem isOnline_removeAll (hnodup : r.pool.sessions.Nodup) (user : Int32) :
    (sessions.foldl remove r).presence.isOnline user = true ↔
      r.presence.isOnline user = true ∧ ∀ session ∈ sessions, session ∈ r.pool.sessions →
        0 < r.pool.userId session → r.pool.userId session ≠ user := by
  induction sessions generalizing r with
  | nil => simp
  | cons session sessions ih =>
    have hstep : (r.remove session).pool.sessions = r.pool.sessions.erase session := by
      simp [remove]
    have huser : ∀ t, (r.remove session).pool.userId t = r.pool.userId t :=
      fun t => r.pool.userId_remove session t
    rw [List.foldl_cons, ih (hstep ▸ hnodup.erase session), isOnline_remove]
    simp only [hstep, huser, hnodup.mem_erase_iff, List.forall_mem_cons, and_assoc]
    refine and_congr_right fun _ => and_congr_right fun hs => forall₂_congr fun t _ => ?_
    constructor
    · intro h hmem
      by_cases hts : t = session
      · exact hts ▸ hs (hts ▸ hmem)
      · exact h ⟨hts, hmem⟩
    · exact fun h hmem => h hmem.2

theorem truthful_removeAll_iff (hi : r.pool.Indexed) (ht : r.Truthful) :
    (sessions.foldl remove r).Truthful ↔ r.RemoveKeeps sessions := by
  unfold Truthful
  simp only [isOnline_removeAll sessions hi.nodup, mem_removeAll sessions hi.nodup,
    userId_removeAll]
  constructor
  · intro h session hs hmem h0 other hother heq
    by_contra hout
    have hon := (h _ h0).mpr ⟨other, ⟨hother, hout⟩, heq⟩
    exact hon.2 session hs hmem (hi.pos_of_ne h0) rfl
  · intro hkeeps user h0
    rw [ht user h0]
    constructor
    · rintro ⟨⟨t, hmem, htu⟩, hgone⟩
      refine ⟨t, ⟨hmem, fun hs => hgone t hs hmem ?_ htu⟩, htu⟩
      exact hi.pos_of_ne fun h => h0 (htu.symm.trans h)
    · rintro ⟨t, ⟨hmem, hout⟩, htu⟩
      refine ⟨⟨t, hmem, htu⟩, fun session hs hs' hpos heq => hout ?_⟩
      exact hkeeps session hs hs' (fun h => h0 (heq.symm.trans h)) t hmem (htu.trans heq.symm)

end RemoveAll

theorem truthful_accept {r : Roster} (hk : TcpServer.Kept r) (ht : r.Truthful) :
    r.accept.Truthful := by
  have hnew : r.next_id ∉ r.pool.sessions := fun hmem => Nat.lt_irrefl _ (hk.fresh _ hmem)
  intro user h0
  refine (ht user h0).trans ?_
  simp only [accept, SessionPool.userId_add, SessionPool.userId_setUserId]
  constructor
  · rintro ⟨t, hmem, htu⟩
    have hne : t ≠ r.next_id := fun heq => hnew (heq ▸ hmem)
    refine ⟨t, ?_, by rw [if_neg hne, htu]⟩
    rw [SessionPool.sessions_add]
    split
    · exact hmem
    · exact List.mem_cons_of_mem _ hmem
  · rintro ⟨t, hmem, htu⟩
    split at htu
    · exact absurd htu.symm h0
    · next hne => exact ⟨t, (SessionPool.mem_sessions_add hmem).resolve_left hne, htu⟩

end Roster

namespace TcpServer

open MessageRouter

/-- A user is online exactly when some session of the pool carries that user. -/
def PresenceTruthful (st : Server) : Prop :=
  ∀ user, user ≠ 0 →
    (st.presence.isOnline user = true ↔ ∃ session ∈ st.pool.sessions, st.userId session = user)

/-- The steps that keep the presence table in agreement with the pool. -/
def KeepsPresence (env : Env) (st : Server) : Event → Prop
  | .accept _ => True
  | .frame session json now _ =>
    (st.pool.object session).reading = true →
      if !((st.pool.object session).consumeRateLimitToken now).1 then
        st.roster.RemoveKeeps [session]
      else
        ∀ request, readObject json = some request →
          (typeField request = some .Logout → st.roster.LogoutKeeps session) ∧
          ∀ user, typeField request = some .Login →
            (admitted env request st.db).result = .ok (some user) →
              st.roster.LoginKeeps session (intField request "id" 0)
  | .readError session =>
    (st.pool.object session).reading = true → st.roster.RemoveKeeps [session]
  | .sweep now => st.roster.RemoveKeeps (st.pool.timedOut env now)

/-- Only a positive id is admitted. -/
theorem pos_of_admitted {env : Env} {request : Object} {db : Database} {user : UserInfo}
    (h : (admitted env request db).result = .ok (some user)) : 0 < intField request "id" 0 := by
  by_contra hpos
  simp only [admitted] at h
  rw [if_pos (Int32.not_lt.mp hpos)] at h
  cases h

theorem truthful_rosterAfter_iff {env : Env} {st : Server} (hk : Kept st.roster)
    (ht : st.roster.Truthful) (session : SessionId) (request : Object) :
    (rosterAfter env st session request).Truthful ↔
      (typeField request = some .Logout → st.roster.LogoutKeeps session) ∧
      ∀ user, typeField request = some .Login →
        (admitted env request st.db).result = .ok (some user) →
          st.roster.LoginKeeps session (intField request "id" 0) := by
  by_cases hlogin : typeField request = some .Login
  · simp only [hlogin, forall_const, reduceCtorEq, Option.some.injEq, false_implies, true_and]
    simp only [rosterAfter, hlogin]
    split
    · next user hadmitted =>
      rw [Roster.truthful_login_iff ht session (pos_of_admitted hadmitted)]
      exact ⟨fun h _ _ => h, fun h => h user hadmitted⟩
    · next hnot => exact iff_of_true ht fun user h => absurd h (hnot user)
  · by_cases hlogout : typeField request = some .Logout
    · simp only [hlogout, forall_const, reduceCtorEq, Option.some.injEq, false_implies,
        implies_true, and_true]
      simp only [rosterAfter, hlogout]
      exact Roster.truthful_logout_iff hk.indexed ht session
    · rw [rosterAfter_of_ne hlogin hlogout]
      exact iff_of_true ht ⟨fun h => absurd h hlogout, fun _ h => absurd h hlogin⟩

theorem truthful_step_iff {env : Env} {st st' : Server} {event : Event} (hk : Kept st.roster)
    (ht : PresenceTruthful st) (hstep : step env st event = some st') :
    PresenceTruthful st' ↔ KeepsPresence env st event := by
  have hself : ∀ st : Server, PresenceTruthful st ↔ st.roster.Truthful := fun _ => Iff.rfl
  have hremove : ∀ session, (st.roster.remove session).Truthful ↔ st.roster.RemoveKeeps [session] :=
    fun session => Roster.truthful_removeAll_iff [session] hk.indexed ht
  rw [hself, roster_step hstep]
  cases event with
  | accept now => exact iff_of_true (Roster.truthful_accept hk ht) trivial
  | frame session json now later =>
    simp only [rosterOf, KeepsPresence]
    cases hreading : (st.pool.object session).reading with
    | false => exact iff_of_true ht (by simp)
    | true =>
      simp only [Bool.not_true, Bool.false_eq_true, if_false, forall_const]
      split
      · exact hremove session
      · cases readObject json with
        | none => exact iff_of_true ht fun _ h => by cases h
        | some request =>
          simp only [Option.some.injEq, forall_eq']
          exact truthful_rosterAfter_iff hk ht session request
  | readError session =>
    simp only [rosterOf, KeepsPresence]
    cases hreading : (st.pool.object session).reading with
    | false => exact iff_of_true ht (by simp)
    | true =>
      simp only [if_true, forall_const]
      exact hremove session
  | sweep now => exact Roster.truthful_removeAll_iff _ hk.indexed ht

/-- Over a whole run, presence agrees with the pool exactly when every step
keeps it so. -/
theorem presence_iff_keepsPresence (env : Env) (db : Database) (events : List Event) :
    Throughout (step env) PresenceTruthful (.start db) events ↔
      Along (step env) (KeepsPresence env) (.start db) events := by
  refine throughout_iff_along (J := fun st => Kept st.roster) (fun _ _ _ hk h => hk.step h)
    (fun _ _ _ hk ht h => truthful_step_iff hk ht h) (kept_start db) (fun user h0 => ?_) events
  simp [Server.start, PresenceManager.isOnline, PresenceManager.empty, SessionPool.create]

/-- User 1000 registers, and logs in on sessions 1 and 2. -/
def doubleLogin : List Event :=
  [.accept 0, .accept 0,
    request 1 .RegisterUser [("nickname", text "a"), ("password", text "p")],
    request 1 .Login [("id", .int 1000), ("password", text "p")],
    request 2 .Login [("id", .int 1000), ("password", text "p")]]

/-- After session 1 is lost, the user is offline and logged in on session 2. -/
theorem presence_fails_on_reconnect :
    ¬∀ env db events, Throughout (step env) PresenceTruthful (.start db) events := by
  intro hall
  have hstate : ∃ st, run (step .ideal) (.boot .ideal .empty) (doubleLogin ++ [Event.readError 1]) =
      some st ∧ st.presence.isOnline 1000 = false ∧ 2 ∈ st.pool.sessions ∧ st.userId 2 = 1000 := by
    have hrun : ((run (step .ideal) (.boot .ideal .empty) (doubleLogin ++ [Event.readError 1])).map
        fun st => (st.presence.isOnline 1000, decide (2 ∈ st.pool.sessions), st.userId 2)) =
          some (false, true, 1000) := by
      decide +kernel
    obtain ⟨st, hst, heq⟩ := Option.map_eq_some_iff.mp hrun
    simp only [Prod.mk.injEq, decide_eq_true_eq] at heq
    exact ⟨st, hst, heq⟩
  obtain ⟨st, hst, hoff, hmem, huser⟩ := hstate
  have htruth := (hall .ideal _ _).last hst
  rw [(htruth 1000 (by decide)).mpr ⟨2, hmem, huser⟩] at hoff
  cases hoff

/-! ## Logout -/

/-- A logout that returns logs out the requester and no other session exactly
when the index names the requester's session for its user. -/
theorem logout_iff_indexed (env : Env) (db : Database) (events : List Event) (st : Server)
    (hrun : run (step env) (.start db) events = some st) (session : SessionId)
    (huser : st.userId session ≠ 0) (hok : (handleLogout env session st).result = .ok ()) :
    ((handleLogout env session st).state.userId session = 0 ∧
        ∀ other, other ≠ session →
          (handleLogout env session st).state.userId other = st.userId other) ↔
      st.pool.user_to_session (st.userId session) = some session := by
  have hi : st.pool.Indexed := SessionPool.indexed_bare.mp (kept_of_run hrun).indexed
  have hpos : 0 < st.userId session := hi.pos_of_ne huser
  have hroster : (handleLogout env session st).state.roster = st.roster.logout session :=
    ((@sat_handleLogout env st session [] (fun _ => True) st ⟨rfl, trivial⟩).2.1 ()
      hok)
  have hafter : ∀ t, (handleLogout env session st).state.userId t =
      if st.pool.user_to_session (st.userId session) = some t then 0 else st.userId t := by
    intro t
    have hbare : (handleLogout env session st).state.userId t =
        (st.roster.logout session).pool.userId t :=
      congrArg (fun r : Roster => r.pool.userId t) hroster
    have hunbind : (st.roster.logout session).pool = st.roster.pool.unbindUser (st.userId session) := by
      simp only [Roster.logout]
      rw [if_pos (show 0 < st.roster.pool.userId session from hpos)]
      rfl
    rw [hbare, hunbind]
    exact Roster.userId_unbindUser (SessionPool.indexed_bare.mpr hi) _ t
  simp only [hafter]
  constructor
  · rintro ⟨hself, -⟩
    by_contra hindex
    rw [if_neg hindex] at hself
    exact huser hself
  · intro hindex
    refine ⟨if_pos hindex, fun other hne => if_neg fun heq => ?_⟩
    exact hne (Option.some.inj (heq.symm.trans hindex))

/-- After the two logins: what a logout on either session does. -/
theorem doubleLogin_logouts :
    ∃ st, run (step .ideal) (.boot .ideal .empty) doubleLogin = some st ∧
      1 ∈ st.pool.sessions ∧ st.userId 1 ≠ 0 ∧ (handleLogout .ideal 1 st).result = .ok () ∧
      (handleLogout .ideal 1 st).state.userId 1 ≠ 0 ∧
      st.userId 2 ≠ 0 ∧ (handleLogout .ideal 2 st).result = .ok () := by
  have hrun : ((run (step .ideal) (.boot .ideal .empty) doubleLogin).map fun st =>
      (decide (1 ∈ st.pool.sessions), st.userId 1, (handleLogout .ideal 1 st).result.toBool,
        (handleLogout .ideal 1 st).state.userId 1, st.userId 2,
        (handleLogout .ideal 2 st).result.toBool)) =
      some (true, 1000, true, 1000, 1000, true) := by
    decide +kernel
  have hok : ∀ r : Except Exn Unit, r.toBool = true → r = .ok () := by
    rintro (e | u) h
    · cases h
    · rfl
  obtain ⟨st, hst, heq⟩ := Option.map_eq_some_iff.mp hrun
  simp only [Prod.mk.injEq, decide_eq_true_eq] at heq
  obtain ⟨hmem, h1, hok1, hstill, h2, hok2⟩ := heq
  exact ⟨st, hst, hmem, by rw [h1]; decide, hok _ hok1, by rw [hstill]; decide,
    by rw [h2]; decide, hok _ hok2⟩

/-- The user logs out on the session that logged in last. -/
theorem logout_iff_indexed_doubleLogin :
    ∃ st, run (step .ideal) (.boot .ideal .empty) doubleLogin = some st ∧
      (((handleLogout .ideal 2 st).state.userId 2 = 0 ∧
        ∀ other, other ≠ 2 → (handleLogout .ideal 2 st).state.userId other = st.userId other) ↔
      st.pool.user_to_session (st.userId 2) = some 2) := by
  obtain ⟨st, hst, -, -, -, -, h2, hok⟩ := doubleLogin_logouts
  exact ⟨st, hst, logout_iff_indexed .ideal _ doubleLogin st hst 2 h2 hok⟩

/-- The user logs out on session 1, and stays logged in there. -/
theorem logout_fails_on_first_session :
    ¬∀ env db events st, run (step env) (.start db) events = some st →
      ∀ session ∈ st.pool.sessions, st.userId session ≠ 0 →
        (handleLogout env session st).result = .ok () →
          (handleLogout env session st).state.userId session = 0 ∧
            ∀ other, other ≠ session →
              (handleLogout env session st).state.userId other = st.userId other := by
  intro hall
  obtain ⟨st, hst, hmem, h1, hok, hstill, -⟩ := doubleLogin_logouts
  exact hstill (hall _ _ _ st hst 1 hmem h1 hok).1

end TcpServer

end LanChat
