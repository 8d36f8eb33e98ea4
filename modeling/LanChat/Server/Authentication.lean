import LanChat.Server.ChangeNotices
import LanChat.Server.Passwords

/-!
# How a session comes by its user

Nothing but an accepted login of the session itself gives it a user, and the
login has shown a password that the repository accepts at that moment
(`authenticated_since`). When the password of a user is set, a session that
carries the user from then on has shown this password (`authenticated_by_password`).
-/

namespace LanChat

open Lib Json

namespace TcpServer

open Database UserRepository MessageRouter

/-- The event is a login of the session as the user, with a password that the
repository accepts. -/
inductive LogsIn (env : Env) (st : Server) (session : SessionId) (user : Int32) (password : Bytes) : Event → Prop
  | login {json : Bytes} {now later : Int} {request : Object} :
    Handled st session now → readObject json = some request → typeField request = some .Login →
    intField request "id" 0 = user → 0 < user → stringField request "password" [] = password →
    (verifyPassword env user password st.db).result = .ok true →
    LogsIn env st session user password (.frame session json now later)

section Steps

variable {env : Env} {st st' : Server} {event : Event} {session t : SessionId} {request : Object}

/-- A login is accepted only if the password is. -/
theorem verified_of_admitted {user : UserInfo} (h : (admitted env request st.db).result = .ok (some user)) :
    0 < intField request "id" 0 ∧
      (verifyPassword env (intField request "id" 0) (stringField request "password" []) st.db).result = .ok true := by
  simp only [admitted] at h
  split at h
  · cases h
  next hpos =>
  obtain ⟨verified, hverified, hfound⟩ := Cmd.result_bind_eq_ok.mp h
  cases verified with
  | false => cases hfound
  | true => exact ⟨Int32.not_le.mp hpos, hverified⟩

/-- A request changes the user of a session to nobody, or logs it in. -/
theorem user_rosterAfter :
    (rosterAfter env st session request).pool.userId t = st.userId t ∨
      (rosterAfter env st session request).pool.userId t = 0 ∨
      typeField request = some .Login ∧ t = session ∧
        (rosterAfter env st session request).pool.userId t = intField request "id" 0 ∧
        ∃ user, (admitted env request st.db).result = .ok (some user) := by
  unfold rosterAfter
  split
  · next htype =>
    split
    · next user hadmitted =>
      by_cases hrefused : session ∉ st.roster.pool.sessions ∨ intField request "id" 0 ≤ 0
      · rw [Roster.login, SessionPool.bindUser_of_refused _ _ _ hrefused]
        exact .inl rfl
      · rw [not_or, not_not, Int32.not_le] at hrefused
        rw [Roster.login, SessionPool.userId_bindUser _ _ _ hrefused.1 hrefused.2]
        split
        · next ht => exact .inr (.inr ⟨htype, ht, rfl, user, hadmitted⟩)
        · exact .inl rfl
    · exact .inl rfl
  · simp only [Roster.logout]
    split
    · exact (userId_unbindUser_or _ _ t).elim (fun h => .inr (.inl h)) .inl
    · exact .inl rfl
  · exact .inl rfl

/-- A step leaves the user of a session, takes it away, or logs the session in. -/
theorem user_step (hstep : step env st event = some st') :
    st'.userId t = st.userId t ∨ st'.userId t = 0 ∨ ∃ password, LogsIn env st t (st'.userId t) password event := by
  have huser : st'.userId t = (rosterOf env st event).pool.userId t :=
    congrArg (fun r : Roster => r.pool.userId t) (roster_step hstep)
  rw [huser]
  cases event with
  | accept now =>
    simp only [rosterOf, Roster.accept, SessionPool.userId_add, SessionPool.userId_setUserId]
    split
    · exact .inr (.inl rfl)
    · exact .inl rfl
  | frame session json now later =>
    simp only [rosterOf]
    split
    · exact .inl rfl
    next hreading =>
    split
    · exact .inl (Roster.userId_removeAll [session] t)
    next hgranted =>
    split
    · exact .inl rfl
    next request hparse =>
    rcases @user_rosterAfter env st session t request with h | h | ⟨htype, rfl, huid, user, hadmitted⟩
    · exact .inl h
    · exact .inr (.inl h)
    · obtain ⟨hpos, hverified⟩ := verified_of_admitted hadmitted
      rw [huid]
      exact .inr (.inr ⟨_, .login ⟨by simpa using hreading, by simpa using hgranted⟩ hparse htype rfl hpos rfl hverified⟩)
  | readError session =>
    simp only [rosterOf]
    split
    · exact .inl (Roster.userId_removeAll [session] t)
    · exact .inl rfl
  | sweep now => exact .inl (Roster.userId_removeAll _ t)

end Steps

section Runs

variable {env : Env} {db : Database} {st st₁ st₂ : Server} {event : Event} {events : List Event} {session : SessionId}
  {id : Int32} {password : Bytes}

/-- A session that has come to carry a user has logged in as this user, and has carried
the user ever since. -/
theorem loggedIn_since {s : Server} (hstart : s.userId session ≠ id) (hid : id ≠ 0)
    (hrun : run (step env) s events = some st) (huser : st.userId session = id) :
    Since (step env) (fun _ t e => ∃ password, LogsIn env t session id password e)
      (fun _ _ t' => t'.userId session = id) s events := by
  refine history_run (I := fun _ => True) (P := fun es t => t.userId session = id →
    Since (step env) (fun _ t e => ∃ password, LogsIn env t session id password e)
      (fun _ _ t' => t'.userId session = id) s es) (fun h => absurd h hstart) ?_
    (throughout_of_step (fun _ _ _ _ _ => trivial) trivial events) hrun huser
  intro es t e t' hrun _ ih hstep hnew
  rcases @user_step env t t' e session hstep with hsame | hnone | ⟨password, hlogin⟩
  · exact (ih (hsame.symm.trans hnew)).concat hrun fun u hu => by
      cases hstep.symm.trans hu
      exact hnew
  · exact absurd (hnew.symm.trans hnone) hid
  · rw [hnew] at hlogin
    exact since_concat hrun hstep ⟨password, hlogin⟩ hnew

/-- In every run a session that carries a user has logged in as this user with a
password that was accepted then, and has carried the user ever since. -/
theorem authenticated_since (hrun : run (step env) (.start db) events = some st) (huser : st.userId session ≠ 0) :
    Since (step env) (fun _ t e => ∃ password, LogsIn env t session (st.userId session) password e)
      (fun _ _ t' => t'.userId session = st.userId session) (.start db) events :=
  loggedIn_since (fun h => huser h.symm) huser hrun rfl

/-- Once the password of a user has been set, a session that comes to carry the
user has logged in with this password, as a C string. -/
theorem authenticated_by_password (hideal : IdealCrypt env) (hsets : SetsPassword env st id password event)
    (hstep : step env st event = some st₁) (hrun : run (step env) st₁ events = some st₂)
    (hbefore : st₁.userId session ≠ id) (hafter : st₂.userId session = id) :
    Since (step env) (fun _ t e => ∃ shown, cstr shown = cstr password ∧ LogsIn env t session id shown e)
      (fun _ _ t' => t'.userId session = id) st₁ events := by
  have hpos : 0 < id := by
    cases hsets with
    | register _ _ _ _ _ _ _ _ _ _ _ hpos _ => exact hpos
    | upgrade _ _ _ _ hpos _ _ _ => exact hpos
  have hne : id ≠ 0 := by
    rintro rfl
    exact absurd hpos (by decide)
  obtain ⟨es, e, fs, t, t', rfl, hes, he, ⟨shown, hlogin⟩, hcarries, hfs⟩ := loggedIn_since hbefore hne hrun hafter
  refine ⟨es, e, fs, t, t', rfl, hes, he, ⟨shown, ?_, hlogin⟩, hcarries, hfs⟩
  have hcompared := verifyPassword_of_sets hideal hsets hstep hes shown
  cases hlogin with
  | login _ _ _ _ _ _ hverified =>
    rw [hverified, Except.ok.injEq] at hcompared
    exact of_decide_eq_true hcompared.symm

end Runs

/-! ## A registration and a login -/

/-- The user 1000 logs in. -/
def firstLogin : Event := request 1 .Login [("id", .int 1000), ("password", text "a")]

theorem run_firstLogin : ∃ st st₁ st₂, run (step .ideal) (.boot .ideal .empty) [.accept 0] = some st ∧
    SetsPassword .ideal st 1000 [97, 0, 98] zeroByte ∧ step .ideal st zeroByte = some st₁ ∧
    run (step .ideal) st₁ [firstLogin] = some st₂ ∧ st₁.userId 1 = 0 ∧ st₂.userId 1 = 1000 := by
  obtain ⟨st, st₁, hrun, hsets, hstep⟩ := sets_zeroByte
  have hlogin : (run (step .ideal) (.boot .ideal .empty) [.accept 0]).map (fun st =>
      (step .ideal st zeroByte).map fun st₁ => (st₁.userId 1, (run (step .ideal) st₁ [firstLogin]).map fun st₂ =>
        st₂.userId 1)) = some (some (0, some 1000)) := by
    decide +kernel
  rw [hrun, Option.map_some, hstep, Option.map_some, Option.some.injEq, Option.some.injEq, Prod.mk.injEq] at hlogin
  obtain ⟨hnobody, hsome⟩ := hlogin
  obtain ⟨st₂, hst₂, huser⟩ := Option.map_eq_some_iff.mp hsome
  exact ⟨st, st₁, st₂, hrun, hsets, hstep, hst₂, hnobody, huser⟩

theorem run_registered : ∃ st, run (step .ideal) (.boot .ideal .empty) [.accept 0, zeroByte, firstLogin] = some st ∧
    st.userId 1 = 1000 := by
  obtain ⟨st, st₁, st₂, hrun, -, hstep, hlogin, -, huser⟩ := run_firstLogin
  refine ⟨st₂, ?_, huser⟩
  rw [show [Event.accept 0, zeroByte, firstLogin] = [.accept 0] ++ [zeroByte, firstLogin] from rfl, run_append, hrun]
  exact run_cons_eq_some.mpr ⟨st₁, hstep, hlogin⟩

theorem authenticated_since_firstLogin : ∃ st, run (step .ideal) (.boot .ideal .empty) [.accept 0, zeroByte, firstLogin] = some st ∧
    Since (step .ideal) (fun _ t e => ∃ password, LogsIn .ideal t 1 (st.userId 1) password e)
      (fun _ _ t' => t'.userId 1 = st.userId 1) (.boot .ideal .empty) [.accept 0, zeroByte, firstLogin] := by
  obtain ⟨st, hrun, huser⟩ := run_registered
  exact ⟨st, hrun, authenticated_since hrun (by rw [huser]; decide)⟩

theorem authenticated_by_password_firstLogin : ∃ st₁ st₂, run (step .ideal) st₁ [firstLogin] = some st₂ ∧
    Since (step .ideal) (fun _ t e => ∃ shown, cstr shown = cstr [97, 0, 98] ∧ LogsIn .ideal t 1 1000 shown e)
      (fun _ _ t' => t'.userId 1 = 1000) st₁ [firstLogin] := by
  obtain ⟨st, st₁, st₂, -, hsets, hstep, hlogin, hnobody, huser⟩ := run_firstLogin
  exact ⟨st₁, st₂, hlogin, authenticated_by_password idealCrypt_ideal hsets hstep hlogin (by rw [hnobody]; decide) huser⟩

end TcpServer

end LanChat
