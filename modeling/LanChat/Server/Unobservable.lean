import LanChat.Server.Lookalike
import LanChat.Server.Restart

/-!
# What nobody can observe

A table in memory and the same table in the file make no difference to what the
server says, so a restart does not show (`restart_unobservable`). Neither do the
stored passwords, beyond the verdicts on logins (`passwords_unobservable`).
-/

namespace LanChat

open Lib Json

namespace Database

section Reopen

variable {env : Env} {rows : TableName → RowList} {db : Database}

/-- A server that reads its file again has the same rows, where none has a null character. -/
theorem alike_reopen (henv : env.Serves) (h : db.Holds rows)
    (hnul : ∀ name, ∀ row ∈ rows name, (Value.obj row).NulFree) : Alike False (reopen env db).state db := by
  obtain ⟨calls, hrun⟩ := run_reopen henv (by rw [h.docs]; rfl)
  have hclosed : Holds rows { db with sqlite := ⟨db.sqlite.file, none⟩, tables := fun _ => none, calls := calls } :=
    ⟨rfl, h.docs, nofun, fun name _ => hnul name, h.shape⟩
  obtain ⟨calls', hquery⟩ := run_queryAll henv hclosed .schema_version
  have hstate : (reopen env db).state = withTable
      { db with sqlite := ⟨db.sqlite.file, none⟩, tables := fun _ => none, calls := calls } .schema_version
      (rows .schema_version) calls' := by
    rw [hrun]
    unfold schemaVersion
    rw [bind_assoc, Cmd.bind_of_run _ hquery]
    cases rows .schema_version with
    | nil => rfl
    | cons row rest =>
      dsimp only
      cases atField row "version" <;> rfl
  rw [hstate]
  exact ⟨⟨rows, rows, hclosed.load _ _, h, h.same⟩, rfl, rfl, fun _ => rfl⟩

end Reopen

end Database

/-- The rows that a server holds, and who is connected and online. -/
def Server.kept (st : Server) :
    (TableName → RowList) × Option (List FriendshipRow) × SessionPool × PresenceManager :=
  (st.db.content, st.db.sqlite.file.friendships, st.pool, st.presence)

theorem Server.Alike.kept_eq {secret : Prop} {st st' : Server} (h : Server.Alike secret st st') (hsecret : ¬secret) :
    st.kept = st'.kept := by
  obtain ⟨rows, rows', hrows, hrows', hsame⟩ := h.db.rows
  have hcontent : st.db.content = st'.db.content := by
    funext name
    rw [hrows.content_eq, hrows'.content_eq, ← List.forall₂_eq_eq_eq (α := Row)]
    exact (hsame name).imp fun _ _ hrow => hrow.eq_of_not hsecret
  rw [kept, kept, hcontent, h.db.friendships, h.pool, h.presence]

namespace TcpServer

open Database

/-- Once the server has been restarted on its file, it says what the server
before would say, and keeps the same rows. -/
theorem restart_unobservable {env : Env} (henv : env.Serves) (hscan : env.ScansSteadily) {db : Database}
    (hdb : db.Stored) {st : Server} (hreach : Reachable env db st)
    (hnul : ∀ name, ∀ row ∈ st.db.content name, (Value.obj row).NulFree) (events : List Event) :
    handedOut env (.start (reopen env st.db).state) events = handedOut env (.start st.db) events ∧
      (run (step env) (.start (reopen env st.db).state) events).map Server.kept =
        (run (step env) (.start st.db) events).map Server.kept := by
  obtain ⟨rows, hrows⟩ := invariant_of_reachable (writes_stored henv) hdb hreach
  have halike : Server.Alike False (.start (reopen env st.db).state) (.start st.db) :=
    ⟨alike_reopen henv hrows fun name row hrow => hnul name row (hrows.content_eq name ▸ hrow), rfl, rfl, rfl⟩
  have hdecided : AlongBoth (step env) (step env) (fun st st' event => False → EventDecidedAlike env st st' event)
      (.start (reopen env st.db).state) (.start st.db) events := alongBoth_of_forall (fun _ _ _ h => h.elim) _ _ _
  obtain ⟨hout, hrun⟩ := twin_servers henv hscan halike hdecided
  refine ⟨hout, ?_⟩
  generalize run (step env) (.start (reopen env st.db).state) events = last at hrun
  generalize run (step env) (.start st.db) events = last' at hrun
  cases hrun with
  | none => rfl
  | some halike => exact congrArg some (halike.kept_eq id)

/-- A database with one user, whose password has this hash. -/
def oneUser (hash : Bytes) : Database :=
  (insert .ideal .users (UserRepository.newUserRow 1000 hash [97] 0 0) (startUp .ideal (connect .empty)).state).state

theorem stored_oneUser (hash : Bytes) : (oneUser hash).Stored := by
  obtain ⟨rows, hrows⟩ := stored_startUp serves_ideal
  obtain ⟨calls, hrun⟩ := run_insert serves_ideal hrows .users (UserRepository.newUserRow 1000 hash [97] 0 0)
  unfold oneUser
  rw [hrun]
  refine ⟨_, hrows.store (fun row hrow => ?_) calls⟩
  rcases List.mem_append.mp hrow with hrow | hrow
  · exact hrows.shape .users row hrow
  · rw [List.mem_singleton.mp hrow]
    exact newUserRow_shape _ _ _ _ _

theorem nulFree_object {fields : List (String × Value)} (h : ∀ field ∈ fields, 0 ∉ lit field.1 ∧ field.2.NulFree) :
    (Value.obj (object fields)).NulFree := by
  induction fields using List.reverseRecOn with
  | nil => exact .obj nofun nofun
  | append_singleton fields field ih =>
    rw [object, List.foldl_append]
    obtain ⟨hkey, hvalue⟩ := h field (List.mem_append_right _ List.mem_cons_self)
    exact nulFree_put (ih fun f hf => h f (List.mem_append_left _ hf)) hkey hvalue

/-- The user logs in after the restart. -/
theorem restart_unobservable_login :
    ∃ st, Reachable .ideal (oneUser (lit "$2b$p")) st ∧
      let events := [.accept 0, request 1 .Login [("id", .int 1000), ("password", text "p")]]
      handedOut .ideal (.start (reopen .ideal st.db).state) events = handedOut .ideal (.start st.db) events ∧
        (run (step .ideal) (.start (reopen .ideal st.db).state) events).map Server.kept =
          (run (step .ideal) (.start st.db) events).map Server.kept := by
  refine ⟨.start (oneUser (lit "$2b$p")), ⟨[], rfl⟩, restart_unobservable serves_ideal (fun _ _ => rfl) (stored_oneUser _)
    ⟨[], rfl⟩ (fun name row hrow => ?_) _⟩
  have hcontent : ∀ name, (oneUser (lit "$2b$p")).content name =
      if name = .schema_version then [versionRow 1]
      else if name = .users then [UserRepository.newUserRow 1000 (lit "$2b$p") [97] 0 0] else [] := by
    rintro (_ | _ | _ | _ | _) <;> rfl
  change row ∈ (oneUser (lit "$2b$p")).content name at hrow
  rw [hcontent] at hrow
  split at hrow
  · rw [List.mem_singleton.mp hrow]
    refine nulFree_object ?_
    simp only [List.mem_singleton, forall_eq]
    exact ⟨by decide, .int _⟩
  split at hrow
  · rw [List.mem_singleton.mp hrow]
    refine nulFree_object ?_
    simp only [List.mem_cons, List.not_mem_nil, or_false, forall_eq_or_imp, forall_eq]
    exact ⟨⟨by decide, .int _⟩, ⟨by decide, .str (by decide)⟩, ⟨by decide, .int _⟩, ⟨by decide, .str (by decide)⟩,
      ⟨by decide, .int _⟩, ⟨by decide, .int _⟩, ⟨by decide, .int _⟩, by decide, .int _⟩
  · cases hrow

/-! ## Stored passwords -/

/-- Two servers whose databases differ in the passwords only, and that decide
the logins alike, hand out the same. -/
theorem passwords_unobservable {env : Env} (henv : env.Serves) (hscan : env.ScansSteadily) {db db' : Database}
    (h : Alike True db db') {events : List Event}
    (hlogins : AlongBoth (step env) (step env) (EventDecidedAlike env) (.start db) (.start db') events) :
    handedOut env (.start db) events = handedOut env (.start db') events := by
  have halike : Server.Alike True (.start db) (.start db') := ⟨h, rfl, rfl, rfl⟩
  exact (twin_servers henv hscan halike (hlogins.imp fun _ _ _ h _ => h)).1

theorem alike_oneUser (hash hash' : Bytes) : Alike True (oneUser hash) (oneUser hash') := by
  obtain ⟨rows, hrows⟩ := stored_startUp serves_ideal
  have hsame : Alike True (startUp .ideal (connect .empty)).state (startUp .ideal (connect .empty)).state :=
    ⟨⟨rows, rows, hrows, hrows, hrows.same⟩, rfl, rfl, fun _ => rfl⟩
  have hrow : SameRow True .users (UserRepository.newUserRow 1000 hash [97] 0 0)
      (UserRepository.newUserRow 1000 hash' [97] 0 0) :=
    UserRepository.newUserRow_same 1000 [97] 0 0 fun h => absurd trivial h
  have hinsert := agree_insert serves_ideal hrow
  obtain ⟨-, hends⟩ := hinsert _ _ hsame
  unfold oneUser
  generalize (insert .ideal .users (UserRepository.newUserRow 1000 hash [97] 0 0) _).result = r at hends
  generalize (insert .ideal .users (UserRepository.newUserRow 1000 hash' [97] 0 0) _).result = r' at hends
  cases hends with
  | ok h => exact h.2
  | error h => exact h

/-- The password of the first user is guessed, and another user logs in. -/
def guessing : List Event :=
  [.accept 0, request 1 .Login [("id", .int 1000), ("password", text "guess")],
    request 1 .RegisterUser [("nickname", text "b"), ("password", text "r")],
    request 1 .Login [("id", .int 1001), ("password", text "r")]]

theorem passwords_unobservable_guessing :
    (handedOut .ideal (.start (oneUser (lit "$2b$p"))) guessing).length = 3 ∧
      handedOut .ideal (.start (oneUser (lit "$2b$p"))) guessing =
        handedOut .ideal (.start (oneUser (lit "$2b$q"))) guessing :=
  ⟨by decide +kernel, passwords_unobservable serves_ideal (fun _ _ => rfl) (alike_oneUser _ _) (by decide +kernel)⟩

end TcpServer

end LanChat
