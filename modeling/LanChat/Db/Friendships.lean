import LanChat.Db.Access

/-!
# What becomes of the friendships

The operations on the document tables leave `friendships` alone, also when a
transaction is opened, committed or rolled back (`FriendsShow`). Outside a
transaction each friendship operation either changes nothing or reports that it
has changed something (`Altered`).
-/

namespace LanChat

open Lib Json

namespace Database

open Cmd

/-- The friendships meet `P`, in the file and in the open transaction. -/
def FriendsShow (P : List FriendshipRow → Prop) (db : Database) : Prop :=
  P (db.sqlite.file.friendships.getD []) ∧
    ∀ c, db.sqlite.transaction = some c → P (c.friendships.getD [])

/-- The friendships that the connection sees. -/
def friendRows (db : Database) : List FriendshipRow := db.sqlite.view.friendships.getD []

section Frames

variable {env : Env} {P : List FriendshipRow → Prop} {name : TableName} {α : Type} {c : DbM α}
  {db : Database}

theorem FriendsShow.view (h : FriendsShow P db) : P db.friendRows := by
  unfold friendRows Sqlite.view
  cases ht : db.sqlite.transaction with
  | none => exact h.1
  | some t => exact h.2 t ht

theorem friendsShow_of_idle (hidle : db.sqlite.transaction = none) (h : P db.friendRows) :
    FriendsShow P db := by
  unfold friendRows Sqlite.view at h
  rw [hidle] at h
  exact ⟨h, fun c hc => by rw [hidle] at hc; cases hc⟩

theorem keeps_of_leaves_sqlite (h : Leaves (fun db => db.sqlite) c) :
    Keeps (FriendsShow P) (fun _ => True) c :=
  keeps_iff.mpr fun db hdb => ⟨by
    unfold FriendsShow
    rw [show (c db).state.sqlite = db.sqlite from h db]
    exact hdb, fun w => w.elim⟩

theorem keeps_exec {statement : Sqlite → Option Sqlite} (h : ∀ db s, FriendsShow P db →
    statement db.sqlite = some s → FriendsShow P { db with sqlite := s }) :
    Keeps (FriendsShow P) (fun _ => True) (exec env statement) :=
  keeps_iff.mpr fun db hdb => by
    obtain ⟨s, hs, hrun⟩ | hrun := @exec_cases env statement db
    · rw [hrun]
      exact ⟨h db s hdb hs, nofun⟩
    · rw [hrun]
      exact ⟨hdb, nofun⟩

theorem keeps_begin : Keeps (FriendsShow P) (fun _ => True) (exec env Sqlite.begin) :=
  keeps_exec fun db s hdb hs => by
    unfold Sqlite.begin at hs
    split at hs
    · cases hs
      exact ⟨hdb.1, fun c hc => by cases hc; exact hdb.1⟩
    · cases hs

theorem keeps_commit : Keeps (FriendsShow P) (fun _ => True) (exec env Sqlite.commit) :=
  keeps_exec fun db s hdb hs => by
    obtain ⟨c, hc, rfl⟩ := Option.map_eq_some_iff.mp hs
    exact ⟨hdb.2 c hc, nofun⟩

theorem keeps_rollback : Keeps (FriendsShow P) (fun _ => True) (exec env Sqlite.rollback) :=
  keeps_exec fun db s hdb hs => by
    obtain ⟨c, -, rfl⟩ := Option.map_eq_some_iff.mp hs
    exact ⟨hdb.1, nofun⟩

/-- A statement on a document table. -/
theorem keeps_write {change : Content → Option Content}
    (hchange : ∀ c c', change c = some c' → c'.friendships = c.friendships) :
    Keeps (FriendsShow P) (fun _ => True) (exec env (Sqlite.write change)) :=
  keeps_exec fun db s hdb hs => by
    unfold Sqlite.write at hs
    unfold FriendsShow at hdb ⊢
    split at hs
    · obtain ⟨c, hc, rfl⟩ := Option.map_eq_some_iff.mp hs
      exact ⟨by rw [hchange _ _ hc]; exact hdb.1, nofun⟩
    · next t ht =>
      obtain ⟨c, hc, rfl⟩ := Option.map_eq_some_iff.mp hs
      exact ⟨hdb.1, fun c' hc' => by cases hc'; rw [hchange _ _ hc]; exact hdb.2 t ht⟩

theorem keeps_insertRows (rows : RowList) :
    Keeps (FriendsShow P) (fun _ => True) (insertRows env name rows) := by
  have hprepare : Keeps (FriendsShow P) (fun _ => True) (prepare env name) :=
    keeps_of_leaves_sqlite fun _ => rfl
  refine keeps_bind hprepare fun _ => keeps_ite (fun _ => keeps_each fun row _ => ?_) fun _ => keeps_pure ()
  refine keeps_bind (keeps_write fun c c' hc => ?_) fun _ => keeps_pure ()
  obtain ⟨texts, -, rfl⟩ := Option.map_eq_some_iff.mp hc
  rfl

theorem keeps_friends_saveTable : Keeps (FriendsShow P) (fun _ => True) (saveTable env name) := by
  refine keeps_bind (keeps_asks _) fun cached => ?_
  cases cached with
  | none => exact keeps_pure ()
  | some rows =>
    refine keeps_bind keeps_begin fun _ => keeps_bind (keeps_write fun c c' hc => ?_) fun _ =>
      keeps_ite (fun _ => keeps_bind (keeps_insertRows rows) fun _ => keeps_bind keeps_commit fun _ =>
        keeps_pure ()) fun _ => keeps_bind keeps_rollback fun _ => keeps_pure ()
    obtain ⟨texts, -, rfl⟩ := Option.map_eq_some_iff.mp hc
    rfl

theorem keeps_load : Keeps (FriendsShow P) (fun _ => True) (loadTable env name) :=
  keeps_of_leaves_sqlite (leaves_sqlite_loadTable name)

theorem keeps_friends_setTable (rows : RowList) :
    Keeps (FriendsShow P) (fun _ => True) (setTable name rows) :=
  keeps_of_leaves_sqlite fun _ => rfl

theorem reads_friends (env : Env) (P : List FriendshipRow → Prop) :
    Reads env (fun _ _ => True) (FriendsShow P) (FriendsShow P) where
  counters _ _ _ _ h := h
  load _ := keeps_load.post fun _ _ h => ⟨h, fun _ _ => trivial⟩
  users := .inr fun _ h => h
  thrown _ h := h

theorem writesTo_friends (env : Env) (P : List FriendshipRow → Prop) (name : TableName) :
    WritesTo env (fun _ _ => True) (FriendsShow P) (FriendsShow P) name where
  shape _ _ := trivial
  put _ _ _ _ _ := trivial
  insert _ _ := keeps_bind keeps_load fun _ => keeps_bind (keeps_asks _) fun _ =>
    keeps_bind (keeps_friends_setTable _) fun _ => keeps_friends_saveTable
  update _ _ _ _ := keeps_bind keeps_load fun _ => keeps_bind (keeps_asks _) fun _ =>
    keeps_bind (keeps_friends_setTable _) fun _ => keeps_bind (keeps_ofExcept _) fun _ =>
      keeps_bind keeps_friends_saveTable fun _ => keeps_pure _
  remove _ := keeps_bind keeps_load fun _ => keeps_bind (keeps_asks _) fun _ =>
    keeps_bind (keeps_friends_setTable _) fun _ => keeps_bind keeps_friends_saveTable fun _ =>
      keeps_pure _

end Frames

/-! ## Friendship operations outside a transaction -/

/-- No transaction is open. -/
def Idle (db : Database) : Prop := db.sqlite.transaction = none

/-- The command returns, and opens no transaction. Either it returns `false` and
leaves the friendships as they are, or it returns `true` and `A` says what it does. -/
def Alters (A : List FriendshipRow → List FriendshipRow → Prop) (c : DbM Bool) (db : Database) : Prop :=
  ∃ b db', c db = ⟨.ok b, db', []⟩ ∧ db'.Idle ∧
    (b = false ∧ db'.friendRows = db.friendRows ∨ b = true ∧ A db.friendRows db'.friendRows)

/-- The command returns, and leaves the file and the transaction alone. -/
def Silent {α : Type} (c : DbM α) : Prop :=
  ∀ db, ∃ a db', c db = ⟨.ok a, db', []⟩ ∧ db'.sqlite = db.sqlite

section Alters

variable {env : Env} {A B : List FriendshipRow → List FriendshipRow → Prop} {α : Type} {db db' : Database}

theorem friendRows_of_sqlite (h : db'.sqlite = db.sqlite) : db'.friendRows = db.friendRows := by
  rw [friendRows, friendRows, h]

theorem Idle.of_sqlite (hidle : db.Idle) (h : db'.sqlite = db.sqlite) : db'.Idle := by
  rw [Idle, h]
  exact hidle

theorem alters_false (hidle : db.Idle) : Alters A (pure false) db :=
  ⟨false, db, rfl, hidle, .inl ⟨rfl, rfl⟩⟩

theorem Alters.imp {c : DbM Bool} (h : Alters A c db) (hAB : ∀ {rows rows'}, A rows rows' → B rows rows') :
    Alters B c db := by
  obtain ⟨b, db', hrun, hidle, hrows⟩ := h
  exact ⟨b, db', hrun, hidle, hrows.imp id fun h => ⟨h.1, hAB h.2⟩⟩

theorem alters_bind {c : DbM α} {f : α → DbM Bool} (hc : Silent c)
    (hf : ∀ a db', db'.sqlite = db.sqlite → Alters A (f a) db') : Alters A (c >>= f) db := by
  obtain ⟨a, db₁, hrun, hsqlite⟩ := hc db
  obtain ⟨b, db₂, hrun', hidle, hrows⟩ := hf a db₁ hsqlite
  refine ⟨b, db₂, (bind_of_run f hrun).trans hrun', hidle, ?_⟩
  rwa [friendRows_of_sqlite hsqlite] at hrows

theorem silent_prepareFriendships : Silent (FriendRepository.prepareFriendships env) := fun _ =>
  ⟨_, _, rfl, rfl⟩

theorem silent_now : Silent (FriendRepository.now env) := fun _ => ⟨_, _, rfl, rfl⟩

theorem silent_selectOne (p : FriendshipRow → Bool) : Silent (FriendRepository.selectOne env p) :=
  fun _ => ⟨_, _, rfl, rfl⟩

/-- A statement on the friendships outside a transaction takes effect in the
file, or not at all. -/
theorem exec_write_cases {env : Env} {db : Database} (hidle : db.Idle) (change : Content → Option Content) :
    (∃ c db', change db.sqlite.file = some c ∧
      exec env (Sqlite.write change) db = ⟨.ok true, db', []⟩ ∧ db'.Idle ∧
      db'.friendRows = c.friendships.getD []) ∨
    ∃ db', exec env (Sqlite.write change) db = ⟨.ok false, db', []⟩ ∧ db'.sqlite = db.sqlite := by
  obtain ⟨s, hs, hrun⟩ | hrun := @exec_cases env (Sqlite.write change) db
  · refine .inl ?_
    rw [Idle] at hidle
    simp only [Sqlite.write, hidle] at hs
    obtain ⟨c, hc, rfl⟩ := Option.map_eq_some_iff.mp hs
    exact ⟨c, _, hc, hrun, rfl, rfl⟩
  · exact .inr ⟨_, hrun, rfl⟩

theorem friendRows_of_idle (hidle : db.Idle) : db.friendRows = db.sqlite.file.friendships.getD [] := by
  rw [Idle] at hidle
  rw [friendRows, Sqlite.view, hidle]
  rfl

/-! ### As long as SQLite serves, no transaction stays open -/

theorem idle_saveTable (henv : env.Serves) (hidle : db.Idle) (name : TableName) :
    (saveTable env name db).state.Idle := by
  cases hmem : db.tables name with
  | none =>
    unfold saveTable
    rw [bind_of_run _ (asks_apply ..)]
    simp only [hmem]
    exact hidle
  | some rows =>
    cases hdocs : db.sqlite.file.docs name with
    | some texts =>
      obtain ⟨calls, hrun⟩ := run_saveTable henv hidle (by rw [hdocs]; rfl) hmem
      rw [hrun]
      rfl
    | none =>
      have hbegin : Sqlite.begin db.sqlite = some ⟨db.sqlite.file, some db.sqlite.file⟩ := by
        rw [Idle] at hidle
        simp [Sqlite.begin, hidle]
      have hclear : Sqlite.write (Content.deleteAll name) ⟨db.sqlite.file, some db.sqlite.file⟩ = none := by
        simp [Sqlite.write, Content.deleteAll, hdocs]
      have hrollback : Sqlite.rollback ⟨db.sqlite.file, some db.sqlite.file⟩ =
          some ⟨db.sqlite.file, none⟩ := rfl
      unfold saveTable
      rw [bind_of_run _ (asks_apply ..)]
      simp only [hmem]
      rw [bind_of_run _ (run_exec henv hbegin), bind_of_run _ (run_exec_none hclear)]
      simp only [Bool.false_eq_true, if_false]
      rw [bind_of_run _ (run_exec henv hrollback)]
      rfl

theorem keeps_idle {c : DbM α} (h : Leaves (fun db => db.sqlite) c) : Keeps Idle (fun _ => True) c :=
  keeps_iff.mpr fun db hdb => ⟨hdb.of_sqlite (h db), fun w => w.elim⟩

theorem writes_idle (henv : env.Serves) : Writes env (fun _ _ => True) Idle Idle where
  counters _ _ _ _ h := h
  load name := (keeps_idle (leaves_sqlite_loadTable name)).post fun _ _ h => ⟨h, fun _ _ => trivial⟩
  users := .inr fun _ h => h
  thrown _ h := h
  shape _ _ _ := trivial
  put _ _ _ _ _ _ := trivial
  insert name _ _ := keeps_bind (keeps_idle (leaves_sqlite_loadTable name)) fun _ =>
    keeps_bind (keeps_asks _) fun _ => keeps_bind (keeps_idle fun _ => rfl) fun _ =>
      keeps_iff.mpr fun _ hdb => ⟨idle_saveTable henv hdb name, nofun⟩
  update name _ _ _ _ := keeps_bind (keeps_idle (leaves_sqlite_loadTable name)) fun _ =>
    keeps_bind (keeps_asks _) fun _ => keeps_bind (keeps_idle fun _ => rfl) fun _ =>
      keeps_bind (keeps_ofExcept _) fun _ =>
        keeps_bind (keeps_iff.mpr fun _ hdb => ⟨idle_saveTable henv hdb name, nofun⟩) fun _ => keeps_pure _
  remove name _ := keeps_bind (keeps_idle (leaves_sqlite_loadTable name)) fun _ =>
    keeps_bind (keeps_asks _) fun _ => keeps_bind (keeps_idle fun _ => rfl) fun _ =>
      keeps_bind (keeps_iff.mpr fun _ hdb => ⟨idle_saveTable henv hdb name, nofun⟩) fun _ => keeps_pure _
  friendships change _ := keeps_iff.mpr fun db hdb => by
    obtain ⟨c, db', -, hrun, hidle, -⟩ | ⟨db', hrun, hsqlite⟩ := @exec_write_cases env db hdb change
    · rw [hrun]
      exact ⟨hidle, nofun⟩
    · rw [hrun]
      exact ⟨hdb.of_sqlite hsqlite, nofun⟩

end Alters

end Database

namespace FriendRepository

open Database

section Alters

variable {env : Env} {db : Database}

/-- The rows after an `UPDATE`. -/
def updated (p : FriendshipRow → Bool) (u : FriendshipRow → FriendshipRow) (rows : List FriendshipRow) :
    List FriendshipRow := rows.map fun r => if p r then u r else r

theorem updated_of_none {p : FriendshipRow → Bool} {u : FriendshipRow → FriendshipRow}
    {rows : List FriendshipRow} (h : rows.any p = false) : updated p u rows = rows := by
  rw [List.any_eq_false] at h
  exact (List.map_congr_left fun r hr => if_neg (h r hr)).trans (List.map_id rows)

/-- The rows after an `UPDATE` that finds some row. -/
def Updated (p : FriendshipRow → Bool) (u : FriendshipRow → FriendshipRow)
    (rows rows' : List FriendshipRow) : Prop :=
  rows.any p = true ∧ rows' = updated p u rows

theorem alters_updateWhere (hidle : db.Idle) (p : FriendshipRow → Bool)
    (u : FriendshipRow → FriendshipRow) :
    Alters (Updated p u) (updateWhere env p u) db := by
  refine alters_bind silent_prepareFriendships fun prepared db₁ hdb₁ => ?_
  have hidle₁ := hidle.of_sqlite hdb₁
  cases prepared with
  | false => exact alters_false hidle₁
  | true =>
    simp only [Bool.not_true, Bool.false_eq_true, if_false]
    have hasks : (Cmd.asks (fun db => (db.sqlite.view.friendships.getD []).any p) : DbM Bool) db₁ =
        ⟨.ok (db₁.friendRows.any p), db₁, []⟩ := rfl
    unfold Alters
    rw [Cmd.bind_of_run _ hasks]
    obtain ⟨c, db₂, hc, hrun, hidle₂, hrows⟩ | ⟨db₂, hrun, hsqlite⟩ :=
      @exec_write_cases env _ hidle₁ (Content.updateFriendships p u)
    · rw [Cmd.bind_of_run _ hrun]
      refine ⟨_, _, rfl, hidle₂, ?_⟩
      obtain ⟨rows, hfile, rfl⟩ := Option.map_eq_some_iff.mp hc
      have hupdated : db₂.friendRows = updated p u db₁.friendRows := by
        rw [hrows, friendRows_of_idle hidle₁, hfile]
        rfl
      rw [hupdated, Bool.true_and]
      cases hany : db₁.friendRows.any p with
      | false => exact .inl ⟨rfl, updated_of_none hany⟩
      | true => exact .inr ⟨rfl, hany, rfl⟩
    · rw [Cmd.bind_of_run _ hrun]
      exact ⟨_, _, rfl, hidle₁.of_sqlite hsqlite, .inl ⟨rfl, friendRows_of_sqlite hsqlite⟩⟩

/-- A request that is new: there is no other in this direction. -/
def Inserted (fromUid toUid : Int32) (rows rows' : List FriendshipRow) : Prop :=
  (∀ r ∈ rows, isPair fromUid toUid r = false) ∧ ∃ row : FriendshipRow, row.from_uid = fromUid ∧
    row.to_uid = toUid ∧ row.status = .pending ∧ rows' = rows ++ [row]

theorem alters_insertRequest (hidle : db.Idle) (fromUid toUid : Int32) (requestMsg : Bytes) (at_ : Int32) :
    Alters (Inserted fromUid toUid) (insertRequest env fromUid toUid requestMsg at_) db := by
  refine alters_bind silent_prepareFriendships fun prepared db₁ hdb₁ => ?_
  have hidle₁ := hidle.of_sqlite hdb₁
  cases prepared with
  | false => exact alters_false hidle₁
  | true =>
    simp only [Bool.not_true, Bool.false_eq_true, if_false]
    obtain ⟨c, db₂, hc, hrun, hidle₂, hrows⟩ | ⟨db₂, hrun, hsqlite⟩ := @exec_write_cases env _
      hidle₁ (Content.insertFriendship (pendingRow fromUid toUid requestMsg at_))
    · refine ⟨true, db₂, hrun, hidle₂, .inr ⟨rfl, ?_⟩⟩
      unfold Content.insertFriendship at hc
      split at hc
      · cases hc
      next rows hfile =>
      split at hc
      · cases hc
      next hfresh =>
      cases hc
      rw [hrows, friendRows_of_idle hidle₁, hfile]
      refine ⟨fun r hr => ?_, _, rfl, rfl, rfl, rfl⟩
      have hnone := List.any_eq_false.mp (Bool.eq_false_iff.mpr hfresh) r hr
      simp only [isPair, Bool.and_eq_false_imp, decide_eq_true_eq, decide_eq_false_iff_not]
      exact fun hfrom hto => hnone (decide_eq_true ⟨hfrom, hto⟩)
    · exact ⟨false, db₂, hrun, hidle₁.of_sqlite hsqlite, .inl ⟨rfl, friendRows_of_sqlite hsqlite⟩⟩

/-- What a friend request does: it is new, or repeats a pending one. -/
def Requested (fromUid toUid : Int32) (rows rows' : List FriendshipRow) : Prop :=
  Inserted fromUid toUid rows rows' ∨ ∃ requestMsg at_, Updated (isPending fromUid toUid)
    (fun r => { r with request_msg := requestMsg, updated_at := at_ }) rows rows'

theorem alters_sendRequest (hidle : db.Idle) (fromUid toUid : Int32) (requestMsg : Bytes) :
    Alters (Requested fromUid toUid) (sendRequest env fromUid toUid requestMsg) db := by
  unfold sendRequest
  split
  · exact alters_false hidle
  refine alters_bind silent_now fun at_ db₁ hdb₁ => alters_bind silent_prepareFriendships
    fun prepared db₂ hdb₂ => ?_
  have hidle₂ := (hidle.of_sqlite hdb₁).of_sqlite hdb₂
  cases prepared with
  | false => exact alters_false hidle₂
  | true =>
    refine alters_bind (silent_selectOne _) fun existing db₃ hdb₃ => ?_
    have hidle₃ := hidle₂.of_sqlite hdb₃
    have hinsert : Alters (Requested fromUid toUid) (insertRequest env fromUid toUid requestMsg at_) db₃ :=
      (alters_insertRequest hidle₃ ..).imp .inl
    cases existing with
    | none => exact hinsert
    | some row =>
      dsimp only
      split
      · exact alters_false hidle₃
      · split
        · exact alters_false hidle₃
        · exact hinsert
      · split
        · exact alters_false hidle₃
        · exact (alters_updateWhere hidle₃ _ _).imp fun h => .inr ⟨requestMsg, at_, h⟩

/-- A pending request that gets a new status. -/
def Answered (fromUid toUid : Int32) (status : FriendshipStatus) (rows rows' : List FriendshipRow) : Prop :=
  ∃ at_, Updated (isPending fromUid toUid) (fun r => { r with status := status, updated_at := at_ })
    rows rows'

theorem alters_setStatus (hidle : db.Idle) (fromUid toUid : Int32) (status : FriendshipStatus) :
    Alters (Answered fromUid toUid status) (setStatus env fromUid toUid status) db :=
  alters_bind silent_now fun at_ _ hdb₁ =>
    (alters_updateWhere (hidle.of_sqlite hdb₁) _ _).imp fun h => ⟨at_, h⟩

/-- The rows of a pair are deleted. -/
def Removed (uidA uidB : Int32) (rows rows' : List FriendshipRow) : Prop :=
  rows' = rows.filter fun r => !concerns uidA uidB r

theorem alters_removeFriendship (hidle : db.Idle) (uidA uidB : Int32) :
    Alters (Removed uidA uidB) (removeFriendship env uidA uidB) db := by
  refine alters_bind silent_prepareFriendships fun prepared db₁ hdb₁ => ?_
  have hidle₁ := hidle.of_sqlite hdb₁
  cases prepared with
  | false => exact alters_false hidle₁
  | true =>
    simp only [Bool.not_true, Bool.false_eq_true, if_false]
    have hasks : (Cmd.asks (fun db => (db.sqlite.view.friendships.getD []).any (concerns uidA uidB)) :
        DbM Bool) db₁ = ⟨.ok (db₁.friendRows.any (concerns uidA uidB)), db₁, []⟩ := rfl
    unfold Alters
    rw [Cmd.bind_of_run _ hasks]
    obtain ⟨c, db₂, hc, hrun, hidle₂, hrows⟩ | ⟨db₂, hrun, hsqlite⟩ := @exec_write_cases env _
      hidle₁ (Content.deleteFriendships (concerns uidA uidB))
    · rw [Cmd.bind_of_run _ hrun]
      refine ⟨_, _, rfl, hidle₂, ?_⟩
      obtain ⟨rows, hfile, rfl⟩ := Option.map_eq_some_iff.mp hc
      have hfiltered : db₂.friendRows = db₁.friendRows.filter fun r => !concerns uidA uidB r := by
        rw [hrows, friendRows_of_idle hidle₁, hfile]
        rfl
      rw [Removed, hfiltered, Bool.true_and]
      cases hany : db₁.friendRows.any (concerns uidA uidB) with
      | false =>
        rw [List.any_eq_false] at hany
        refine .inl ⟨rfl, List.filter_eq_self.mpr fun r hr => ?_⟩
        rw [Bool.eq_false_iff.mpr (hany r hr)]
        rfl
      | true => exact .inr ⟨rfl, rfl⟩
    · rw [Cmd.bind_of_run _ hrun]
      exact ⟨_, _, rfl, hidle₁.of_sqlite hsqlite, .inl ⟨rfl, friendRows_of_sqlite hsqlite⟩⟩

/-- Outside a transaction, the table that a row was read from is in the file. -/
theorem exists_of_friendRows (hidle : db.Idle) (h : db.friendRows ≠ []) :
    db.sqlite.file.friendships = some db.friendRows := by
  rw [friendRows_of_idle hidle] at h ⊢
  cases hfile : db.sqlite.file.friendships with
  | none => simp [hfile] at h
  | some rows => rfl

theorem run_prepareFriendships (henv : env.Serves) (hidle : db.Idle) (h : db.friendRows ≠ []) :
    prepareFriendships env db = ⟨.ok true, { db with calls := db.calls + 1 }, []⟩ := by
  have hfile := exists_of_friendRows hidle h
  rw [Idle] at hidle
  unfold prepareFriendships
  rw [Cmd.bind_of_run _ (run_call henv db), Cmd.bind_of_run _ (Cmd.asks_apply ..)]
  simp [Sqlite.view, hidle, hfile]

theorem result_updateWhere (henv : env.Serves) (hidle : db.Idle) {p : FriendshipRow → Bool}
    (u : FriendshipRow → FriendshipRow) (hany : db.friendRows.any p = true) :
    (updateWhere env p u db).result = .ok true := by
  have hne : db.friendRows ≠ [] := by
    rintro hnone
    simp [hnone] at hany
  let db₁ : Database := { db with calls := db.calls + 1 }
  have hupdate : Sqlite.write (Content.updateFriendships p u) db₁.sqlite = some
      ⟨{ db.sqlite.file with friendships := some (updated p u db.friendRows) }, none⟩ := by
    have hfile := exists_of_friendRows hidle hne
    rw [Idle] at hidle
    simp [db₁, Sqlite.write, hidle, Content.updateFriendships, hfile, updated]
  have hchanges : (Cmd.asks (fun db => (db.sqlite.view.friendships.getD []).any p) : DbM Bool) db₁ =
      ⟨.ok true, db₁, []⟩ := by
    rw [← hany]
    rfl
  unfold updateWhere
  rw [Cmd.bind_of_run _ (run_prepareFriendships henv hidle hne)]
  simp only [Bool.not_true, Bool.false_eq_true, if_false]
  rw [Cmd.bind_of_run _ hchanges, Cmd.bind_of_run _ (run_exec henv hupdate)]
  rfl

/-- A pending request is answered when SQLite serves. -/
theorem result_setStatus (henv : env.Serves) (hidle : db.Idle) {fromUid toUid : Int32}
    {status : FriendshipStatus} (hpending : db.friendRows.any (isPending fromUid toUid) = true) :
    (setStatus env fromUid toUid status db).result = .ok true := by
  obtain ⟨at_, db₁, hrun, hsqlite⟩ := @silent_now env db
  rw [setStatus, Cmd.bind_of_run _ hrun]
  refine result_updateWhere henv (hidle.of_sqlite hsqlite) _ ?_
  rwa [friendRows_of_sqlite hsqlite]

/-- With rows of the pair in the table, a deletion that SQLite serves removes them. -/
theorem removed_removeFriendship (henv : env.Serves) (hidle : db.Idle) {uidA uidB : Int32}
    (hrows : db.friendRows.filter (concerns uidA uidB) ≠ []) :
    Removed uidA uidB db.friendRows (removeFriendship env uidA uidB db).state.friendRows := by
  have hne : db.friendRows ≠ [] := by
    rintro hnone
    simp [hnone] at hrows
  let db₁ : Database := { db with calls := db.calls + 1 }
  have hdelete : Sqlite.write (Content.deleteFriendships (concerns uidA uidB)) db₁.sqlite = some
      ⟨{ db.sqlite.file with
          friendships := some (db.friendRows.filter fun r => !concerns uidA uidB r) }, none⟩ := by
    have hfile := exists_of_friendRows hidle hne
    rw [Idle] at hidle
    simp [db₁, Sqlite.write, hidle, Content.deleteFriendships, hfile]
  unfold removeFriendship
  rw [Cmd.bind_of_run _ (run_prepareFriendships henv hidle hne)]
  simp only [Bool.not_true, Bool.false_eq_true, if_false]
  rw [Cmd.bind_of_run _ (Cmd.asks_apply ..), Cmd.bind_of_run _ (run_exec henv hdelete)]
  rfl

end Alters

/-! ## The rows of a pair -/

section Pair

variable {uidA uidB fromUid toUid uid : Int32} {rows rows' : List FriendshipRow} {row : FriendshipRow}

theorem isPair_iff : isPair fromUid toUid row = true ↔ row.from_uid = fromUid ∧ row.to_uid = toUid := by
  simp [isPair]

theorem isPending_iff : isPending fromUid toUid row = true ↔
    (row.from_uid = fromUid ∧ row.to_uid = toUid) ∧ row.status = .pending := by
  simp [isPending, isPair]

theorem concerns_iff : concerns uidA uidB row = true ↔
    (row.from_uid = uidA ∧ row.to_uid = uidB) ∨ (row.from_uid = uidB ∧ row.to_uid = uidA) := by
  simp [concerns, isPair]

/-- A row of two pairs. -/
theorem concerns_of_concerns (h : concerns uidA uidB row = true) (h' : concerns fromUid toUid row = true) :
    (fromUid = uidA ∨ fromUid = uidB) ∧ (toUid = uidA ∨ toUid = uidB) := by
  rw [concerns_iff] at h h'
  rcases h with ⟨rfl, rfl⟩ | ⟨rfl, rfl⟩ <;> rcases h' with ⟨rfl, rfl⟩ | ⟨rfl, rfl⟩ <;> simp

theorem filter_updated {p q : FriendshipRow → Bool} {u : FriendshipRow → FriendshipRow}
    (h : ∀ r, p r = true → q r = false ∧ q (u r) = false) :
    (updated p u rows).filter q = rows.filter q := by
  induction rows with
  | nil => rfl
  | cons r rows ih =>
    rw [updated] at ih
    rw [updated, List.map_cons]
    cases hp : p r with
    | false => simp [List.filter_cons, ih]
    | true =>
      obtain ⟨hq, hqu⟩ := h r hp
      simp [hq, hqu, ih]

/-- A new status of a request touches the rows of its two users only. -/
theorem Answered.filter_concerns {status : FriendshipStatus} (h : Answered fromUid toUid status rows rows')
    (hto : toUid ≠ uidA ∧ toUid ≠ uidB) :
    rows'.filter (concerns uidA uidB) = rows.filter (concerns uidA uidB) := by
  obtain ⟨at_, -, rfl⟩ := h
  refine filter_updated fun r hr => ?_
  obtain ⟨⟨-, rfl⟩, -⟩ := isPending_iff.mp hr
  simp [concerns, isPair, hto]

theorem Requested.filter_concerns (h : Requested fromUid toUid rows rows')
    (hfrom : fromUid ≠ uidA ∧ fromUid ≠ uidB) :
    rows'.filter (concerns uidA uidB) = rows.filter (concerns uidA uidB) := by
  rcases h with ⟨-, row, rfl, -, -, rfl⟩ | ⟨requestMsg, at_, -, rfl⟩
  · simp [concerns, isPair, hfrom]
  · refine filter_updated fun r hr => ?_
    obtain ⟨⟨rfl, -⟩, -⟩ := isPending_iff.mp hr
    simp [concerns, isPair, hfrom]

/-- A deletion touches the rows of its pair only. -/
theorem Removed.filter_concerns (h : Removed fromUid toUid rows rows')
    (hpair : ∀ r ∈ rows, concerns uidA uidB r = true → concerns fromUid toUid r = false) :
    rows'.filter (concerns uidA uidB) = rows.filter (concerns uidA uidB) := by
  rw [h, List.filter_filter]
  refine List.filter_congr fun r hr => ?_
  cases hc : concerns uidA uidB r with
  | false => rfl
  | true => rw [hpair r hr hc]; rfl

theorem mem_updated {p : FriendshipRow → Bool} {u : FriendshipRow → FriendshipRow}
    (h : row ∈ updated p u rows) :
    (row ∈ rows ∧ p row = false) ∨ ∃ r ∈ rows, p r = true ∧ u r = row := by
  obtain ⟨r, hr, rfl⟩ := List.mem_map.mp h
  cases hp : p r with
  | false => exact .inl (by simpa using ⟨hr, hp⟩)
  | true => exact .inr ⟨r, hr, hp, by simp⟩

/-- The table has at most one row in each direction. -/
def PairsDistinct (rows : List FriendshipRow) : Prop :=
  rows.Pairwise fun r r' => isPair r.from_uid r.to_uid r' = false

theorem PairsDistinct.eq {r r' : FriendshipRow} (h : PairsDistinct rows) (hr : r ∈ rows) (hr' : r' ∈ rows)
    (hpair : isPair r.from_uid r.to_uid r' = true) : r' = r := by
  induction h with
  | nil => cases hr
  | cons hhead _ ih =>
    rcases List.mem_cons.mp hr with rfl | hmem <;> rcases List.mem_cons.mp hr' with rfl | hmem'
    · rfl
    · rw [hhead _ hmem'] at hpair
      cases hpair
    · have hback := hhead _ hmem
      obtain ⟨hfrom, hto⟩ := isPair_iff.mp hpair
      rw [hfrom, hto, isPair] at hback
      simp at hback
    · exact ih hmem hmem'

theorem pairsDistinct_updated {p : FriendshipRow → Bool} {u : FriendshipRow → FriendshipRow}
    (hu : ∀ r, (u r).from_uid = r.from_uid ∧ (u r).to_uid = r.to_uid) (h : PairsDistinct rows) :
    PairsDistinct (updated p u rows) := by
  have hsame : ∀ r, (if p r then u r else r).from_uid = r.from_uid ∧
      (if p r then u r else r).to_uid = r.to_uid := by
    intro r
    split
    · exact hu r
    · exact ⟨rfl, rfl⟩
  refine List.pairwise_map.mpr (h.imp fun {r r'} hne => ?_)
  rw [isPair, (hsame r).1, (hsame r).2, (hsame r').1, (hsame r').2]
  exact hne

theorem Requested.pairsDistinct (h : Requested fromUid toUid rows rows') (hrows : PairsDistinct rows) :
    PairsDistinct rows' := by
  rcases h with ⟨hfresh, row, rfl, rfl, -, rfl⟩ | ⟨requestMsg, at_, -, rfl⟩
  · refine List.pairwise_append.mpr ⟨hrows, List.pairwise_singleton .., fun r hr r' hr' => ?_⟩
    rw [List.mem_singleton.mp hr']
    have hnew := hfresh r hr
    rw [Bool.eq_false_iff, ne_eq, isPair_iff] at hnew ⊢
    exact fun hsame => hnew ⟨hsame.1.symm, hsame.2.symm⟩
  · exact pairsDistinct_updated (fun r => ⟨rfl, rfl⟩) hrows

theorem Answered.pairsDistinct {status : FriendshipStatus} (h : Answered fromUid toUid status rows rows')
    (hrows : PairsDistinct rows) : PairsDistinct rows' := by
  obtain ⟨at_, -, rfl⟩ := h
  exact pairsDistinct_updated (fun r => ⟨rfl, rfl⟩) hrows

theorem Removed.pairsDistinct (h : Removed fromUid toUid rows rows') (hrows : PairsDistinct rows) :
    PairsDistinct rows' := by
  rw [h]
  exact hrows.filter _

/-- Each row of the two users is still there, maybe with other contents. -/
def KeepsPair (uidA uidB : Int32) (rows rows' : List FriendshipRow) : Prop :=
  ∀ r ∈ rows, concerns uidA uidB r = true → ∃ r' ∈ rows', isPair r.from_uid r.to_uid r' = true

theorem keepsPair_of_subset (h : ∀ r ∈ rows, r ∈ rows') : KeepsPair uidA uidB rows rows' :=
  fun r hr _ => ⟨r, h r hr, isPair_iff.mpr ⟨rfl, rfl⟩⟩

theorem keepsPair_updated {p : FriendshipRow → Bool} {u : FriendshipRow → FriendshipRow}
    (hu : ∀ r, (u r).from_uid = r.from_uid ∧ (u r).to_uid = r.to_uid) :
    KeepsPair uidA uidB rows (updated p u rows) := by
  intro r hr _
  refine ⟨if p r then u r else r, List.mem_map.mpr ⟨r, hr, rfl⟩, isPair_iff.mpr ?_⟩
  split
  · exact hu r
  · exact ⟨rfl, rfl⟩

theorem Requested.keepsPair (h : Requested fromUid toUid rows rows') : KeepsPair uidA uidB rows rows' := by
  rcases h with ⟨-, row, -, -, -, rfl⟩ | ⟨requestMsg, at_, -, rfl⟩
  · exact keepsPair_of_subset fun r hr => List.mem_append_left _ hr
  · exact keepsPair_updated fun r => ⟨rfl, rfl⟩

theorem Answered.keepsPair {status : FriendshipStatus} (h : Answered fromUid toUid status rows rows') :
    KeepsPair uidA uidB rows rows' := by
  obtain ⟨at_, -, rfl⟩ := h
  exact keepsPair_updated fun r => ⟨rfl, rfl⟩

/-- A deletion that leaves one row of the two users leaves them all. -/
theorem Removed.keepsPair (h : Removed fromUid toUid rows rows') (hrow : row ∈ rows') :
    KeepsPair row.from_uid row.to_uid rows rows' := by
  intro r hr hconcerns
  rw [h] at hrow ⊢
  have hleft := (List.mem_filter.mp hrow).2
  refine ⟨r, List.mem_filter.mpr ⟨hr, ?_⟩, isPair_iff.mpr ⟨rfl, rfl⟩⟩
  rw [Bool.not_eq_true', Bool.eq_false_iff] at hleft ⊢
  intro hremoved
  refine hleft (concerns_iff.mpr ?_)
  rcases concerns_iff.mp hconcerns with ⟨hfrom, hto⟩ | ⟨hfrom, hto⟩ <;>
    rcases concerns_iff.mp hremoved with ⟨hfrom', hto'⟩ | ⟨hfrom', hto'⟩ <;>
      rw [hfrom] at hfrom' <;> rw [hto] at hto' <;> simp [hfrom', hto']

/-- Whatever the order of the rows, `LIMIT 1` returns one that was asked for. -/
theorem run_selectOne {env : Env} (p : FriendshipRow → Bool) (db : Database) :
    ∃ found db', selectOne env p db = ⟨.ok found, db', []⟩ ∧
      ∀ row, found = some row → row ∈ db.friendRows ∧ p row = true := by
  refine ⟨_, _, rfl, fun row hrow => ?_⟩
  split at hrow
  · have hscanned := List.mem_of_mem_head? (Option.mem_def.mpr hrow)
    exact List.mem_filter.mp ((env.scan_perm _ _).mem_iff.mp hscanned)
  · cases hrow

theorem areFriends_sound {env : Env} {db : Database}
    (h : (areFriends env uidA uidB db).result = .ok true) :
    ∃ row ∈ db.friendRows, row.status = .accepted ∧ concerns uidA uidB row = true := by
  obtain ⟨prepared, db₁, hrun, hsqlite⟩ := @silent_prepareFriendships env db
  unfold areFriends at h
  rw [Cmd.bind_of_run _ hrun] at h
  cases prepared with
  | false => cases h
  | true =>
    obtain ⟨found, db₂, hselect, hfound⟩ :=
      @run_selectOne env (fun r => r.status = .accepted && concerns uidA uidB r) db₁
    simp only [Bool.not_true, Bool.false_eq_true, if_false] at h
    rw [Cmd.bind_of_run _ hselect] at h
    cases found with
    | none => cases h
    | some row =>
      obtain ⟨hmem, hrow⟩ := hfound row rfl
      rw [friendRows_of_sqlite hsqlite] at hmem
      exact ⟨row, hmem, by simpa using hrow⟩

end Pair

end FriendRepository

end LanChat
