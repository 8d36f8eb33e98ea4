import Mathlib.Data.List.TakeWhile
import LanChat.Server.Access

/-!
# A restart keeps the rows

`Database::close` and `Database::open` on the same file. A document is bound
with its length and read back as a C string, so a row with a null character in
a string does not come back. `restartPreserves_iff`: this is the only way to
lose a row.
-/

namespace LanChat

open Lib Json

namespace Database

/-- `close`, and `open` on the same file. -/
def reopen (env : Env) : DbM Unit := do
  close
  let _ ← openDatabase env
  pure ()

/-- The tables that hold JSON documents. -/
def documentTables : List TableName := [.users, .messages, .groups, .group_members]

/-- Every table is read after a restart as it was before. -/
def RestartPreserves (env : Env) (db : Database) : Prop :=
  ∀ name ∈ documentTables,
    (queryAll env name (reopen env db).state).result = (queryAll env name db).result

/-- No row in memory contains a null character. -/
def NulFree (db : Database) : Prop :=
  ∀ name ∈ documentTables, ∀ rows, db.tables name = some rows → ∀ row ∈ rows, (Value.obj row).NulFree

section Reopen

open Cmd

variable {env : Env} {name : TableName} {rows : TableName → RowList} {db : Database}

/-! ## Opening again -/

theorem leaves_schemaVersion {τ : Type} {f : Database → τ}
    (h : Leaves f (loadTable env .schema_version)) : Leaves f (schemaVersion env) := by
  refine leaves_bind (leaves_bind h fun _ => leaves_asks _) fun all => ?_
  cases all with
  | nil => exact leaves_pure 0
  | cons row rest => exact leaves_bind (leaves_ofExcept _) fun _ => leaves_pure _

theorem run_tableExists (henv : env.Serves) (h : (db.sqlite.view.docs name).isSome) :
    tableExists env name db = ⟨.ok true, { db with calls := db.calls + 1 + 1 }, []⟩ := by
  unfold tableExists
  rw [bind_of_run _ (run_call henv db)]
  simp only [if_true]
  rw [bind_of_run _ (run_call henv _), bind_of_run _ (asks_apply ..)]
  simp only [h, Bool.and_true, pure_apply]

/-- A restart reads the version of the schema, and that is all it does. -/
theorem run_reopen (henv : env.Serves) (hdocs : (db.sqlite.file.docs .schema_version).isSome) :
    ∃ calls, reopen env db = (schemaVersion env >>= fun _ => pure ())
      { db with sqlite := ⟨db.sqlite.file, none⟩, tables := fun _ => none, calls := calls } := by
  have hclose : close db =
      ⟨.ok (), { db with sqlite := ⟨db.sqlite.file, none⟩, tables := fun _ => none }, []⟩ := rfl
  refine ⟨db.calls + 1 + 1 + 1 + 1, ?_⟩
  unfold reopen openDatabase
  simp only [bind_assoc, pure_bind]
  have hknown := @run_tableExists env .schema_version { db with
    sqlite := ⟨db.sqlite.file, none⟩, tables := fun _ => none, calls := db.calls + 1 + 1 } henv hdocs
  rw [bind_of_run _ hclose, bind_of_run _ (run_call henv _), bind_of_run _ (run_call henv _),
    bind_of_run _ hknown]
  rfl

/-- After a restart the file is as it was, and no document table is in memory. -/
theorem state_reopen (henv : env.Serves) (h : db.Holds rows) :
    (reopen env db).state.sqlite = ⟨db.sqlite.file, none⟩ ∧
      ∀ name ∈ documentTables, (reopen env db).state.tables name = none := by
  obtain ⟨calls, hrun⟩ := run_reopen henv (by rw [h.docs]; rfl)
  have hleaves : ∀ {τ : Type} {f : Database → τ}, Leaves f (loadTable env .schema_version) →
      Leaves f (schemaVersion env >>= fun _ => pure ()) :=
    fun hf => leaves_bind (leaves_schemaVersion hf) fun _ => leaves_pure ()
  rw [hrun]
  refine ⟨hleaves (leaves_sqlite_loadTable _) _, fun name hname => ?_⟩
  have hne : name ≠ .schema_version := by
    rintro rfl
    exact absurd hname (by decide)
  exact hleaves ((spares_loadTable hne).tables) _

/-! ## Rows that come back -/

/-- Whatever is read from the file has no null characters. -/
theorem nulFree_loadRow {text : Bytes} {row : Row} (h : loadRow text = .ok (some row)) :
    (Value.obj row).NulFree := by
  have hcstr : 0 ∉ cstr text := fun h0 => by
    simpa using List.mem_takeWhile_imp h0
  unfold loadRow at h
  split at h
  · cases h
  split at h
  · next o hparse =>
    cases h
    exact nulFree_parse hcstr hparse
  · cases h
  · cases h

theorem nulFree_readRows {texts : List Bytes} {list : RowList}
    (h : (readRows env texts db).result = .ok list) : ∀ row ∈ list, (Value.obj row).NulFree := by
  induction texts generalizing db list with
  | nil =>
    obtain ⟨_, -, hnil⟩ := result_bind_eq_ok.mp h
    cases hnil
    simp
  | cons text texts ih =>
    obtain ⟨stepped, -, h⟩ := result_bind_eq_ok.mp h
    cases stepped with
    | false =>
      cases h
      simp
    | true =>
      obtain ⟨row, hrow, h⟩ := result_bind_eq_ok.mp h
      obtain ⟨rest, hrest, h⟩ := result_bind_eq_ok.mp h
      cases h
      intro r hr
      rcases List.mem_append.mp hr with hr | hr
      · rw [Option.mem_toList.mp hr] at hrow
        exact nulFree_loadRow hrow
      · exact ih hrest r hr

/-- A table that is not in memory is read without null characters. -/
theorem nulFree_queryAll {list : RowList} (hnone : db.tables name = none)
    (h : (queryAll env name db).result = .ok list) : ∀ row ∈ list, (Value.obj row).NulFree := by
  obtain ⟨_, hload, hlist⟩ := result_bind_eq_ok.mp h
  have hlist : list = ((loadTable env name db).state.tables name).getD [] := (Except.ok.inj hlist).symm
  unfold loadTable at hload hlist
  rw [bind_of_run _ (asks_apply ..)] at hload hlist
  simp only [hnone, Option.isSome_none, Bool.false_eq_true, if_false] at hload hlist
  obtain ⟨prepared, hprepared, hload⟩ := result_bind_eq_ok.mp hload
  rw [bind_ok _ hprepared] at hlist
  cases prepared with
  | false =>
    simp [setTable] at hlist
    simp [hlist]
  | true =>
    obtain ⟨texts, htexts, hload⟩ := result_bind_eq_ok.mp hload
    obtain ⟨rows, hrows, hload⟩ := result_bind_eq_ok.mp hload
    have hset : list = rows := by
      simp only [if_true] at hlist
      rw [bind_ok _ htexts, bind_ok _ hrows] at hlist
      simpa [setTable] using hlist
    rw [hset]
    exact nulFree_readRows hrows

theorem queryAll_reopen (henv : env.Serves) (h : db.Holds rows) (hname : name ∈ documentTables)
    (hnul : ∀ row ∈ rows name, (Value.obj row).NulFree) :
    (queryAll env name (reopen env db).state).result = .ok (rows name) := by
  obtain ⟨hsqlite, htables⟩ := state_reopen henv h
  have hnone := htables name hname
  obtain ⟨calls, hload⟩ := @run_loadTable_of env name (reopen env db).state henv (rows name)
    (by rw [hsqlite]) (by rw [hsqlite]; exact h.docs name) (fun row hr => (h.shape name row hr).plain)
    (by rw [hnone]; nofun) fun _ => hnul
  unfold queryAll Database.rows
  rw [bind_of_run _ hload]
  simp [withTable]

/-- A restart keeps every row exactly if no row in memory has a null character. -/
theorem Holds.restartPreserves_iff (henv : env.Serves) (h : db.Holds rows) :
    RestartPreserves env db ↔ db.NulFree := by
  have hbefore : ∀ name, (queryAll env name db).result = .ok (rows name) := fun name => by
    obtain ⟨calls, hrun⟩ := run_queryAll henv h name
    rw [hrun]
  constructor
  · intro hpreserves name hname loaded hloaded row hrow
    have hafter := (hpreserves name hname).trans (hbefore name)
    rw [h.cached name loaded hloaded] at hrow
    exact nulFree_queryAll ((state_reopen henv h).2 name hname) hafter row hrow
  · intro hnul name hname
    rw [hbefore name]
    refine queryAll_reopen henv h hname fun row hrow => ?_
    cases htable : db.tables name with
    | none => exact h.readable name htable row hrow
    | some loaded => exact hnul name hname loaded htable row (h.cached name loaded htable ▸ hrow)

end Reopen

/-! ## The database of a new server -/

section StartUp

variable {env : Env} (henv : env.Serves)

include henv

theorem call_of_serves : call env = call .ideal := by
  funext db
  simp [call, henv db.calls, Env.ideal]

theorem readRows_of_serves (texts : List Bytes) : readRows env texts = readRows .ideal texts := by
  induction texts with
  | nil => simp only [readRows, call_of_serves henv]
  | cons text texts ih => simp only [readRows, call_of_serves henv, ih]

theorem ensureTable_of_serves : ensureTable env = ensureTable .ideal := by
  funext name
  simp only [ensureTable, tableExists, exec, call_of_serves henv]

theorem loadTable_of_serves : loadTable env = loadTable .ideal := by
  funext name
  simp only [loadTable, prepare, call_of_serves henv, readRows_of_serves henv]

theorem saveTable_of_serves : saveTable env = saveTable .ideal := by
  funext name
  simp only [saveTable, insertRows, exec, prepare, call_of_serves henv]

theorem setSchemaVersion_of_serves : setSchemaVersion env = setSchemaVersion .ideal := by
  funext version
  simp only [setSchemaVersion, queryAll, Database.insert, Database.update, loadTable_of_serves henv,
    saveTable_of_serves henv]

theorem migrateFrom_of_serves (steps : Nat) (current : Int32) :
    migrateFrom env current steps = migrateFrom .ideal current steps := by
  induction steps generalizing current with
  | zero => rfl
  | succ steps ih =>
    simp only [migrateFrom, migrateStep, migrateToOne, createIndex, createFriendshipsTable, exec,
      call_of_serves henv, ensureTable_of_serves henv, setSchemaVersion_of_serves henv, ih]

/-- When SQLite serves, the environment does not matter to the start. -/
theorem startUp_of_serves : startUp env = startUp .ideal := by
  simp only [startUp, openDatabase, migrate, schemaVersion, tableExists, queryAll, Database.insert,
    call_of_serves henv, ensureTable_of_serves henv, loadTable_of_serves henv,
    saveTable_of_serves henv, migrateFrom_of_serves henv]

/-- The database of a server that starts without a file holds no rows but the
version of the schema. -/
theorem stored_startUp : (startUp env (connect .empty)).state.Stored := by
  have htables : ∀ name, (startUp .ideal (connect .empty)).state.tables name =
      if name = .schema_version then some [versionRow 1] else none := by
    rintro (_ | _ | _ | _ | _) <;> rfl
  have hversion : (Value.obj (versionRow 1)).Plain := plain_object (by simpa using .int _)
  rw [startUp_of_serves henv]
  refine ⟨fun name => if name = .schema_version then [versionRow 1] else [], ⟨rfl, ?_, ?_, ?_, ?_⟩⟩
  · rintro (_ | _ | _ | _ | _) <;> rfl
  · intro name loaded hloaded
    rw [htables name] at hloaded
    split
    · next h => rw [if_pos h] at hloaded; exact (Option.some.inj hloaded).symm
    · next h => rw [if_neg h] at hloaded; cases hloaded
  · intro name hnone row hrow
    rw [htables name] at hnone
    split at hnone
    · cases hnone
    · next h => rw [if_neg h] at hrow; cases hrow
  · intro name row hrow
    split at hrow
    · next h =>
      rw [List.mem_singleton.mp hrow, h]
      exact ⟨hversion, nofun⟩
    · cases hrow

end StartUp

end Database

/-! ## Every run -/

namespace TcpServer

open Database

/-- In every state that the server reaches, a restart preserves the rows of the
document tables exactly if none of them contains a null character. -/
theorem restart_preserves_iff {env : Env} (henv : env.Serves) {db : Database} (hdb : db.Stored)
    {st : Server} (hreach : Reachable env db st) : RestartPreserves env st.db ↔ st.db.NulFree := by
  obtain ⟨rows, hrows⟩ := invariant_of_reachable (writes_stored henv) hdb hreach
  exact hrows.restartPreserves_iff henv

/-- A user registers with this nickname. -/
def registration (nickname : Bytes) : List Event :=
  [.accept 0, request 1 .RegisterUser [("nickname", .str nickname), ("password", text "p")]]

theorem serves_ideal : Env.ideal.Serves := fun _ => rfl

/-- The nickname has a null character in it; the user is lost. -/
theorem restart_loses_null_character :
    ¬∀ env : Env, env.Serves → ∀ db : Database, db.Stored → ∀ st, Reachable env db st →
      RestartPreserves env st.db := by
  intro hall
  have hrun : ((run (step .ideal) (.boot .ideal .empty) (registration [97, 0, 98])).map fun st =>
      ((queryAll .ideal .users st.db).result.toBool,
        (queryAll .ideal .users (reopen .ideal st.db).state).result.toBool)) = some (true, false) := by
    decide +kernel
  obtain ⟨st, hst, heq⟩ := Option.map_eq_some_iff.mp hrun
  simp only [Prod.mk.injEq] at heq
  have hpreserves := hall _ serves_ideal _ (stored_startUp serves_ideal) st ⟨_, hst⟩
  rw [hpreserves .users (by decide), heq.1] at heq
  cases heq.2

theorem restart_preserves_iff_registration :
    ∃ st, run (step .ideal) (.boot .ideal .empty) (registration [97]) = some st ∧
      (RestartPreserves .ideal st.db ↔ st.db.NulFree) := by
  have hrun : (run (step .ideal) (.boot .ideal .empty) (registration [97])).isSome := by
    decide +kernel
  obtain ⟨st, hst⟩ := Option.isSome_iff_exists.mp hrun
  exact ⟨st, hst, restart_preserves_iff serves_ideal (stored_startUp serves_ideal) ⟨_, hst⟩⟩

end TcpServer

end LanChat
