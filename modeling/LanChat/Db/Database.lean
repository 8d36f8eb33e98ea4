import LanChat.Lib.Command
import LanChat.Db.Sqlite

/-!
# The JSON document store

`db::Database`. A table is read once, on its first use, and kept in memory;
each change rewrites the whole table in the file. Results of SQLite calls are
checked only where the source checks them.
-/

namespace LanChat

open Lib Json

abbrev Row := Object

abbrev RowList := List Row

/-- `db::Database`. `calls`, `readings` and `draws` count what has been asked of
the environment: SQLite calls, clock readings and draws of entropy. -/
structure Database where
  sqlite : Sqlite
  tables : TableName → Option RowList
  calls : Nat
  readings : Nat
  draws : Nat

abbrev DbM := Cmd Database Empty Exn

/-- `c_str()` and back: the string up to its first null character. -/
def cstr (s : Bytes) : Bytes := s.takeWhile (· ≠ 0)

namespace Database

variable (env : Env)

/-! ## The environment -/

/-- `std::time(nullptr)`. -/
def time : DbM Int64 := fun db =>
  ⟨.ok (env.time db.readings), { db with readings := db.readings + 1 }, []⟩

/-- `vendor::bcrypt::random_bytes`. -/
def randomBytes : DbM Bytes := fun db =>
  ⟨.ok (env.entropy db.draws), { db with draws := db.draws + 1 }, []⟩

/-- One SQLite call: does it succeed? -/
def call : DbM Bool := fun db =>
  ⟨.ok (!env.sqliteFails db.calls), { db with calls := db.calls + 1 }, []⟩

/-- One SQLite call that runs a statement. A failing one has no effect. -/
def exec (statement : Sqlite → Option Sqlite) : DbM Bool := do
  let serves ← call env
  let sqlite ← Cmd.asks (·.sqlite)
  match statement sqlite with
  | none => pure false
  | some sqlite' =>
    if serves then do
      Cmd.modify fun db => { db with sqlite := sqlite' }
      pure true
    else pure false

/-- `sqlite3_prepare_v2` on a statement over a JSON table. -/
def prepare (name : TableName) : DbM Bool := do
  let serves ← call env
  let known ← Cmd.asks fun db => (db.sqlite.view.docs name).isSome
  pure (serves && known)

/-! ## Loading and saving a table -/

/-- `tables_[name] = rows`. -/
def setTable (name : TableName) (rows : RowList) : DbM Unit :=
  Cmd.modify fun db => { db with tables := Function.update db.tables name (some rows) }

/-- A stored text as a row. The text is read as a C string; what is not a JSON
object is dropped. The stack suffices for what is stored. -/
def loadRow (text : Bytes) : Except Exn (Option Row) :=
  if cstr text = [] then .ok none
  else
    match Json.read (cstr text) with
    | .ok (.obj o) => .ok (some o)
    | .ok _ => .ok none
    | .error fault => .error (.json fault)

/-- The `sqlite3_step` loop of `loadTable`. -/
def readRows : List Bytes → DbM RowList
  | [] => do
    -- the step that returns `SQLITE_DONE`
    let _ ← call env
    pure []
  | text :: texts => do
    if ← call env then do
      let row ← Cmd.ofExcept (loadRow text)
      let rows ← readRows texts
      pure (row.toList ++ rows)
    else pure []

def loadTable (name : TableName) : DbM Unit := do
  let cached ← Cmd.asks fun db => (db.tables name).isSome
  if cached then pure ()
  else do
    let prepared ← prepare env name
    if prepared then do
      let texts ← Cmd.asks fun db => (db.sqlite.view.docs name).getD []
      let rows ← readRows env texts
      setTable name rows
    else setTable name []

/-- The insertions of `saveTable`. -/
def insertRows (name : TableName) (rows : RowList) : DbM Unit := do
  let prepared ← prepare env name
  Cmd.when prepared <| Cmd.each rows fun row => do
    let _ ← exec env (Sqlite.write (Content.insertDoc name (serialize row)))
    pure ()

def saveTable (name : TableName) : DbM Unit := do
  let cached ← Cmd.asks (·.tables name)
  match cached with
  | none => pure ()
  | some rows => do
    let _ ← exec env Sqlite.begin
    let cleared ← exec env (Sqlite.write (Content.deleteAll name))
    if cleared then do
      insertRows env name rows
      let _ ← exec env Sqlite.commit
      pure ()
    else do
      let _ ← exec env Sqlite.rollback
      pure ()

/-! ## Table operations -/

/-- `tables_[name]` after `loadTable`. -/
def rows (name : TableName) : DbM RowList := Cmd.asks fun db => (db.tables name).getD []

def filterRows (p : Row → Except Exn Bool) : RowList → Except Exn RowList
  | [] => .ok []
  | row :: rest => do
    let keep ← p row
    let rest ← filterRows p rest
    .ok (if keep then row :: rest else rest)

/-- The loop of `update`: the rows as it leaves them, and whether the updater ran. -/
def updateRows (p : Row → Except Exn Bool) (u : Row → Row) :
    RowList → RowList × Except Exn Bool
  | [] => ([], .ok false)
  | row :: rest =>
    match p row with
    | .error e => (row :: rest, .error e)
    | .ok hit =>
      let (rest', result) := updateRows p u rest
      ((if hit then u row else row) :: rest', result.map (hit || ·))

def query (name : TableName) (p : Row → Except Exn Bool) : DbM RowList := do
  loadTable env name
  let all ← rows name
  Cmd.ofExcept (filterRows p all)

/-- `query` without a predicate. -/
def queryAll (name : TableName) : DbM RowList := do
  loadTable env name
  rows name

def insert (name : TableName) (row : Row) : DbM Unit := do
  loadTable env name
  let all ← rows name
  setTable name (all ++ [row])
  saveTable env name

/-- `update`; the result says whether the updater ran on some row. -/
def update (name : TableName) (p : Row → Except Exn Bool) (u : Row → Row) : DbM Bool := do
  loadTable env name
  let all ← rows name
  setTable name (updateRows p u all).1
  let hit ← Cmd.ofExcept (updateRows p u all).2
  saveTable env name
  pure hit

/-- `remove`; the result says whether the predicate held of some row. -/
def remove (name : TableName) (p : Row → Bool) : DbM Bool := do
  loadTable env name
  let all ← rows name
  setTable name (all.filter fun row => !p row)
  saveTable env name
  pure (all.any p)

/-! ## Opening and migrating -/

def tableExists (name : TableName) : DbM Bool := do
  let prepared ← call env
  if prepared then do
    let stepped ← call env
    let known ← Cmd.asks fun db => (db.sqlite.view.docs name).isSome
    pure (stepped && known)
  else pure false

def ensureTable (name : TableName) : DbM Unit := do
  let known ← tableExists env name
  if known then pure ()
  else do
    let _ ← exec env (Sqlite.write (Content.createTable name))
    pure ()

/-- `r.at(key)` on a row. -/
def atField (row : Row) (key : String) : Except Exn Value :=
  match row.find? (lit key) with
  | some v => .ok v
  | none => .error .outOfRange

def versionRow (version : Int32) : Row := object [("version", ofInt32 version)]

def schemaVersion : DbM Int32 := do
  let all ← queryAll env .schema_version
  match all with
  | [] => pure 0
  | row :: _ => do
    let v ← Cmd.ofExcept (atField row "version")
    pure v.asInt.toInt32

def setSchemaVersion (version : Int32) : DbM Unit := do
  let all ← queryAll env .schema_version
  if all = [] then insert env .schema_version (versionRow version)
  else do
    let _ ← update env .schema_version (fun _ => .ok true)
      fun row => row.put (lit "version") (ofInt32 version)
    pure ()

def createIndex (table : TableName) (index : String) : DbM Unit := do
  let _ ← exec env (Sqlite.write (Content.createIndex table index))
  pure ()

def createFriendshipsTable : DbM Unit := do
  let _ ← exec env (Sqlite.write Content.createFriendships)
  Cmd.each ["idx_fs_from", "idx_fs_to", "idx_fs_both"] fun index => do
    let _ ← exec env (Sqlite.write (Content.createFriendshipsIndex index))
    pure ()

/-- The step of `migrate` from version 0 to version 1. -/
def migrateToOne : DbM Unit := do
  Cmd.each [.users, .messages, .groups, .group_members] (ensureTable env)
  Cmd.each
    [(TableName.users, "idx_users_id"), (.users, "idx_users_nickname"),
      (.messages, "idx_messages_from_id"), (.messages, "idx_messages_to_id"),
      (.messages, "idx_messages_group_id"), (.messages, "idx_messages_timestamp"),
      (.groups, "idx_groups_group_id"), (.group_members, "idx_gm_user_id"),
      (.group_members, "idx_gm_group_id")]
    fun index => createIndex env index.1 index.2
  createFriendshipsTable env
  setSchemaVersion env 1

/-- One round of the loop of `migrate`. -/
def migrateStep (current : Int32) : DbM Unit :=
  if current = 0 then migrateToOne env
  -- versions above 1 are reserved: only the number changes
  else setSchemaVersion env (current + 1)

/-- The loop of `migrate`, `steps` versions from `current`. -/
def migrateFrom (current : Int32) : Nat → DbM Unit
  | 0 => pure ()
  | steps + 1 => do
    migrateStep env current
    migrateFrom (current + 1) steps

def migrate (targetVersion : Int32) : DbM Bool := do
  let current ← schemaVersion env
  if targetVersion < current then pure false
  else do
    migrateFrom env current (targetVersion.toInt - current.toInt).toNat
    pure true

/-- `Database::open` on a connection to an existing directory. The `PRAGMA`s
have no effect on the contents. -/
def openDatabase : DbM Bool := do
  let _ ← call env
  let _ ← call env
  let known ← tableExists env .schema_version
  Cmd.when (¬known) do
    ensureTable env .schema_version
    insert env .schema_version (versionRow 0)
  let _ ← schemaVersion env
  pure true

/-- `Database::close`. -/
def close : DbM Unit :=
  Cmd.modify fun db => { db with sqlite := db.sqlite.close, tables := fun _ => none }

/-- A connection to a database file, before `openDatabase`. -/
def connect (file : Content) : Database := ⟨⟨file, none⟩, fun _ => none, 0, 0, 0⟩

/-- What `LanChatServer` does with a database before it runs. The constructor
of `FriendRepository` migrates once more. -/
def startUp : DbM Unit := do
  let _ ← openDatabase env
  let _ ← migrate env 1
  let _ ← migrate env 1
  pure ()

/-- The rows that stored texts can be read as. -/
def readable (texts : List Bytes) : RowList :=
  texts.filterMap fun text =>
    match loadRow text with
    | .ok row => row
    | .error _ => none

/-- The rows of a table: those in memory, or those that can be read from the
file. -/
def content (db : Database) (name : TableName) : RowList :=
  match db.tables name with
  | some rows => rows
  | none => readable ((db.sqlite.view.docs name).getD [])

theorem mem_content {db : Database} {name : TableName} {row : Row}
    (h : row ∈ (db.tables name).getD []) : row ∈ db.content name := by
  unfold content
  cases hmem : db.tables name with
  | some rows => rwa [hmem] at h
  | none => simp [hmem] at h

/-! ## What the table operations return

Each of these holds for every environment, whatever fails. -/

section Results

variable {env} {P : Database → Prop} {E : Exn → Database → Prop} {W : Empty → Prop}
  {name : TableName}

theorem tables_setTable (rows : RowList) (db : Database) :
    (setTable name rows db).state.tables name = some rows := by
  simp [setTable]

/-- After a load the table is in memory. -/
theorem sat_loadTable :
    Cmd.Sat P (loadTable env name) (fun _ db => (db.tables name).isSome) (fun _ _ => True) W := by
  have hset : ∀ {P : Database → Prop} (rows : RowList),
      Cmd.Sat P (setTable name rows) (fun _ db => (db.tables name).isSome) (fun _ _ => True) W :=
    fun rows => Cmd.sat_modify fun db _ => by simp
  refine (Cmd.sat_asks (Q := fun cached db => cached = true → (db.tables name).isSome)
    fun db _ => id).bind fun cached => Cmd.sat_ite (fun h => Cmd.sat_pure fun _ hs => hs h) fun _ => ?_
  refine (Cmd.sat_true _).bind fun prepared => Cmd.sat_ite (fun _ => ?_) fun _ => hset []
  refine (Cmd.sat_true _).bind fun texts => (Cmd.sat_true _).bind fun rows => hset rows

/-- Where the predicate throws on no row, the loop is a filter. -/
theorem filterRows_eq {p : Row → Except Exn Bool} {q : Row → Bool} {rows : RowList}
    (h : ∀ row ∈ rows, p row = .ok (q row)) : filterRows p rows = .ok (rows.filter q) := by
  induction rows with
  | nil => rfl
  | cons row rest ih =>
    simp only [filterRows, h row List.mem_cons_self, ih fun r hr => h r (List.mem_cons_of_mem _ hr),
      List.filter_cons]
    cases q row <;> rfl

theorem updateRows_eq {p : Row → Except Exn Bool} {q : Row → Bool} {rows : RowList}
    (h : ∀ row ∈ rows, p row = .ok (q row)) (u : Row → Row) :
    updateRows p u rows = (rows.map fun row => if q row then u row else row, .ok (rows.any q)) := by
  induction rows with
  | nil => rfl
  | cons row rest ih =>
    simp [updateRows, h row List.mem_cons_self, ih fun r hr => h r (List.mem_cons_of_mem _ hr),
      Except.map]

/-- A query returns the rows of the table in memory that the predicate selects. -/
theorem sat_query (p : Row → Bool) :
    Cmd.Sat P (query env name fun row => .ok (p row))
      (fun rows db => rows = ((db.tables name).getD []).filter p) (fun _ _ => True) W := by
  refine (sat_loadTable (P := P)).bind fun _ => ?_
  refine (Cmd.sat_asks (Q := fun all db => all = (db.tables name).getD []) fun _ _ => rfl).bind
    fun all => ?_
  rw [filterRows_eq fun _ _ => rfl]
  exact Cmd.sat_ofExcept (fun rows db h hall => by cases h; rw [hall]) fun _ _ _ _ => trivial

end Results

/-! ## What the table operations leave alone -/

/-- The documents of the table meet `P`, in the file and in the open transaction. -/
def Shows (name : TableName) (P : List Bytes → Prop) (s : Sqlite) : Prop :=
  P ((s.file.docs name).getD []) ∧ ∀ c, s.transaction = some c → P ((c.docs name).getD [])

/-- The statement does not write to the table. -/
def SparesDocs (name : TableName) (statement : Sqlite → Option Sqlite) : Prop :=
  ∀ P s s', Shows name P s → statement s = some s' → Shows name P s'

/-- The command leaves the table alone: the rows in memory are the same, and
nothing is written to its documents. -/
structure Spares {α : Type} (name : TableName) (c : DbM α) : Prop where
  tables : Cmd.Leaves (fun db => db.tables name) c
  docs : ∀ P, ∀ db : Database, Shows name P db.sqlite → Shows name P (c db).state.sqlite

section Frames

open Cmd

variable {env} {other name : TableName} {α β : Type}

theorem sparesDocs_begin : SparesDocs other Sqlite.begin := by
  intro P s s' h hs
  unfold Sqlite.begin at hs
  split at hs
  · cases hs
    exact ⟨h.1, fun c hc => by cases hc; exact h.1⟩
  · cases hs

theorem sparesDocs_commit : SparesDocs other Sqlite.commit := by
  intro P s s' h hs
  obtain ⟨c, hc, rfl⟩ := Option.map_eq_some_iff.mp hs
  exact ⟨h.2 c hc, nofun⟩

theorem sparesDocs_rollback : SparesDocs other Sqlite.rollback := by
  intro P s s' h hs
  obtain ⟨c, -, rfl⟩ := Option.map_eq_some_iff.mp hs
  exact ⟨h.1, nofun⟩

theorem sparesDocs_write {change : Content → Option Content}
    (hchange : ∀ c c', change c = some c' → (c'.docs other).getD [] = (c.docs other).getD []) :
    SparesDocs other (Sqlite.write change) := by
  rintro P ⟨file, _ | t⟩ s' h hs
  · obtain ⟨c, hc, rfl⟩ := Option.map_eq_some_iff.mp hs
    exact ⟨by rw [hchange _ _ hc]; exact h.1, nofun⟩
  · obtain ⟨c, hc, rfl⟩ := Option.map_eq_some_iff.mp hs
    refine ⟨h.1, fun c' hc' => ?_⟩
    cases hc'
    rw [hchange _ _ hc]
    exact h.2 t rfl

theorem Spares.of_sqlite {c : DbM α} (h : Leaves (fun db => db.tables other) c)
    (hs : Leaves (fun db => db.sqlite) c) : Spares other c :=
  ⟨h, fun P db hdb => by rw [show (c db).state.sqlite = db.sqlite from hs db]; exact hdb⟩

theorem spares_pure (a : α) : Spares other (pure a : DbM α) := .of_sqlite (leaves_pure a) (leaves_pure a)

theorem spares_asks (f : Database → α) : Spares other (asks f : DbM α) :=
  .of_sqlite (leaves_asks f) (leaves_asks f)

theorem spares_ofExcept (r : Except Exn α) : Spares other (ofExcept r : DbM α) :=
  .of_sqlite (leaves_ofExcept r) (leaves_ofExcept r)

theorem Spares.bind {c : DbM α} {f : α → DbM β} (hc : Spares other c) (hf : ∀ a, Spares other (f a)) :
    Spares other (c >>= f) where
  tables := leaves_bind hc.tables fun a => (hf a).tables
  docs P db hdb := by
    cases hr : (c db).result with
    | error e => rw [bind_error f hr]; exact hc.docs P db hdb
    | ok a => rw [bind_ok f hr]; exact (hf a).docs P _ (hc.docs P db hdb)

theorem Spares.ite {b : Prop} [Decidable b] {c d : DbM α} (hc : Spares other c) (hd : Spares other d) :
    Spares other (if b then c else d) := by
  split
  · exact hc
  · exact hd

theorem Spares.when {b : Prop} [Decidable b] {c : DbM Unit} (hc : Spares other c) :
    Spares other (when b c) :=
  hc.ite (spares_pure ())

theorem spares_each {xs : List β} {body : β → DbM Unit} (h : ∀ x, Spares other (body x)) :
    Spares other (each xs body) := by
  induction xs with
  | nil => exact spares_pure ()
  | cons x xs ih => exact (h x).bind fun _ => ih

theorem spares_time : Spares other (time env) := .of_sqlite (fun _ => rfl) fun _ => rfl

theorem spares_call : Spares other (call env) := .of_sqlite (fun _ => rfl) fun _ => rfl

/-- A statement takes effect, or is refused or fails. -/
theorem exec_cases (statement : Sqlite → Option Sqlite) (db : Database) :
    (∃ s, statement db.sqlite = some s ∧
      exec env statement db = ⟨.ok true, { db with sqlite := s, calls := db.calls + 1 }, []⟩) ∨
    exec env statement db = ⟨.ok false, { db with calls := db.calls + 1 }, []⟩ := by
  have hcall : call env db = ⟨.ok (!env.sqliteFails db.calls), { db with calls := db.calls + 1 }, []⟩ :=
    rfl
  unfold exec
  rw [bind_of_run _ hcall, bind_of_run _ (asks_apply ..)]
  cases hs : statement db.sqlite with
  | none => exact .inr rfl
  | some s =>
    cases hfails : env.sqliteFails db.calls with
    | false => exact .inl ⟨s, rfl, rfl⟩
    | true => exact .inr rfl

theorem leaves_tables_exec (statement : Sqlite → Option Sqlite) :
    Leaves (fun db => db.tables) (exec env statement) := fun db => by
  obtain ⟨s, -, hrun⟩ | hrun := @exec_cases env statement db
  · rw [hrun]
  · rw [hrun]

theorem leaves_tables_prepare : Leaves (fun db => db.tables) (prepare env name) :=
  leaves_bind (fun _ => rfl) fun _ => leaves_bind (leaves_asks _) fun _ => leaves_pure _

theorem leaves_tables_saveTable : Leaves (fun db => db.tables) (saveTable env name) := by
  refine leaves_bind (leaves_asks _) fun cached => ?_
  cases cached with
  | none => exact leaves_pure ()
  | some rows =>
    refine leaves_bind (leaves_tables_exec _) fun _ => leaves_bind (leaves_tables_exec _) fun _ =>
      leaves_ite ?_ (leaves_bind (leaves_tables_exec _) fun _ => leaves_pure ())
    refine leaves_bind ?_ fun _ => leaves_bind (leaves_tables_exec _) fun _ => leaves_pure ()
    exact leaves_bind leaves_tables_prepare fun _ => leaves_when <| leaves_each fun _ =>
      leaves_bind (leaves_tables_exec _) fun _ => leaves_pure ()

theorem spares_exec {statement : Sqlite → Option Sqlite} (h : SparesDocs other statement) :
    Spares other (exec env statement) where
  tables db := congrFun (leaves_tables_exec statement db) other
  docs P db hdb := by
    obtain ⟨s, hs, hrun⟩ | hrun := @exec_cases env statement db
    · rw [hrun]; exact h P _ s hdb hs
    · rw [hrun]; exact hdb

theorem spares_prepare : Spares other (prepare env name) :=
  spares_call.bind fun _ => (spares_asks _).bind fun _ => spares_pure _

theorem spares_readRows (texts : List Bytes) : Spares other (readRows env texts) := by
  induction texts with
  | nil => exact spares_call.bind fun _ => spares_pure []
  | cons text texts ih =>
    refine spares_call.bind fun _ => Spares.ite ?_ (spares_pure [])
    exact (spares_ofExcept _).bind fun _ => ih.bind fun _ => spares_pure _

section Other

variable (h : other ≠ name)

include h

theorem sparesDocs_deleteAll : SparesDocs other (Sqlite.write (Content.deleteAll name)) :=
  sparesDocs_write fun c c' hc => by
    obtain ⟨texts, -, rfl⟩ := Option.map_eq_some_iff.mp hc
    simp only [Function.update_of_ne h]

theorem sparesDocs_insertDoc (text : Bytes) :
    SparesDocs other (Sqlite.write (Content.insertDoc name text)) :=
  sparesDocs_write fun c c' hc => by
    obtain ⟨texts, -, rfl⟩ := Option.map_eq_some_iff.mp hc
    simp only [Function.update_of_ne h]

theorem spares_insertRows (rows : RowList) : Spares other (insertRows env name rows) :=
  spares_prepare.bind fun _ => .when <| spares_each fun _ =>
    (spares_exec (sparesDocs_insertDoc h _)).bind fun _ => spares_pure ()

theorem spares_saveTable : Spares other (saveTable env name) := by
  refine (spares_asks _).bind fun cached => ?_
  cases cached with
  | none => exact spares_pure ()
  | some rows =>
    refine (spares_exec sparesDocs_begin).bind fun _ =>
      (spares_exec (sparesDocs_deleteAll h)).bind fun _ => Spares.ite ?_ ?_
    · exact (spares_insertRows h rows).bind fun _ => (spares_exec sparesDocs_commit).bind fun _ =>
        spares_pure ()
    · exact (spares_exec sparesDocs_rollback).bind fun _ => spares_pure ()

theorem spares_setTable (rows : RowList) : Spares other (setTable name rows) :=
  .of_sqlite (fun _ => by simp [setTable, h]) fun _ => rfl

theorem spares_loadTable : Spares other (loadTable env name) := by
  refine (spares_asks _).bind fun _ => (spares_pure ()).ite ?_
  refine spares_prepare.bind fun _ => Spares.ite ?_ (spares_setTable h [])
  exact (spares_asks _).bind fun texts => (spares_readRows texts).bind fun rows => spares_setTable h rows

theorem spares_query (p : Row → Except Exn Bool) : Spares other (query env name p) :=
  (spares_loadTable h).bind fun _ => (spares_asks _).bind fun _ => spares_ofExcept _

theorem spares_insert (row : Row) : Spares other (insert env name row) :=
  (spares_loadTable h).bind fun _ => (spares_asks _).bind fun _ => (spares_setTable h _).bind fun _ =>
    spares_saveTable h

theorem spares_update (p : Row → Except Exn Bool) (u : Row → Row) :
    Spares other (update env name p u) :=
  (spares_loadTable h).bind fun _ => (spares_asks _).bind fun _ => (spares_setTable h _).bind fun _ =>
    (spares_ofExcept _).bind fun _ => (spares_saveTable h).bind fun _ => spares_pure _

theorem spares_remove (p : Row → Bool) : Spares other (remove env name p) :=
  (spares_loadTable h).bind fun _ => (spares_asks _).bind fun _ => (spares_setTable h _).bind fun _ =>
    (spares_saveTable h).bind fun _ => spares_pure _

end Other

/-! Loading a table leaves the file alone. -/

theorem leaves_sqlite_call : Leaves (fun db => db.sqlite) (call env) := fun _ => rfl

theorem leaves_sqlite_readRows (texts : List Bytes) :
    Leaves (fun db => db.sqlite) (readRows env texts) := by
  induction texts with
  | nil => exact leaves_bind leaves_sqlite_call fun _ => leaves_pure []
  | cons text texts ih =>
    refine leaves_bind leaves_sqlite_call fun _ => leaves_ite ?_ (leaves_pure [])
    exact leaves_bind (leaves_ofExcept _) fun _ => leaves_bind ih fun _ => leaves_pure _

theorem leaves_sqlite_loadTable (name : TableName) :
    Leaves (fun db => db.sqlite) (loadTable env name) := by
  refine leaves_bind (leaves_asks _) fun _ => leaves_ite (leaves_pure ()) ?_
  refine leaves_bind (leaves_bind leaves_sqlite_call fun _ => leaves_bind (leaves_asks _) fun _ =>
    leaves_pure _) fun _ => leaves_ite ?_ fun _ => rfl
  exact leaves_bind (leaves_asks _) fun texts => leaves_bind (leaves_sqlite_readRows texts) fun _ =>
    fun _ => rfl

/-- A table that is in memory stays as it is. -/
theorem loadTable_of_cached {db : Database} {rows : RowList} (h : db.tables name = some rows) :
    loadTable env name db = ⟨.ok (), db, []⟩ := by
  unfold loadTable
  rw [bind_of_run _ (asks_apply ..)]
  simp only [h, Option.isSome_some, if_true, pure_apply]

end Frames

end Database

end LanChat
