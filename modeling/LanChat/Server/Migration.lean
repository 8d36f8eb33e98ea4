import LanChat.Db.FreshIds
import LanChat.Db.Tracks
import LanChat.Server.Restart

/-!
# Migrations that fail half way

`migrate` creates the tables and indexes of version 1 and then writes the
version, whatever has become of the statements before. A migration is a list of
statements here (`statementsFrom`), and any SQLite call of it may fail.
`migrated_of_careful` says which failures do no harm.
-/

namespace LanChat

open Lib Json

namespace Database

/-! ## The statements of a migration -/

/-- A table or an index of version 1. -/
inductive Creation where
  | table (name : TableName)
  | index (on : TableName) (name : String)
  | friendships
  | friendshipsIndex (name : String)
deriving DecidableEq

namespace Creation

/-- What is created is there. -/
def there : Creation → Content → Bool
  | .table name, c => (c.docs name).isSome
  | .index _ name, c => name ∈ c.indexes
  | .friendships, c => c.friendships.isSome
  | .friendshipsIndex name, c => name ∈ c.indexes

/-- The statement that creates it. -/
def change : Creation → Content → Option Content
  | .table name => Content.createTable name
  | .index on name => Content.createIndex on name
  | .friendships => Content.createFriendships
  | .friendshipsIndex name => Content.createFriendshipsIndex name

/-- The table of an index. -/
def owner : Creation → Option Creation
  | .index on _ => some (.table on)
  | .friendshipsIndex _ => some .friendships
  | _ => none

/-- How `migrate` creates it. -/
def run (env : Env) : Creation → DbM Unit
  | .table name => ensureTable env name
  | .index on name => createIndex env on name
  | .friendships => do
    let _ ← exec env (Sqlite.write Content.createFriendships)
    pure ()
  | .friendshipsIndex name => do
    let _ ← exec env (Sqlite.write (Content.createFriendshipsIndex name))
    pure ()

end Creation

/-- What `migrate` creates for version 1, in order. -/
def creations : List Creation :=
  [.table .users, .table .messages, .table .groups, .table .group_members,
    .index .users "idx_users_id", .index .users "idx_users_nickname",
    .index .messages "idx_messages_from_id", .index .messages "idx_messages_to_id",
    .index .messages "idx_messages_group_id", .index .messages "idx_messages_timestamp",
    .index .groups "idx_groups_group_id", .index .group_members "idx_gm_user_id",
    .index .group_members "idx_gm_group_id",
    .friendships, .friendshipsIndex "idx_fs_from", .friendshipsIndex "idx_fs_to", .friendshipsIndex "idx_fs_both"]

/-- Every table and index of version 1 is there. -/
def Complete (c : Content) : Prop := ∀ creation ∈ creations, creation.there c = true

/-- A statement of `migrate`. -/
inductive Statement where
  | create (creation : Creation)
  | version (number : Int32)

def Statement.run (env : Env) : Statement → DbM Unit
  | .create creation => creation.run env
  | .version number => setSchemaVersion env number

/-- The statements of one round of the loop. -/
def statementsAt (current : Int32) : List Statement :=
  if current = 0 then creations.map Statement.create ++ [.version 1] else [.version (current + 1)]

/-- The statements of the loop, `steps` versions from `current`. -/
def statementsFrom (current : Int32) : Nat → List Statement
  | 0 => []
  | steps + 1 => statementsAt current ++ statementsFrom (current + 1) steps

section Statements

variable {β : Type}

theorem each_append (xs ys : List β) (body : β → DbM Unit) :
    Cmd.each (xs ++ ys) body = Cmd.each xs body >>= fun _ => Cmd.each ys body := by
  induction xs with
  | nil => simp [Cmd.each]
  | cons x xs ih => simp only [List.cons_append, Cmd.each, ih, bind_assoc]

theorem migrateStep_eq (env : Env) (current : Int32) :
    migrateStep env current = Cmd.each (statementsAt current) (Statement.run env) := by
  unfold migrateStep statementsAt
  split
  · rw [each_append]
    simp only [migrateToOne, createFriendshipsTable, creations, List.map, Cmd.each, Statement.run, Creation.run,
      bind_assoc, pure_bind, bind_pure_unit]
  · simp only [Cmd.each, Statement.run, bind_pure_unit]

theorem migrateFrom_eq (env : Env) (current : Int32) (steps : Nat) :
    migrateFrom env current steps = Cmd.each (statementsFrom current steps) (Statement.run env) := by
  induction steps generalizing current with
  | zero => rfl
  | succ steps ih =>
    rw [statementsFrom, each_append, ← migrateStep_eq, ← ih]
    rfl

end Statements

/-! ## Rewriting the version -/

/-- The contents with other documents of the version table. -/
def withVersions (base : Content) (texts : List Bytes) : Content :=
  { base with docs := Function.update base.docs .schema_version (some texts) }

/-- A connection to a file with these documents of the version table, and the
documents in the open transaction. -/
def versionSlot (base : Content) (file : List Bytes) (pending : Option (List Bytes)) : Sqlite :=
  ⟨withVersions base file, pending.map (withVersions base)⟩

section Slot

variable {base : Content} {file texts : List Bytes} {pending : Option (List Bytes)} {text : Bytes}

theorem docs_withVersions : (withVersions base texts).docs .schema_version = some texts := by simp [withVersions]

theorem begin_slot_none :
    Sqlite.begin (versionSlot base file none) = some (versionSlot base file (some file)) := rfl

theorem begin_slot_some : Sqlite.begin (versionSlot base file (some texts)) = none := rfl

theorem commit_slot_some :
    Sqlite.commit (versionSlot base file (some texts)) = some (versionSlot base texts none) := rfl

theorem commit_slot_none : Sqlite.commit (versionSlot base file none) = none := rfl

theorem rollback_slot_some :
    Sqlite.rollback (versionSlot base file (some texts)) = some (versionSlot base file none) := rfl

theorem rollback_slot_none : Sqlite.rollback (versionSlot base file none) = none := rfl

/-- A change of the version table goes to the open transaction, if there is one. -/
theorem write_slot {change : Content → Option Content} {f : List Bytes → List Bytes}
    (h : ∀ texts, change (withVersions base texts) = some (withVersions base (f texts))) :
    Sqlite.write change (versionSlot base file pending) =
      some (versionSlot base (if pending.isSome then file else f file) (pending.map f)) := by
  cases pending with
  | none => simp [Sqlite.write, versionSlot, h]
  | some texts => simp [Sqlite.write, versionSlot, h]

theorem deleteAll_slot (texts : List Bytes) :
    Content.deleteAll .schema_version (withVersions base texts) = some (withVersions base []) := by
  simp [Content.deleteAll, withVersions]

theorem insertDoc_slot (text : Bytes) (texts : List Bytes) :
    Content.insertDoc .schema_version text (withVersions base texts) = some (withVersions base (texts ++ [text])) := by
  simp [Content.insertDoc, withVersions]

end Slot

/-- The version row is deleted, is not written again, and this is committed. The
calls are `BEGIN`, `DELETE`, the preparation of `INSERT`, `INSERT` unless that
has failed, and `COMMIT`. -/
def clears (env : Env) (db : Database) : Bool :=
  let fails (i : Nat) := env.sqliteFails (db.calls + i)
  let committed (i : Nat) := (db.sqlite.transaction.isNone && fails 0) || !fails i
  !fails 1 && (if fails 2 then committed 3 else fails 3 && committed 4)

section Save

variable {env : Env} {db : Database} {base : Content} {file : List Bytes} {pending : Option (List Bytes)}

theorem exec_apply (statement : Sqlite → Option Sqlite) (db : Database) :
    exec env statement db = ⟨.ok ((statement db.sqlite).isSome && !env.sqliteFails db.calls), { db with
      sqlite := if env.sqliteFails db.calls then db.sqlite else (statement db.sqlite).getD db.sqlite,
      calls := db.calls + 1 }, []⟩ := by
  cases hs : statement db.sqlite with
  | none => rw [run_exec_none hs]; simp
  | some s => rw [run_exec_eq hs]; simp

theorem prepare_apply (name : TableName) (db : Database) :
    prepare env name db = ⟨.ok (!env.sqliteFails db.calls && (db.sqlite.view.docs name).isSome),
      { db with calls := db.calls + 1 }, []⟩ := rfl

theorem view_slot : ((versionSlot base file pending).view.docs .schema_version).isSome = true := by
  cases pending with
  | none => simp [versionSlot, Sqlite.view, docs_withVersions]
  | some texts => simp [versionSlot, Sqlite.view, docs_withVersions]

/-- What `COMMIT` leaves in the file. -/
theorem exec_commit (hslot : db.sqlite = versionSlot base file pending) :
    ∃ file' pending', (exec env Sqlite.commit db).state.sqlite = versionSlot base file' pending' ∧
      file' = if env.sqliteFails db.calls then file else pending.getD file := by
  rw [exec_apply, hslot]
  cases pending with
  | none => exact ⟨file, none, by simp [commit_slot_none], by simp⟩
  | some texts =>
    cases hf : env.sqliteFails db.calls with
    | true => exact ⟨file, some texts, by simp, by simp⟩
    | false => exact ⟨texts, none, by simp [commit_slot_some], by simp⟩

/-- What the statements between `BEGIN` and `COMMIT` leave once the rows are deleted. -/
theorem insertRows_slot {row : Row} (hslot : db.sqlite = versionSlot base file pending)
    (hempty : pending.getD file = []) :
    ∃ texts, (insertRows env .schema_version [row] db).state.sqlite =
        versionSlot base (if pending.isSome then file else texts) (pending.map fun _ => texts) ∧
      (insertRows env .schema_version [row] db).result = .ok () ∧
      if env.sqliteFails db.calls then texts = [] ∧ (insertRows env .schema_version [row] db).state.calls = db.calls + 1
      else texts = (if env.sqliteFails (db.calls + 1) then [] else [serialize row]) ∧
        (insertRows env .schema_version [row] db).state.calls = db.calls + 2 := by
  obtain ⟨sqlite, tables, calls, readings, draws⟩ := db
  subst hslot
  have hrow : ∀ db : Database, Cmd.each [row] (fun row => do
        let _ ← exec env (Sqlite.write (Content.insertDoc .schema_version (serialize row)))
        pure ()) db =
      ⟨.ok (), (exec env (Sqlite.write (Content.insertDoc .schema_version (serialize row))) db).state, []⟩ := by
    intro db
    simp only [Cmd.each, bind_pure_unit]
    rw [Cmd.bind_of_run _ (exec_apply ..), exec_apply]
    rfl
  unfold insertRows
  rw [Cmd.bind_of_run _ (prepare_apply ..), view_slot, Bool.and_true]
  cases hprepare : env.sqliteFails calls with
  | true =>
    refine ⟨[], ?_, rfl, rfl, rfl⟩
    show versionSlot base file pending = _
    cases pending with
    | none => rw [show file = [] from hempty]; rfl
    | some texts => rw [show texts = [] from hempty]; rfl
  | false =>
    simp only [Cmd.when, Bool.not_false, if_true, hrow, exec_apply, write_slot (insertDoc_slot _)]
    refine ⟨if env.sqliteFails (calls + 1) then [] else [serialize row], ?_, trivial, rfl, trivial⟩
    cases hinsert : env.sqliteFails (calls + 1) with
    | true =>
      cases pending with
      | none => simp [show file = [] from hempty]
      | some texts => simp [show texts = [] from hempty]
    | false =>
      cases pending with
      | none => simp [show file = [] from hempty]
      | some texts => simp [show texts = [] from hempty]

/-- The version table as it is left by rewriting its one row. -/
theorem slot_saveVersion {row : Row} (hcached : db.tables .schema_version = some [row])
    (hslot : db.sqlite = versionSlot base file pending) :
    ∃ file' pending', (saveTable env .schema_version db).state.sqlite = versionSlot base file' pending' ∧
      (file' = file ∨ file' = [serialize row] ∨ file' = [] ∧ clears env db = true) := by
  let begun : Option (List Bytes) := pending <|> if env.sqliteFails db.calls then none else some file
  have hbegin : (if env.sqliteFails db.calls then db.sqlite else (Sqlite.begin db.sqlite).getD db.sqlite) =
      versionSlot base file begun := by
    rw [hslot]
    cases pending with
    | none => cases hf : env.sqliteFails db.calls <;> simp [begun, hf, begin_slot_none]
    | some texts => cases hf : env.sqliteFails db.calls <;> simp [begun, begin_slot_some]
  have hnone : begun = none → db.sqlite.transaction.isNone = true ∧ env.sqliteFails db.calls = true := by
    intro h
    cases pending with
    | none =>
      cases hf : env.sqliteFails db.calls with
      | false => simp [begun, hf] at h
      | true => exact ⟨by rw [hslot]; rfl, rfl⟩
    | some texts => simp [begun] at h
  unfold saveTable
  rw [Cmd.bind_of_run _ (Cmd.asks_apply ..)]
  simp only [hcached]
  rw [Cmd.bind_of_run _ (exec_apply ..), hbegin, Cmd.bind_of_run _ (exec_apply ..)]
  simp only [write_slot deleteAll_slot, Option.isSome_some, Bool.true_and, Option.getD_some]
  cases hdelete : env.sqliteFails (db.calls + 1) with
  | true =>
    simp only [Bool.not_true, Bool.false_eq_true, if_false, if_true]
    rw [Cmd.bind_of_run _ (exec_apply ..)]
    cases begun with
    | none => exact ⟨file, none, by simp [rollback_slot_none], .inl rfl⟩
    | some texts =>
      cases hroll : env.sqliteFails (db.calls + 1 + 1) with
      | true => exact ⟨file, some texts, by simp, .inl rfl⟩
      | false => exact ⟨file, none, by simp [rollback_slot_some], .inl rfl⟩
  | false =>
    simp only [Bool.not_false, if_true, Bool.false_eq_true, if_false]
    obtain ⟨texts, hinserted, hok, hcalls⟩ := @insertRows_slot env
      { db with
        sqlite := versionSlot base (if begun.isSome then file else []) (begun.map fun _ => [])
        calls := db.calls + 1 + 1 } base _ _ row rfl (by cases begun <;> rfl)
    obtain ⟨file', pending', hsqlite, hfile⟩ := @exec_commit env _ base _ _ hinserted
    refine ⟨file', pending', ?_, ?_⟩
    · rw [Cmd.bind_ok _ hok, Cmd.bind_of_run _ (exec_apply ..), ← hsqlite, exec_apply]
      rfl
    have hcommitted : ∀ i, (insertRows env .schema_version [row] { db with
          sqlite := versionSlot base (if begun.isSome then file else []) (begun.map fun _ => [])
          calls := db.calls + 1 + 1 }).state.calls = db.calls + i →
        file' = file ∨ file' = texts ∧
          (db.sqlite.transaction.isNone && env.sqliteFails (db.calls + 0) || !env.sqliteFails (db.calls + i)) = true := by
      intro i hcalls
      rw [hcalls] at hfile
      cases hbegun : begun with
      | none => exact .inr ⟨by simpa [hbegun] using hfile, by simp [(hnone hbegun).1, (hnone hbegun).2]⟩
      | some pending =>
        cases hcommit : env.sqliteFails (db.calls + i) with
        | true => exact .inl (by simpa [hbegun, hcommit] using hfile)
        | false => exact .inr ⟨by simpa [hbegun, hcommit] using hfile, by simp⟩
    cases hprepare : env.sqliteFails (db.calls + 2) with
    | true =>
      simp only [show db.calls + 1 + 1 = db.calls + 2 from rfl, hprepare, if_true] at hcalls
      obtain ⟨rfl, hcalls⟩ := hcalls
      refine (hcommitted 3 hcalls).imp_right fun ⟨hempty, hcommit⟩ => .inr ⟨hempty, ?_⟩
      simp only [clears, hdelete, hprepare, hcommit, if_true]
      rfl
    | false =>
      simp only [show db.calls + 1 + 1 = db.calls + 2 from rfl, hprepare, Bool.false_eq_true, if_false] at hcalls
      obtain ⟨rfl, hcalls⟩ := hcalls
      refine (hcommitted 4 hcalls).imp_right fun ⟨hwritten, hcommit⟩ => ?_
      cases hinsert : env.sqliteFails (db.calls + 3) with
      | true =>
        refine .inr ⟨by simpa [hinsert] using hwritten, ?_⟩
        simp only [clears, hdelete, hprepare, hinsert, hcommit, Bool.false_eq_true, if_false]
        rfl
      | false => exact .inl (by simpa [hinsert] using hwritten)

end Save

/-! ## What a migration keeps -/

/-- The version table with this version; a version of 0 may be stored by no row. -/
def versionRows (version : Option Int32) : RowList := version.toList.map versionRow

def versionTexts (version : Option Int32) : List Bytes := (versionRows version).map serialize

def versionNumber (version : Option Int32) : Int32 := version.getD 0

/-- The contents of a database and its versions: the one stored in the file and
the one in memory. -/
structure Versioned (base : Content) (stored version : Option Int32) (pending : Option (List Bytes)) (db : Database) :
    Prop where
  cached : db.tables .schema_version = some (versionRows version)
  slot : db.sqlite = versionSlot base (versionTexts stored) pending
  nonneg : 0 ≤ versionNumber stored
  le : versionNumber stored ≤ versionNumber version
  complete : 1 ≤ versionNumber version → Complete base
  idle : versionNumber version = 0 → pending = none

section Versions

variable {env : Env} {db : Database} {base : Content} {stored version : Option Int32} {pending : Option (List Bytes)}

theorem find?_versionRow (number : Int32) : (versionRow number).find? (lit "version") = some (ofInt32 number) := by
  simp [versionRow, find?_object]

theorem Versioned.schemaVersion (h : Versioned base stored version pending db) :
    schemaVersion env db = ⟨.ok (versionNumber version), db, []⟩ := by
  have hall : queryAll env .schema_version db = ⟨.ok (versionRows version), db, []⟩ := by
    unfold queryAll rows
    rw [Cmd.bind_of_run _ (loadTable_of_cached h.cached), Cmd.asks_apply, h.cached]
    rfl
  unfold Database.schemaVersion
  rw [Cmd.bind_of_run _ hall]
  cases version with
  | none => rfl
  | some number =>
    have hfield : atField (versionRow number) "version" = .ok (ofInt32 number) := by
      rw [atField, find?_versionRow]
    simp only [versionRows, Option.toList, List.map_cons, List.map_nil, hfield]
    rw [Cmd.bind_of_run _ (Cmd.ofExcept_apply ..), Cmd.pure_apply]
    simp [ofInt32, Value.asInt, versionNumber]

/-- Writing a version changes the table in memory and saves it. -/
theorem run_setSchemaVersion (h : Versioned base stored version pending db) (number : Int32) :
    setSchemaVersion env number db = saveTable env .schema_version { db with
      tables := Function.update db.tables .schema_version (some [versionRow number]) } := by
  have hall : queryAll env .schema_version db = ⟨.ok (versionRows version), db, []⟩ := by
    unfold queryAll rows
    rw [Cmd.bind_of_run _ (loadTable_of_cached h.cached), Cmd.asks_apply, h.cached]
    rfl
  unfold setSchemaVersion
  rw [Cmd.bind_of_run _ hall]
  have hcached := h.cached
  cases version with
  | none =>
    show insert env .schema_version (versionRow number) db = _
    unfold insert Database.rows
    rw [Cmd.bind_of_run _ (loadTable_of_cached hcached), Cmd.bind_of_run _ (Cmd.asks_apply ..), hcached]
    exact Cmd.bind_of_run _ (run_setTable ..)
  | some current =>
    show (update env .schema_version (fun _ => .ok true) (fun row => row.put (lit "version") (ofInt32 number)) >>=
      fun _ => pure ()) db = _
    have hupdate := @update_of_cached env .schema_version db (fun _ => true)
      (fun row => row.put (lit "version") (ofInt32 number)) _ hcached
    have hsame : ∀ {c d : DbM Bool}, c db = d db → (c >>= fun _ => pure ()) db = (d >>= fun _ => pure ()) db :=
      fun h => by rw [Cmd.bind_apply, Cmd.andThen, h, ← Cmd.andThen, ← Cmd.bind_apply]
    rw [hsame hupdate]
    simp only [bind_assoc, pure_bind, bind_pure_unit]
    exact Cmd.bind_of_run _ (run_setTable ..)

/-- A version that is not smaller is written, or the one in the file stays. -/
theorem Versioned.write (h : Versioned base stored version pending db) {number : Int32} (hpos : 1 ≤ number)
    (hle : versionNumber version ≤ number) (hcomplete : Complete base)
    (hcareful : versionNumber stored ≤ 0 ∨ clears env db = false) :
    ∃ stored' pending', (setSchemaVersion env number db).result = .ok () ∧
      Versioned base stored' (some number) pending' (setSchemaVersion env number db).state ∧
      versionNumber stored ≤ versionNumber stored' := by
  rw [run_setSchemaVersion h]
  obtain ⟨_, hok⟩ := @returns_saveTable env .schema_version { db with
    tables := Function.update db.tables .schema_version (some [versionRow number]) }
  obtain ⟨file', pending', hslot, hfile⟩ := @slot_saveVersion env { db with
    tables := Function.update db.tables .schema_version (some [versionRow number]) } base _ pending (versionRow number)
      (by simp) h.slot
  have hcached : (saveTable env .schema_version { db with
      tables := Function.update db.tables .schema_version (some [versionRow number]) }).state.tables .schema_version =
        some [versionRow number] := by
    rw [show (saveTable env .schema_version _).state.tables = _ from leaves_tables_saveTable _]
    simp
  have hbuild : ∀ stored', file' = versionTexts stored' → versionNumber stored ≤ versionNumber stored' →
      versionNumber stored' ≤ number → Versioned base stored' (some number) pending' (saveTable env .schema_version { db with
        tables := Function.update db.tables .schema_version (some [versionRow number]) }).state := by
    rintro stored' rfl hstored hnumber
    refine ⟨hcached, hslot, Int32.le_trans h.nonneg hstored, hnumber, fun _ => hcomplete, fun h0 => ?_⟩
    rw [show number = 0 from h0] at hpos
    exact absurd hpos (by decide)
  rcases hfile with hsame | hnew | ⟨hempty, hclears⟩
  · exact ⟨stored, pending', hok, hbuild stored hsame (Int32.le_refl _) (Int32.le_trans h.le hle), Int32.le_refl _⟩
  · have hup := Int32.le_trans h.le hle
    exact ⟨some number, pending', hok, hbuild (some number) hnew hup (Int32.le_refl _), hup⟩
  · have hzero : versionNumber stored ≤ 0 := by
      rcases hcareful with h0 | hnot
      · exact h0
      · rw [show clears env db = true from hclears] at hnot
        cases hnot
    exact ⟨none, pending', hok, hbuild none hempty hzero (Int32.le_trans (by decide) hpos), hzero⟩

end Versions

/-! ## Creating what is missing -/

/-- It is not the version table, nor an index of it. -/
def Creation.Apart (creation : Creation) : Prop :=
  creation ≠ .table .schema_version ∧ creation.owner ≠ some (.table .schema_version)

instance (creation : Creation) : Decidable creation.Apart := inferInstanceAs (Decidable (_ ∧ _))

/-- Nothing that is there is lost. -/
def Grows (c c' : Content) : Prop := ∀ creation : Creation, creation.there c = true → creation.there c' = true

section Creations

variable {env : Env} {db : Database} {base base' : Content} {texts : List Bytes} {creation : Creation}

theorem grows_createIndexes (c : Content) (name : String) :
    Grows c { c with indexes := if name ∈ c.indexes then c.indexes else c.indexes ++ [name] } := by
  rintro (_ | ⟨_, other⟩ | _ | other) h
  · exact h
  · simp only [Creation.there, decide_eq_true_eq] at h ⊢
    split
    · exact h
    · exact List.mem_append_left _ h
  · exact h
  · simp only [Creation.there, decide_eq_true_eq] at h ⊢
    split
    · exact h
    · exact List.mem_append_left _ h

theorem mem_createIndexes (c : Content) (name : String) :
    name ∈ (if name ∈ c.indexes then c.indexes else c.indexes ++ [name]) := by
  split
  · assumption
  · exact List.mem_append_right _ (List.mem_singleton_self name)

/-- A statement that succeeds creates what it is to create. -/
theorem grows_change (h : creation.change base = some base') : Grows base base' ∧ creation.there base' = true := by
  cases creation with
  | table name =>
    simp only [Creation.change, Content.createTable] at h
    cases hdocs : base.docs name with
    | some texts =>
      rw [hdocs] at h
      cases h
    | none =>
      rw [hdocs] at h
      cases h
      refine ⟨?_, by simp [Creation.there]⟩
      rintro (other | _ | _ | _) hthere
      · rcases eq_or_ne other name with rfl | hne
        · simp [Creation.there]
        · simpa [Creation.there, hne] using hthere
      · exact hthere
      · exact hthere
      · exact hthere
  | index on name =>
    obtain ⟨_, -, rfl⟩ := Option.map_eq_some_iff.mp h
    exact ⟨grows_createIndexes base name, decide_eq_true (mem_createIndexes base name)⟩
  | friendships =>
    cases h
    refine ⟨?_, rfl⟩
    rintro (_ | _ | _ | _) hthere
    · exact hthere
    · exact hthere
    · rfl
    · exact hthere
  | friendshipsIndex name =>
    obtain ⟨_, -, rfl⟩ := Option.map_eq_some_iff.mp h
    exact ⟨grows_createIndexes base name, decide_eq_true (mem_createIndexes base name)⟩

/-- What is missing can be created if the table it belongs to is there. -/
theorem isSome_change (howner : ∀ owner, creation.owner = some owner → owner.there base = true)
    (hmissing : creation.there base = false) : (creation.change base).isSome := by
  cases creation with
  | table name =>
    have hnone : base.docs name = none := by simpa [Creation.there] using hmissing
    simp [Creation.change, Content.createTable, hnone]
  | index on name =>
    have htable : (base.docs on).isSome = true := howner _ rfl
    simpa [Creation.change, Content.createIndex] using htable
  | friendships => rfl
  | friendshipsIndex name =>
    have htable : base.friendships.isSome = true := howner _ rfl
    simpa [Creation.change, Content.createFriendshipsIndex] using htable

theorem there_withVersions (h : creation.Apart) :
    creation.there (withVersions base texts) = creation.there base := by
  cases creation with
  | table name =>
    have hne : name ≠ .schema_version := fun heq => h.1 (heq ▸ rfl)
    simp [Creation.there, withVersions, hne]
  | index on name => rfl
  | friendships => rfl
  | friendshipsIndex name => rfl

theorem change_withVersions (h : creation.Apart) :
    creation.change (withVersions base texts) = (creation.change base).map fun c => withVersions c texts := by
  cases creation with
  | table name =>
    have hne : name ≠ .schema_version := fun heq => h.1 (heq ▸ rfl)
    simp only [Creation.change, Content.createTable, withVersions, Function.update_of_ne hne]
    cases base.docs name with
    | some texts => rfl
    | none =>
      simp only [Option.map_some, Option.some.injEq, Content.mk.injEq, and_true]
      exact Function.update_comm hne.symm _ _ _
  | index on name =>
    have hne : on ≠ .schema_version := fun heq => h.2 (heq ▸ rfl)
    simp only [Creation.change, Content.createIndex, withVersions, Function.update_of_ne hne]
    cases base.docs on <;> rfl
  | friendships => rfl
  | friendshipsIndex name =>
    simp only [Creation.change, Content.createFriendshipsIndex, withVersions]
    cases base.friendships <;> rfl

/-- What one statement leaves: the missing table or index is there, unless the
call has failed or the statement was refused. -/
theorem exec_creation (h : creation.Apart) (hslot : db.sqlite = versionSlot base texts none) :
    ∃ base', (exec env (Sqlite.write creation.change) db).state.sqlite = versionSlot base' texts none ∧
      Grows base base' ∧ (creation.there base' = true ∨ creation.there base = false ∧
        (env.sqliteFails db.calls = true ∨ creation.change base = none)) := by
  have hbase := Bool.eq_false_or_eq_true (creation.there base)
  rw [exec_apply, hslot]
  have hwrite : Sqlite.write creation.change (versionSlot base texts none) =
      (creation.change base).map fun c => versionSlot c texts none := by
    simp only [Sqlite.write, versionSlot, Option.map_none, change_withVersions h, Option.map_map]
    rfl
  simp only [hwrite]
  cases hchange : creation.change base with
  | none => exact ⟨base, by simp, fun _ => id, hbase.imp_right fun h => ⟨h, .inr rfl⟩⟩
  | some base' =>
    cases hfails : env.sqliteFails db.calls with
    | true => exact ⟨base, by simp, fun _ => id, hbase.imp_right fun h => ⟨h, .inl rfl⟩⟩
    | false => exact ⟨base', by simp, (grows_change hchange).1, .inl (grows_change hchange).2⟩

theorem tableExists_apply (name : TableName) (db : Database) :
    ∃ calls, tableExists env name db = ⟨.ok (!env.sqliteFails db.calls && !env.sqliteFails (db.calls + 1) &&
      (db.sqlite.view.docs name).isSome), { db with calls := calls }, []⟩ := by
  unfold tableExists
  cases hprepare : env.sqliteFails db.calls with
  | true =>
    refine ⟨db.calls + 1, ?_⟩
    rw [Cmd.bind_of_run _ (show call env db = ⟨.ok (!env.sqliteFails db.calls), { db with calls := db.calls + 1 }, []⟩
      from rfl), hprepare]
    rfl
  | false =>
    refine ⟨db.calls + 1 + 1, ?_⟩
    rw [Cmd.bind_of_run _ (show call env db = ⟨.ok (!env.sqliteFails db.calls), { db with calls := db.calls + 1 }, []⟩
      from rfl), hprepare]
    rfl

/-- What one step of the creation leaves; its last call is the statement, if
anything is missing. -/
theorem run_creation (h : creation.Apart) (hslot : db.sqlite = versionSlot base texts none) :
    ∃ base', (creation.run env db).result = .ok () ∧ (creation.run env db).state.tables = db.tables ∧
      (creation.run env db).state.sqlite = versionSlot base' texts none ∧ Grows base base' ∧
      (creation.there base' = true ∨ creation.there base = false ∧
        (env.sqliteFails ((creation.run env db).state.calls - 1) = true ∨ creation.change base = none)) := by
  have hexec : ∀ db : Database, db.sqlite = versionSlot base texts none →
      ∃ base', ((do let _ ← exec env (Sqlite.write creation.change); pure ()) : DbM Unit) db =
        ⟨.ok (), { db with sqlite := versionSlot base' texts none, calls := db.calls + 1 }, []⟩ ∧ Grows base base' ∧
      (creation.there base' = true ∨ creation.there base = false ∧
        (env.sqliteFails db.calls = true ∨ creation.change base = none)) := by
    intro db hslot
    obtain ⟨base', hsqlite, hrest⟩ := @exec_creation env db base texts creation h hslot
    refine ⟨base', ?_, hrest⟩
    rw [Cmd.bind_of_run _ (exec_apply ..), ← hsqlite, exec_apply]
    rfl
  have hplain : ∀ {c : DbM Unit}, c = (do let _ ← exec env (Sqlite.write creation.change); pure ()) →
      ∃ base', (c db).result = .ok () ∧ (c db).state.tables = db.tables ∧
        (c db).state.sqlite = versionSlot base' texts none ∧ Grows base base' ∧
        (creation.there base' = true ∨ creation.there base = false ∧
          (env.sqliteFails ((c db).state.calls - 1) = true ∨ creation.change base = none)) := by
    rintro c rfl
    obtain ⟨base', hrun, hrest⟩ := hexec db hslot
    rw [hrun]
    exact ⟨base', rfl, rfl, rfl, hrest⟩
  cases creation with
  | table name =>
    obtain ⟨calls, hknown⟩ := @tableExists_apply env name db
    have hdocs : (db.sqlite.view.docs name).isSome = Creation.there (.table name) base := by
      have hapart := @there_withVersions base texts (.table name) h
      rw [hslot, ← hapart]
      rfl
    rw [hdocs] at hknown
    simp only [Creation.run, ensureTable]
    rw [Cmd.bind_of_run _ hknown]
    cases hthere : Creation.there (.table name) base with
    | true =>
      cases !env.sqliteFails db.calls && !env.sqliteFails (db.calls + 1) with
      | true => exact ⟨base, rfl, rfl, hslot, fun _ => id, .inl hthere⟩
      | false =>
        obtain ⟨base', hrun, hgrows, -⟩ := hexec { db with calls := calls } hslot
        refine ⟨base', ?_⟩
        simp only [Bool.and_true, Bool.false_eq_true, if_false]
        rw [show Content.createTable name = Creation.change (.table name) from rfl, hrun]
        exact ⟨rfl, rfl, rfl, hgrows, .inl (hgrows _ hthere)⟩
    | false =>
      obtain ⟨base', hrun, hgrows, hcreated⟩ := hexec { db with calls := calls } hslot
      refine ⟨base', ?_⟩
      simp only [Bool.and_false, Bool.false_eq_true, if_false]
      rw [show Content.createTable name = Creation.change (.table name) from rfl, hrun]
      exact ⟨rfl, rfl, rfl, hgrows, hcreated.imp_right fun h => ⟨trivial, h.2⟩⟩
  | index on name => exact hplain rfl
  | friendships => exact hplain rfl
  | friendshipsIndex name => exact hplain rfl

end Creations

/-! ## Whole migrations -/

/-- The version that `schemaVersion` reads from a file. -/
def storedVersion (c : Content) : Int32 :=
  match readable ((c.docs .schema_version).getD []) with
  | [] => 0
  | row :: _ => ((row.find? (lit "version")).elim 0 Value.asInt).toInt32

/-- One statement of a migration. -/
def executes (env : Env) (db : Database) (statement : Statement) : Option Database :=
  match (statement.run env db).result with
  | .ok _ => some (statement.run env db).state
  | .error _ => none

/-- The statement may fail only where nothing is missing, or no stored version is
lost. The last SQLite call of a creation is the one that creates. -/
def Statement.Careful (env : Env) (db : Database) : Statement → Prop
  | .create creation => creation.there db.sqlite.view = true ∨
      env.sqliteFails ((creation.run env db).state.calls - 1) = false
  | .version _ => storedVersion db.sqlite.file ≤ 0 ∨ clears env db = false

section Migrations

variable {env : Env} {db db' : Database} {base : Content} {stored version : Option Int32}
  {pending : Option (List Bytes)}

theorem each_of_run {statements : List Statement} (h : Lib.run (executes env) db statements = some db') :
    Cmd.each statements (Statement.run env) db = ⟨.ok (), db', []⟩ := by
  induction statements generalizing db with
  | nil =>
    cases h
    rfl
  | cons statement statements ih =>
    obtain ⟨t, ht, hrest⟩ := run_cons_eq_some.mp h
    unfold executes at ht
    split at ht
    · next hok =>
      cases ht
      rw [Cmd.each, Cmd.bind_ok _ hok, ih hrest, Cmd.out_eq_nil]
      rfl
    · cases ht

theorem plain_versionRow (number : Int32) : (Value.obj (versionRow number)).Plain :=
  plain_object (by simpa using .int _)

theorem nulFree_versionRow (number : Int32) : (Value.obj (versionRow number)).NulFree := by
  refine .obj (fun e he => ?_) fun e he => ?_
  · rw [List.mem_singleton.mp he]
    show 0 ∉ lit "version"
    decide
  · rw [List.mem_singleton.mp he]
    exact .int _

theorem storedVersion_withVersions : storedVersion (withVersions base (versionTexts stored)) = versionNumber stored := by
  unfold storedVersion
  rw [docs_withVersions, Option.getD_some]
  cases stored with
  | none => rfl
  | some number =>
    have hread : readable (versionTexts (some number)) = [versionRow number] := by
      simp [readable, versionTexts, versionRows, loadRow_serialize (plain_versionRow number) (nulFree_versionRow number)]
    simp [hread, find?_versionRow, ofInt32, Value.asInt, versionNumber]

/-- Every index comes after its table. -/
def ordered : List Creation → List Creation → Bool
  | _, [] => true
  | done, creation :: todo => creation.owner.all (· ∈ done) && ordered (creation :: done) todo

/-- The creations of version 1, from a state in which some have been made. -/
theorem run_creations {done todo : List Creation} (hordered : ordered done todo = true)
    (hapart : ∀ creation ∈ todo, creation.Apart) (h : Versioned base stored version none db)
    (h0 : versionNumber version = 0) (hdone : ∀ creation ∈ done, creation.there base = true)
    (hcareful : Along (executes env) (Statement.Careful env) db (todo.map .create)) :
    ∃ base' db', Lib.run (executes env) db (todo.map .create) = some db' ∧ Versioned base' stored version none db' ∧
      ∀ creation, creation ∈ done ∨ creation ∈ todo → creation.there base' = true := by
  induction todo generalizing done base db with
  | nil => exact ⟨base, db, rfl, h, fun creation hmem => hdone creation (hmem.resolve_right List.not_mem_nil)⟩
  | cons creation todo ih =>
    have haparts := hapart creation List.mem_cons_self
    obtain ⟨base', hok, htables, hslot, hgrows, hcreated⟩ := @run_creation env db base _ creation haparts h.slot
    have hstep : executes env db (.create creation) = some (creation.run env db).state := by
      simp only [executes, Statement.run, hok]
    obtain ⟨hcare, hrest⟩ := hcareful _ hstep
    rw [ordered, Bool.and_eq_true] at hordered
    have howner : ∀ owner, creation.owner = some owner → owner.there base = true := by
      intro owner howner
      have hmem := hordered.1
      rw [howner] at hmem
      exact hdone owner (of_decide_eq_true hmem)
    have hview : creation.there db.sqlite.view = creation.there base := by
      rw [h.slot]
      exact there_withVersions haparts
    have hthere : creation.there base' = true := by
      refine hcreated.resolve_right fun ⟨hmissing, hfailed⟩ => ?_
      rcases hcare with hpresent | hserves
      · rw [hview, hmissing] at hpresent
        cases hpresent
      · rcases hfailed with hfails | hrefused
        · rw [hfails] at hserves
          cases hserves
        · have hsome := isSome_change howner hmissing
          rw [hrefused] at hsome
          cases hsome
    have h' : Versioned base' stored version none (creation.run env db).state := {
      cached := htables ▸ h.cached
      slot := hslot
      nonneg := h.nonneg
      le := h.le
      complete := fun hpos => absurd (h0 ▸ hpos) (by decide)
      idle := fun _ => rfl }
    have hdone' : ∀ c ∈ creation :: done, c.there base' = true := by
      intro c hc
      rcases List.mem_cons.mp hc with rfl | hc
      · exact hthere
      · exact hgrows c (hdone c hc)
    obtain ⟨base'', db'', hrun, hversioned, hall⟩ :=
      ih hordered.2 (fun c hc => hapart c (List.mem_cons_of_mem _ hc)) h' hdone' hrest
    refine ⟨base'', db'', run_cons_eq_some.mpr ⟨_, hstep, hrun⟩, hversioned, fun c hc => hall c ?_⟩
    rcases hc with hc | hc
    · exact .inl (List.mem_cons_of_mem _ hc)
    · rcases List.mem_cons.mp hc with rfl | hc
      · exact .inl List.mem_cons_self
      · exact .inr hc

/-- One round of the loop of `migrate`. -/
theorem run_statementsAt (h : Versioned base stored version pending db)
    (hroom : (versionNumber version).toInt < 2 ^ 31 - 1)
    (hcareful : Along (executes env) (Statement.Careful env) db (statementsAt (versionNumber version))) :
    ∃ base' stored' pending' db', Lib.run (executes env) db (statementsAt (versionNumber version)) = some db' ∧
      Versioned base' stored' (some (versionNumber version + 1)) pending' db' ∧
      versionNumber stored ≤ versionNumber stored' := by
  have hwrite : ∀ {base pending db} (number : Int32), Versioned base stored version pending db → 1 ≤ number →
      versionNumber version ≤ number → Complete base → Along (executes env) (Statement.Careful env) db [.version number] →
      ∃ stored' pending' db', Lib.run (executes env) db [.version number] = some db' ∧
        Versioned base stored' (some number) pending' db' ∧ versionNumber stored ≤ versionNumber stored' := by
    intro base pending db number h hpos hle hcomplete hcareful
    have hok : (setSchemaVersion env number db).result = .ok () := by
      rw [run_setSchemaVersion h]
      obtain ⟨_, hok⟩ := @returns_saveTable env .schema_version { db with
        tables := Function.update db.tables .schema_version (some [versionRow number]) }
      exact hok
    have hstep : executes env db (.version number) = some (setSchemaVersion env number db).state := by
      simp only [executes, Statement.run, hok]
    have hcare := (hcareful _ hstep).1
    rw [Statement.Careful, h.slot, show (versionSlot base (versionTexts stored) pending).file =
      withVersions base (versionTexts stored) from rfl, storedVersion_withVersions] at hcare
    obtain ⟨stored', pending', -, hversioned, hstored⟩ := h.write hpos hle hcomplete hcare
    exact ⟨stored', pending', _, by rw [Lib.run, hstep]; rfl, hversioned, hstored⟩
  have hnonneg := Int32.le_trans h.nonneg h.le
  have hnext := toInt_add_one hroom
  unfold statementsAt at hcareful ⊢
  by_cases h0 : versionNumber version = 0
  · rw [if_pos h0] at hcareful ⊢
    have hidle := h.idle h0
    subst hidle
    obtain ⟨base', db', hrun, hversioned, hall⟩ := @run_creations env db base stored version [] creations
      (by decide) (by decide) h h0 (List.forall_mem_nil _) hcareful.left
    obtain ⟨stored', pending', db'', hrun', hversioned', hstored⟩ := hwrite 1 hversioned (Int32.le_refl 1)
      (by rw [h0]; decide) (fun creation hmem => hall creation (.inr hmem)) (hcareful.right hrun)
    refine ⟨base', stored', pending', db'', by rw [run_append, hrun]; exact hrun', ?_, hstored⟩
    rw [h0]
    exact hversioned'
  · rw [if_neg h0] at hcareful ⊢
    rw [Int32.le_iff_toInt_le] at hnonneg
    have hne : (versionNumber version).toInt ≠ 0 := fun heq => h0 (Int32.toInt_inj.mp heq)
    have hzero : (0 : Int32).toInt = 0 := rfl
    have hone : (1 : Int32).toInt = 1 := rfl
    obtain ⟨stored', pending', db', hrest⟩ := hwrite (versionNumber version + 1) h
      (by rw [Int32.le_iff_toInt_le]; omega) (by rw [Int32.le_iff_toInt_le]; omega)
      (h.complete (by rw [Int32.le_iff_toInt_le]; omega)) hcareful
    exact ⟨base, stored', pending', db', hrest⟩

/-- The loop of `migrate`, up to a version that is a number of 32 bits. -/
theorem run_statementsFrom {steps : Nat} (h : Versioned base stored version pending db)
    (hroom : (versionNumber version).toInt + steps < 2 ^ 31)
    (hcareful : Along (executes env) (Statement.Careful env) db (statementsFrom (versionNumber version) steps)) :
    ∃ base' stored' version' pending' db',
      Lib.run (executes env) db (statementsFrom (versionNumber version) steps) = some db' ∧
        Versioned base' stored' version' pending' db' ∧ versionNumber stored ≤ versionNumber stored' ∧
        versionNumber version ≤ versionNumber version' := by
  induction steps generalizing base stored version pending db with
  | zero => exact ⟨base, stored, version, pending, db, rfl, h, Int32.le_refl _, Int32.le_refl _⟩
  | succ steps ih =>
    have hlast : (versionNumber version).toInt < 2 ^ 31 - 1 := by omega
    have hnext := toInt_add_one hlast
    obtain ⟨base', stored', pending', db', hrun, hversioned, hstored⟩ := run_statementsAt h hlast hcareful.left
    obtain ⟨base'', stored'', version'', pending'', db'', hrun', hversioned', hstored', hversion'⟩ :=
      ih hversioned (by show (versionNumber version + 1).toInt + steps < 2 ^ 31; omega) (hcareful.right hrun)
    refine ⟨base'', stored'', version'', pending'', db'', ?_, hversioned', Int32.le_trans hstored hstored',
      Int32.le_trans ?_ hversion'⟩
    · rw [statementsFrom, run_append, hrun]
      exact hrun'
    · show versionNumber version ≤ versionNumber version + 1
      rw [Int32.le_iff_toInt_le]
      omega

end Migrations

/-! ## Migrating and trying again -/

/-- A call of `migrate`, with the SQLite calls of it that fail, or the database
is closed and opened again. -/
inductive Attempt where
  | migrate (target : Int32) (fails : Nat → Bool)
  | reopen

/-- SQLite fails in these calls. -/
def failing (env : Env) (fails : Nat → Bool) : Env := { env with sqliteFails := fails }

/-- The database after it has been closed and opened again, without a failure. -/
def opened (env : Env) (db : Database) : Database := (reopen (failing env fun _ => false) db).state

def attempts (env : Env) (db : Database) : Attempt → Option Database
  | .migrate target fails => some (migrate (failing env fails) target db).state
  | .reopen => some (opened env db)

/-- Every statement of the migration is careful in the state it finds. -/
def Attempt.Careful (env : Env) (db : Database) : Attempt → Prop
  | .migrate target fails =>
    match (schemaVersion (failing env fails) db).result with
    | .ok current => Along (executes (failing env fails)) (Statement.Careful (failing env fails)) db
        (statementsFrom current (target.toInt - current.toInt).toNat)
    | .error _ => True
  | .reopen => True

/-- A database of version 1 or above has everything of version 1. -/
def Migrated (env : Env) (db : Database) : Prop :=
  ∀ version, (schemaVersion env db).result = .ok version → 1 ≤ version → Complete db.sqlite.view

/-- `migrate` lowers neither the version in the file nor the one it reads. -/
def NotLowered (env : Env) (db : Database) (attempt : Attempt) (db' : Database) : Prop :=
  ∀ target fails, attempt = .migrate target fails →
    storedVersion db.sqlite.file ≤ storedVersion db'.sqlite.file ∧
      ∀ version version', (schemaVersion env db).result = .ok version →
        (schemaVersion env db').result = .ok version' → version ≤ version'

/-- A file that is new, or has some of the tables and indexes of version 1: all
of them if its version says so. -/
def PartlyMigrated (file : Content) : Prop :=
  file = .empty ∨ ∃ stored, file.docs .schema_version = some (versionTexts stored) ∧ 0 ≤ versionNumber stored ∧
    (1 ≤ versionNumber stored → Complete file)

section Attempts

variable {env : Env} {db db' : Database} {base : Content} {stored version : Option Int32}
  {pending : Option (List Bytes)} {attempt : Attempt}

theorem complete_withVersions {texts : List Bytes} : Complete (withVersions base texts) ↔ Complete base := by
  have hapart : ∀ creation ∈ creations, creation.Apart := by decide
  exact forall₂_congr fun creation hmem => by rw [there_withVersions (hapart creation hmem)]

theorem Versioned.migrated (h : Versioned base stored version pending db) : Migrated env db := by
  intro number hnumber hpos
  rw [h.schemaVersion] at hnumber
  cases hnumber
  rw [h.slot]
  cases pending with
  | none => exact complete_withVersions.mpr (h.complete hpos)
  | some texts => exact complete_withVersions.mpr (h.complete hpos)

theorem Versioned.storedVersion (h : Versioned base stored version pending db) :
    storedVersion db.sqlite.file = versionNumber stored := by
  rw [h.slot]
  exact storedVersion_withVersions

theorem withVersions_self {c : Content} {texts : List Bytes} (h : c.docs .schema_version = some texts) :
    withVersions c texts = c := by
  unfold withVersions
  rw [← h, Function.update_eq_self]

/-- Opening a database reads the version from the file. -/
theorem versioned_opened (hfile : db.sqlite.file = withVersions base (versionTexts stored))
    (hnonneg : 0 ≤ versionNumber stored) (hcomplete : 1 ≤ versionNumber stored → Complete base) :
    Versioned base stored stored none (opened env db) := by
  have hserves : (failing env fun _ => false).Serves := fun _ => rfl
  obtain ⟨calls, hrun⟩ := @run_reopen (failing env fun _ => false) db hserves (by rw [hfile, docs_withVersions]; rfl)
  have hplain : ∀ row ∈ versionRows stored, (Value.obj row).Plain := by
    intro row hrow
    obtain ⟨number, -, rfl⟩ := List.mem_map.mp hrow
    exact plain_versionRow number
  have hnul : ∀ row ∈ versionRows stored, (Value.obj row).NulFree := by
    intro row hrow
    obtain ⟨number, -, rfl⟩ := List.mem_map.mp hrow
    exact nulFree_versionRow number
  obtain ⟨calls', hload⟩ := @run_loadTable_of (failing env fun _ => false) .schema_version
    { db with sqlite := ⟨db.sqlite.file, none⟩, tables := fun _ => none, calls := calls } hserves (versionRows stored)
    rfl (by rw [hfile]; exact docs_withVersions) hplain nofun fun _ => hnul
  generalize hfirst : ({ db with sqlite := ⟨db.sqlite.file, none⟩, tables := fun _ => none, calls := calls } : Database)
    = first at hrun hload
  have hversioned : Versioned base stored stored none (first.withTable .schema_version (versionRows stored) calls') := {
    cached := by simp [withTable]
    slot := by rw [← hfirst, withTable, hfile]; rfl
    nonneg := hnonneg
    le := Int32.le_refl _
    complete := hcomplete
    idle := fun _ => rfl }
  have hall : queryAll (failing env fun _ => false) .schema_version first =
      queryAll (failing env fun _ => false) .schema_version
        (first.withTable .schema_version (versionRows stored) calls') := by
    unfold queryAll
    rw [Cmd.bind_of_run _ hload, Cmd.bind_of_run _ (loadTable_of_cached hversioned.cached)]
  have hread := @Versioned.schemaVersion (failing env fun _ => false) _ _ _ _ _ hversioned
  have hsame : schemaVersion (failing env fun _ => false) first =
      ⟨.ok (versionNumber stored), first.withTable .schema_version (versionRows stored) calls', []⟩ := by
    rw [← hread]
    unfold Database.schemaVersion
    rw [Cmd.bind_apply, Cmd.andThen, hall, ← Cmd.andThen, ← Cmd.bind_apply]
  rw [opened, hrun, Cmd.bind_of_run _ hsame]
  exact hversioned

theorem opened_eq (env : Env) (db : Database) : opened env db = (reopen .ideal db).state := by
  have hserves : (failing env fun _ => false).Serves := fun _ => rfl
  simp only [opened, reopen, openDatabase, schemaVersion, tableExists, queryAll, Database.insert,
    call_of_serves hserves, ensureTable_of_serves hserves, loadTable_of_serves hserves, saveTable_of_serves hserves]

/-- Opening a new file creates it with version 0. -/
theorem versioned_opened_empty (env : Env) :
    ∃ base, Versioned base (some 0) (some 0) none (opened env (connect .empty)) := by
  rw [opened_eq]
  have hdocs : (reopen .ideal (connect .empty)).state.sqlite.file.docs .schema_version =
      some (versionTexts (some 0)) := by
    decide +kernel
  have hidle : (reopen .ideal (connect .empty)).state.sqlite.transaction = none := rfl
  have hcached : (reopen .ideal (connect .empty)).state.tables .schema_version = some (versionRows (some 0)) := rfl
  refine ⟨(reopen .ideal (connect .empty)).state.sqlite.file, hcached, ?_, Int32.le_refl _, Int32.le_refl _, nofun, fun _ => rfl⟩
  unfold versionSlot
  rw [withVersions_self hdocs, Option.map_none, ← hidle]

/-- A database that can be reached is versioned. -/
def IsVersioned (db : Database) : Prop := ∃ base stored version pending, Versioned base stored version pending db

theorem isVersioned_opened {file : Content} (h : PartlyMigrated file) : IsVersioned (opened env (connect file)) := by
  rcases h with rfl | ⟨stored, hdocs, hnonneg, hcomplete⟩
  · obtain ⟨base, h⟩ := versioned_opened_empty env
    exact ⟨base, some 0, some 0, none, h⟩
  · exact ⟨file, stored, stored, none, versioned_opened (withVersions_self hdocs).symm hnonneg hcomplete⟩

/-- What a careful attempt makes of a versioned database. -/
theorem Versioned.step (h : Versioned base stored version pending db) (hstep : attempts env db attempt = some db')
    (hcareful : attempt.Careful env db) : IsVersioned db' ∧ NotLowered env db attempt db' := by
  cases attempt with
  | reopen =>
    cases hstep
    have hcomplete : 1 ≤ versionNumber stored → Complete base := fun hpos => h.complete (Int32.le_trans hpos h.le)
    exact ⟨⟨base, stored, stored, none, versioned_opened (by rw [h.slot]; rfl) h.nonneg hcomplete⟩, nofun⟩
  | migrate target fails =>
    cases hstep
    have hread := @Versioned.schemaVersion (failing env fails) _ _ _ _ _ h
    simp only [Attempt.Careful, hread] at hcareful
    have hnonneg : 0 ≤ (versionNumber version).toInt := Int32.le_iff_toInt_le.mp (Int32.le_trans h.nonneg h.le)
    have hmigrate : ∃ base' stored' version' pending',
        Versioned base' stored' version' pending' (migrate (failing env fails) target db).state ∧
          versionNumber stored ≤ versionNumber stored' ∧ versionNumber version ≤ versionNumber version' := by
      unfold migrate
      rw [Cmd.bind_of_run _ hread]
      by_cases hlow : target < versionNumber version
      · rw [if_pos hlow]
        exact ⟨base, stored, version, pending, h, Int32.le_refl _, Int32.le_refl _⟩
      · rw [if_neg hlow]
        rw [Int32.not_lt, Int32.le_iff_toInt_le] at hlow
        have hmax := target.toInt_lt
        obtain ⟨base', stored', version', pending', db', hrun, hversioned, hstored, hversion⟩ :=
          run_statementsFrom h (by omega) hcareful
        have hloop := each_of_run hrun
        rw [← migrateFrom_eq] at hloop
        rw [Cmd.bind_of_run _ hloop]
        exact ⟨base', stored', version', pending', hversioned, hstored, hversion⟩
    obtain ⟨base', stored', version', pending', hversioned, hstored, hversion⟩ := hmigrate
    refine ⟨⟨base', stored', version', pending', hversioned⟩, fun _ _ _ => ⟨?_, fun number number' hn hn' => ?_⟩⟩
    · rw [h.storedVersion, hversioned.storedVersion]
      exact hstored
    · rw [h.schemaVersion] at hn
      rw [hversioned.schemaVersion] at hn'
      cases hn
      cases hn'
      exact hversion

end Attempts

/-- From a database that is new or partly migrated: if every attempt to migrate
it is careful, a version of 1 always comes with everything of version 1, and no
attempt lowers the version. -/
theorem migrated_of_careful (env : Env) {file : Content} (hfile : PartlyMigrated file) (steps : List Attempt)
    (hcareful : Along (attempts env) (Attempt.Careful env) (opened env (connect file)) steps) :
    Throughout (attempts env) (Migrated env) (opened env (connect file)) steps ∧
      EachStep (attempts env) (NotLowered env) (opened env (connect file)) steps := by
  have hversioned : Throughout (attempts env) IsVersioned (opened env (connect file)) steps := by
    refine throughout_of_along (J := fun _ => True) (fun _ _ _ _ _ => trivial) (fun db attempt db' _ h hstep hcare => ?_)
      trivial (isVersioned_opened hfile) hcareful
    obtain ⟨_, _, _, _, h⟩ := h
    exact (h.step hstep hcare).1
  refine ⟨hversioned.imp fun db ⟨_, _, _, _, h⟩ => h.migrated, ?_⟩
  refine eachStep_of_along ?_ (hversioned.along hcareful)
  rintro db attempt db' hstep ⟨⟨_, _, _, _, h⟩, hcare⟩
  exact (h.step hstep hcare).2

instance (env : Env) (db : Database) : ∀ statement, Decidable (Statement.Careful env db statement)
  | .create _ => inferInstanceAs (Decidable (_ ∨ _))
  | .version _ => inferInstanceAs (Decidable (_ ∨ _))

instance (env : Env) (db : Database) : ∀ attempt, Decidable (Attempt.Careful env db attempt)
  | .reopen => .isTrue trivial
  | .migrate target fails =>
    match h : (schemaVersion (failing env fails) db).result with
    | .ok current =>
      decidable_of_iff (Along (executes (failing env fails)) (Statement.Careful (failing env fails)) db
        (statementsFrom current (target.toInt - current.toInt).toNat)) (by simp only [Attempt.Careful, h])
    | .error _ => .isTrue (by simp only [Attempt.Careful, h])

/-- A migration in which a check for a table fails, and one in which everything
does. -/
theorem migrated_of_careful_retried :
    Throughout (attempts .ideal) (Migrated .ideal) (opened .ideal (connect .empty))
        [.migrate 1 fun i => i = 15, .reopen, .migrate 2 fun _ => true] ∧
      EachStep (attempts .ideal) (NotLowered .ideal) (opened .ideal (connect .empty))
        [.migrate 1 fun i => i = 15, .reopen, .migrate 2 fun _ => true] :=
  migrated_of_careful .ideal (.inl rfl) _ (by decide +kernel)

/-- The version, if it can be read. -/
def versionOf (db : Database) : Int32 := (schemaVersion .ideal db).result.toOption.getD 0

/-- Creating the table of the users fails in the first migration of a new file,
and the database has version 1 without it. -/
theorem migrated_without_users :
    ¬∀ env file, PartlyMigrated file → ∀ steps,
      Throughout (attempts env) (Migrated env) (opened env (connect file)) steps ∧
        EachStep (attempts env) (NotLowered env) (opened env (connect file)) steps := by
  intro hall
  have hrun : (attempts .ideal (opened .ideal (connect .empty)) (.migrate 1 fun i => i = 16)).map (fun db =>
      (versionOf db, Creation.there (.table .users) db.sqlite.view)) = some (1, false) := by
    decide +kernel
  obtain ⟨db, hstep, heq⟩ := Option.map_eq_some_iff.mp hrun
  obtain ⟨hversion, hmissing⟩ := Prod.mk.injEq .. ▸ heq
  have hmigrated : Migrated .ideal db := ((hall .ideal .empty (.inl rfl) [.migrate 1 fun i => i = 16]).1.2 db hstep).head
  unfold versionOf at hversion
  cases hresult : (schemaVersion .ideal db).result with
  | error e =>
    rw [hresult] at hversion
    cases hversion
  | ok version =>
    rw [hresult] at hversion
    have hone : version = 1 := hversion
    have hthere := hmigrated version hresult (hone ▸ Int32.le_refl 1) (.table .users) (by decide)
    rw [hmissing] at hthere
    cases hthere

end Database

end LanChat
