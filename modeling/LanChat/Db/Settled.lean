import LanChat.Db.Access

/-!
# Tables that are not in memory

A failed `COMMIT` leaves a transaction open. To a table that has not been loaded
nothing has been written since, so the open transaction has the documents of the
file: the rows of such a table do not depend on what becomes of the transaction.
-/

namespace LanChat

open Lib Json

namespace Database

open Cmd

/-- While the table is not in memory, the open transaction has the documents of
the file. -/
def Settled (name : TableName) (db : Database) : Prop :=
  db.tables name = none → ∃ texts, Shows name (· = texts) db.sqlite

section Settled

variable {env : Env} {α : Type} {name other : TableName} {c : DbM α} {db : Database}

theorem settled_of_cached (h : (db.tables name).isSome) : Settled name db := fun hnone => by
  rw [hnone] at h
  cases h

theorem Spares.settled (h : Spares name c) (hdb : db.Settled name) : (c db).state.Settled name := by
  intro hnone
  obtain ⟨texts, htexts⟩ := hdb ((h.tables db).symm.trans hnone)
  exact ⟨texts, h.docs _ db htexts⟩

/-- A command that leaves the table alone leaves its rows alone. -/
theorem Spares.content (h : Spares name c) (hdb : db.Settled name) :
    (c db).state.content name = db.content name := by
  have hview : ∀ {s : Sqlite} {texts}, Shows name (· = texts) s → (s.view.docs name).getD [] = texts := by
    rintro ⟨file, _ | t⟩ texts h
    · exact h.1
    · exact h.2 t rfl
  have htables := h.tables db
  unfold Database.content
  rw [show (c db).state.tables name = db.tables name from htables]
  cases hmem : db.tables name with
  | some rows => rfl
  | none =>
    obtain ⟨texts, htexts⟩ := hdb hmem
    simp only [hview htexts, hview (h.docs _ db htexts)]

theorem Spares.guarded (h : Spares name c) : Guarded (Settled name) (Settled name) c := fun _ hdb =>
  ⟨nofun, fun _ _ => h.settled hdb, fun _ _ => h.settled hdb⟩

theorem settled_loadTable (other : TableName) (hdb : db.Settled name) :
    (loadTable env other db).state.Settled name := by
  by_cases hname : name = other
  · subst hname
    cases hmem : db.tables name with
    | some rows =>
      rw [loadTable_of_cached hmem]
      exact hdb
    | none =>
      intro _
      rw [show (loadTable env name db).state.sqlite = db.sqlite from leaves_sqlite_loadTable name db]
      exact hdb hmem
  · exact (spares_loadTable hname).settled hdb

/-- An operation that loads the table and then keeps it in memory. -/
theorem guarded_load {f : DbM α} (h : Keeps (fun db => (db.tables name).isSome) (fun _ => True) f) :
    Guarded (Settled name) (Settled name) (loadTable env name >>= fun _ => f) := by
  intro db hdb
  have hloaded := (@sat_loadTable env (fun _ => True) (fun _ => True) name db trivial).2.1
  cases hr : (loadTable env name db).result with
  | error e =>
    rw [bind_error _ hr]
    exact ⟨nofun, fun _ _ => settled_loadTable name hdb, fun _ _ => settled_loadTable name hdb⟩
  | ok a =>
    rw [bind_ok _ hr]
    have hkept := settled_of_cached ((keeps_iff.mp h _ (hloaded a hr)).1)
    exact ⟨nofun, fun _ _ => hkept, fun _ _ => hkept⟩

theorem keeps_setTable (rows : RowList) :
    Keeps (fun db => (db.tables name).isSome) (fun _ => True) (setTable name rows) :=
  sat_modify fun _ _ => by simp

theorem keeps_saveTable :
    Keeps (fun db => (db.tables name).isSome) (fun _ => True) (saveTable env name) :=
  keeps_iff.mpr fun db hdb => ⟨by
    rw [show (saveTable env name db).state.tables = db.tables from leaves_tables_saveTable db]
    exact hdb, nofun⟩

/-- No operation of the repositories unsettles a table. -/
theorem writes_settled (env : Env) (name : TableName) :
    Writes env (fun _ _ => True) (Settled name) (Settled name) where
  counters _ _ _ _ h := h
  load other db hdb :=
    have h := settled_loadTable other hdb
    ⟨nofun, fun _ _ => ⟨h, fun _ _ => trivial⟩, fun _ _ => h⟩
  users := .inr fun _ h => h
  thrown _ h := h
  shape _ _ _ := trivial
  put _ _ _ _ _ _ := trivial
  insert other row _ := by
    by_cases hname : name = other
    · subst hname
      exact guarded_load <| keeps_bind (keeps_asks _) fun _ => keeps_bind (keeps_setTable _) fun _ =>
        keeps_saveTable
    · exact (spares_insert hname row).guarded
  update other p u _ _ := by
    by_cases hname : name = other
    · subst hname
      exact guarded_load <| keeps_bind (keeps_asks _) fun _ => keeps_bind (keeps_setTable _) fun _ =>
        keeps_bind (keeps_ofExcept _) fun _ => keeps_bind keeps_saveTable fun _ => keeps_pure _
    · exact (spares_update hname p u).guarded
  remove other p := by
    by_cases hname : name = other
    · subst hname
      exact guarded_load <| keeps_bind (keeps_asks _) fun _ => keeps_bind (keeps_setTable _) fun _ =>
        keeps_bind keeps_saveTable fun _ => keeps_pure _
    · exact (spares_remove hname p).guarded
  friendships change hdocs := (spares_exec (sparesDocs_write fun c c' h => by rw [hdocs c c' h])).guarded

/-! ## Tables in memory -/

/-- The table has been loaded. -/
def InMemory (name : TableName) (db : Database) : Prop := (db.tables name).isSome = true

theorem guarded_inMemory (h : Leaves (fun db => db.tables name) c) : Guarded (InMemory name) (InMemory name) c :=
  keeps_iff.mpr fun db hdb => ⟨(congrArg Option.isSome (h db)).trans hdb, nofun⟩

/-- A table that is in memory stays there. -/
theorem writes_inMemory (env : Env) (name : TableName) :
    Writes env (fun _ _ => True) (InMemory name) (InMemory name) := by
  have hload : ∀ other, Guarded (InMemory name) (InMemory name) (loadTable env other) := by
    intro other
    rcases eq_or_ne name other with rfl | hname
    · rintro db hdb
      obtain ⟨rows, hrows⟩ := Option.isSome_iff_exists.mp hdb
      rw [loadTable_of_cached hrows]
      exact ⟨nofun, fun _ _ => hdb, nofun⟩
    · exact guarded_inMemory (spares_loadTable hname).tables
  have hset : ∀ other rows, Guarded (InMemory name) (InMemory name) (setTable other rows) := by
    intro other rows
    refine sat_modify fun db hdb => ?_
    rcases eq_or_ne name other with rfl | hname
    · simp [InMemory]
    · simpa [InMemory, hname] using hdb
  have hsave : ∀ other, Guarded (InMemory name) (InMemory name) (saveTable env other) :=
    fun other => guarded_inMemory fun db => congrFun (leaves_tables_saveTable db) name
  exact {
    counters := fun _ _ _ _ h => h
    load := fun other => (hload other).post fun _ _ h => ⟨h, fun _ _ => trivial⟩
    users := .inr fun _ h => h
    thrown := fun _ h => h
    shape := fun _ _ _ => trivial
    put := fun _ _ _ _ _ _ => trivial
    insert := fun other row _ => (hload other).bind fun _ => (guarded_asks _).bind fun _ =>
      (hset other _).bind fun _ => hsave other
    update := fun other p u _ _ => (hload other).bind fun _ => (guarded_asks _).bind fun _ =>
      (hset other _).bind fun _ => (guarded_ofExcept (.inr fun _ h => h)).bind fun _ =>
        (hsave other).bind fun _ => guarded_pure _
    remove := fun other p => (hload other).bind fun _ => (guarded_asks _).bind fun _ =>
      (hset other _).bind fun _ => (hsave other).bind fun _ => guarded_pure _
    friendships := fun _ _ => guarded_inMemory fun db => congrFun (leaves_tables_exec _ db) name }

/-- After a query the table is in memory. -/
theorem sat_query_loaded (p : Row → Except Exn Bool) :
    Sat (fun _ => True) (query env name p) (fun _ => InMemory name) (fun _ _ => True) fun _ => True :=
  Sat.bind (R := fun _ => InMemory name) sat_loadTable fun _ =>
    Sat.bind (R := fun _ => InMemory name) (sat_asks fun _ h => h) fun _ =>
      sat_ofExcept (fun _ _ _ h => h) fun _ _ _ _ => trivial

/-! ## Start-up -/

theorem spares_createTable (other : TableName) :
    Spares name (exec env (Sqlite.write (Content.createTable other))) := by
  refine spares_exec (sparesDocs_write fun c c' hc => ?_)
  unfold Content.createTable at hc
  split at hc
  · cases hc
  · next hnone =>
    cases hc
    by_cases hname : name = other
    · simp [hname, hnone]
    · simp only [Function.update_of_ne hname]

theorem spares_tableExists (other : TableName) : Spares name (tableExists env other) :=
  spares_call.bind fun _ => (spares_call.bind fun _ => (spares_asks _).bind fun _ => spares_pure _).ite
    (spares_pure false)

/-- Creating a table writes no row, whichever table is looked at. -/
theorem spares_ensureTable (other : TableName) : Spares name (ensureTable env other) :=
  (spares_tableExists other).bind fun _ =>
    (spares_pure ()).ite ((spares_createTable other).bind fun _ => spares_pure ())

theorem guarded_ensureTable (other : TableName) :
    Guarded (Settled name) (Settled name) (ensureTable env other) := (spares_ensureTable other).guarded

theorem guarded_schemaVersion : Guarded (Settled name) (Settled name) (schemaVersion env) := by
  refine ((writes_settled env name).queryAll _).bind fun all => ?_
  cases all with
  | nil => exact guarded_pure 0
  | cons row rest => exact (guarded_ofExcept (.inr fun _ h => h)).bind fun _ => guarded_pure _

theorem guarded_setSchemaVersion (version : Int32) :
    Guarded (Settled name) (Settled name) (setSchemaVersion env version) :=
  ((writes_settled env name).queryAll _).bind fun _ => Guarded.ite
    ((writes_settled env name).insert _ _ trivial)
    (((writes_settled env name).update _ _ _ (fun _ _ => harmless_ok _) fun _ _ => trivial).bind
      fun _ => guarded_pure ())

theorem guarded_migrateToOne : Guarded (Settled name) (Settled name) (migrateToOne env) := by
  have hexec : ∀ {change : Content → Option Content}, (∀ c c', change c = some c' → c'.docs = c.docs) →
      Guarded (Settled name) (Settled name) (do let _ ← exec env (Sqlite.write change); pure ()) :=
    fun h => ((writes_settled env name).friendships _ h).bind fun _ => guarded_pure ()
  refine (guarded_each fun _ => guarded_ensureTable _).bind fun _ =>
    (guarded_each fun _ => hexec fun c c' hc => ?_).bind fun _ =>
      ((spares_exec (sparesDocs_write fun c c' hc => ?_)).guarded.bind fun _ =>
        guarded_each fun _ => hexec fun c c' hc => ?_).bind fun _ => guarded_setSchemaVersion 1
  · obtain ⟨_, -, rfl⟩ := Option.map_eq_some_iff.mp hc
    rfl
  · cases hc
    rfl
  · obtain ⟨_, -, rfl⟩ := Option.map_eq_some_iff.mp hc
    rfl

theorem guarded_migrate (target : Int32) :
    Guarded (Settled name) (Settled name) (migrate env target) := by
  have hfrom : ∀ steps current,
      Guarded (Settled name) (Settled name) (migrateFrom env current steps) := by
    intro steps
    induction steps with
    | zero => exact fun _ => guarded_pure ()
    | succ steps ih =>
      exact fun current => (Guarded.ite guarded_migrateToOne (guarded_setSchemaVersion _)).bind
        fun _ => ih _
  exact guarded_schemaVersion.bind fun _ => (guarded_pure false).ite <| (hfrom _ _).bind fun _ =>
    guarded_pure true

theorem guarded_startUp (env : Env) : Guarded (Settled name) (Settled name) (startUp env) := by
  have hopen : Guarded (Settled name) (Settled name) (openDatabase env) := by
    refine (writes_settled env name).call.bind fun _ => (writes_settled env name).call.bind fun _ =>
      (spares_tableExists _).guarded.bind fun known => (Guarded.when ?_).bind fun _ =>
        guarded_schemaVersion.bind fun _ => guarded_pure true
    exact (guarded_ensureTable _).bind fun _ => (writes_settled env name).insert _ _ trivial
  exact hopen.bind fun _ => (guarded_migrate 1).bind fun _ => (guarded_migrate 1).bind fun _ =>
    guarded_pure ()

/-- A server starts with every table settled, whatever fails. -/
theorem settled_startUp (env : Env) (file : Content) (name : TableName) :
    (startUp env (connect file)).state.Settled name := by
  obtain ⟨-, hok, herr⟩ := guarded_startUp env (connect file) fun _ => ⟨_, rfl, nofun⟩
  cases hr : (startUp env (connect file)).result with
  | ok a => exact hok a hr
  | error e => exact herr e hr

end Settled

end Database

end LanChat
