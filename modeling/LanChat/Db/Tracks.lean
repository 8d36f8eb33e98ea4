import LanChat.Db.Settled

/-!
# What becomes of the rows of a table

A table is loaded at its first use. If SQLite fails meanwhile, only the first
rows are loaded; from then on the table is in memory and loses nothing.
`Tracks` says that the rows of a table meet `K`, whatever fails.
-/

namespace LanChat

open Lib Json

namespace Database

open Cmd

variable {env : Env} {name other : TableName} {db : Database}

theorem readable_cons_ok {text : Bytes} {row : Option Row} (h : loadRow text = .ok row)
    (texts : List Bytes) : readable (text :: texts) = row.toList ++ readable texts := by
  cases row <;> simp [readable, h]

/-- The rows that are read are the first ones, and all of them when SQLite serves. -/
theorem readRows_eq {texts : List Bytes} {rows : RowList}
    (h : (readRows env texts db).result = .ok rows) :
    (∃ n, rows = (readable texts).take n) ∧ (env.Serves → rows = readable texts) := by
  induction texts generalizing db rows with
  | nil =>
    cases h
    exact ⟨⟨0, rfl⟩, fun _ => rfl⟩
  | cons text texts ih =>
    obtain ⟨served, hserved, h⟩ := result_bind_eq_ok.mp h
    cases served with
    | false =>
      cases h
      refine ⟨⟨0, rfl⟩, fun henv => ?_⟩
      rw [run_call henv] at hserved
      cases hserved
    | true =>
      obtain ⟨row, hrow, h⟩ := result_bind_eq_ok.mp h
      obtain ⟨rest, hrest, h⟩ := result_bind_eq_ok.mp h
      cases h
      rw [readable_cons_ok (show loadRow text = .ok row from hrow)]
      obtain ⟨⟨n, hn⟩, hserves⟩ := ih hrest
      refine ⟨⟨row.toList.length + n, ?_⟩, fun henv => ?_⟩
      · rw [hn, List.take_length_add_append]
      · rw [hserves henv]

theorem leaves_content_readRows (texts : List Bytes) :
    Leaves (fun db => db.content name) (readRows env texts) := fun db => by
  have htables : (readRows env texts db).state.tables name = db.tables name :=
    (spares_readRows texts).tables db
  have hsqlite : (readRows env texts db).state.sqlite = db.sqlite := leaves_sqlite_readRows texts db
  simp only [content, htables, hsqlite]

theorem content_of_cached {rows : RowList} (h : db.tables name = some rows) :
    db.content name = rows := by
  rw [content, h]

/-- Loading a table keeps its first rows, and all of them when SQLite serves or
the table is in memory. -/
theorem content_loadTable (env : Env) (name : TableName) (db : Database) :
    (∃ n, (loadTable env name db).state.content name = (db.content name).take n) ∧
      (env.Serves ∨ (db.tables name).isSome →
        (loadTable env name db).state.content name = db.content name) := by
  cases hmem : db.tables name with
  | some rows =>
    rw [loadTable_of_cached hmem]
    exact ⟨⟨_, (List.take_length).symm⟩, fun _ => rfl⟩
  | none =>
    have hcontent : db.content name = readable ((db.sqlite.view.docs name).getD []) := by
      rw [content, hmem]
    have hprepare : prepare env name db = ⟨.ok (!env.sqliteFails db.calls &&
        (db.sqlite.view.docs name).isSome), { db with calls := db.calls + 1 }, []⟩ := rfl
    unfold loadTable
    rw [bind_of_run _ (asks_apply ..)]
    simp only [hmem, Option.isSome_none, Bool.false_eq_true, if_false, or_false]
    rw [bind_of_run _ hprepare]
    cases hready : !env.sqliteFails db.calls && (db.sqlite.view.docs name).isSome with
    | false =>
      simp only [Bool.false_eq_true, if_false]
      have hempty := content_of_cached (@tables_setTable name [] { db with calls := db.calls + 1 })
      refine ⟨⟨0, hempty⟩, fun henv => ?_⟩
      rw [hempty, hcontent]
      simp only [henv db.calls, Bool.not_false, Bool.true_and, Option.isSome_eq_false_iff,
        Option.isNone_iff_eq_none] at hready
      rw [hready]
      rfl
    | true =>
      simp only [if_true]
      rw [bind_of_run _ (asks_apply ..)]
      cases hrows : (readRows env ((db.sqlite.view.docs name).getD [])
          { db with calls := db.calls + 1 }).result with
      | error e =>
        rw [bind_error _ hrows]
        have hsame : (readRows env ((db.sqlite.view.docs name).getD [])
            { db with calls := db.calls + 1 }).state.content name = db.content name :=
          leaves_content_readRows _ _
        exact ⟨⟨_, hsame.trans (List.take_length).symm⟩, fun _ => hsame⟩
      | ok rows =>
        rw [bind_ok _ hrows]
        simp only [content_of_cached (tables_setTable rows _), hcontent]
        exact readRows_eq hrows

/-! ## The result of an update -/

section Update

variable {p : Row → Bool} {u : Row → Row}

theorem update_of_cached {rows : RowList} (h : db.tables name = some rows) :
    update env name (fun row => .ok (p row)) u db =
      ((setTable name (rows.map fun row => if p row then u row else row) >>=
        fun _ => saveTable env name) >>= fun _ => pure (rows.any p)) db := by
  unfold update Database.rows
  rw [bind_of_run _ (loadTable_of_cached h), bind_of_run _ (asks_apply ..)]
  simp only [h, Option.getD_some]
  rw [updateRows_eq fun _ _ => rfl, bind_assoc]
  rfl

theorem returns_exec (statement : Sqlite → Option Sqlite) : Returns (exec env statement) := fun db => by
  obtain ⟨s, -, hrun⟩ | hrun := @exec_cases env statement db
  · exact ⟨true, by rw [hrun]⟩
  · exact ⟨false, by rw [hrun]⟩

/-- Saving a table does not throw. -/
theorem returns_saveTable : Returns (saveTable env name) := by
  have hprepare : Returns (prepare env name) := fun _ => ⟨_, rfl⟩
  refine returns_bind (returns_asks _) fun cached => ?_
  cases cached with
  | none => exact returns_pure ()
  | some rows =>
    refine returns_bind (returns_exec _) fun _ => returns_bind (returns_exec _) fun _ =>
      returns_ite ?_ (returns_bind (returns_exec _) fun _ => returns_pure ())
    refine returns_bind ?_ fun _ => returns_bind (returns_exec _) fun _ => returns_pure ()
    exact returns_bind hprepare fun _ => returns_ite (returns_each fun _ =>
      returns_bind (returns_exec _) fun _ => returns_pure ()) (returns_pure ())

/-- On a table in memory an update returns whether it has selected a row. -/
theorem result_update_of_cached {rows : RowList} (h : db.tables name = some rows) :
    (update env name (fun row => .ok (p row)) u db).result = .ok (rows.any p) := by
  rw [update_of_cached h]
  have hsave : Returns (setTable name (rows.map fun row => if p row then u row else row) >>=
      fun _ => saveTable env name) := returns_bind (fun _ => ⟨(), rfl⟩) fun _ => returns_saveTable
  obtain ⟨a, ha⟩ := hsave db
  exact result_bind_eq_ok.mpr ⟨a, ha, rfl⟩

/-- An update that returns `true` has selected a row. -/
theorem selected_of_update (h : (update env name (fun row => .ok (p row)) u db).result = .ok true) :
    ∃ row ∈ db.content name, p row = true := by
  obtain ⟨_, hload, -⟩ := result_bind_eq_ok.mp h
  have hloaded := (@sat_loadTable env (fun _ => True) (fun _ => True) name db trivial).2.1 () hload
  obtain ⟨rows, hrows⟩ := Option.isSome_iff_exists.mp hloaded
  have hagain : (update env name (fun row => .ok (p row)) u db).result =
      (update env name (fun row => .ok (p row)) u (loadTable env name db).state).result := by
    unfold update
    rw [bind_ok _ hload, bind_of_run _ (loadTable_of_cached hrows)]
  rw [hagain, result_update_of_cached hrows, Except.ok.injEq, List.any_eq_true] at h
  obtain ⟨row, hrow, hp⟩ := h
  obtain ⟨⟨n, hn⟩, -⟩ := content_loadTable env name db
  rw [content_of_cached hrows] at hn
  rw [hn] at hrow
  exact ⟨row, List.mem_of_mem_take hrow, hp⟩

/-- Afterwards the table is in memory, with the rows that have been selected changed. -/
theorem cached_of_update (h : (update env name (fun row => .ok (p row)) u db).result = .ok true) :
    ∃ rows : RowList, (update env name (fun row => .ok (p row)) u db).state.tables name =
      some (rows.map fun row => if p row then u row else row) ∧ ∃ row ∈ rows, p row = true := by
  obtain ⟨_, hload, -⟩ := result_bind_eq_ok.mp h
  have hloaded := (@sat_loadTable env (fun _ => True) (fun _ => True) name db trivial).2.1 () hload
  obtain ⟨rows, hrows⟩ := Option.isSome_iff_exists.mp hloaded
  have hagain : update env name (fun row => .ok (p row)) u db =
      ⟨(update env name (fun row => .ok (p row)) u (loadTable env name db).state).result,
        (update env name (fun row => .ok (p row)) u (loadTable env name db).state).state,
        (loadTable env name db).out ++
          (update env name (fun row => .ok (p row)) u (loadTable env name db).state).out⟩ := by
    unfold update
    rw [bind_ok _ hload, bind_of_run _ (loadTable_of_cached hrows)]
  rw [hagain] at h ⊢
  rw [result_update_of_cached hrows, Except.ok.injEq, List.any_eq_true] at h
  refine ⟨rows, ?_, h⟩
  have hsaved : Leaves (fun db => db.tables) (saveTable env name >>= fun _ => pure (rows.any p)) :=
    leaves_bind leaves_tables_saveTable fun _ => leaves_pure _
  rw [update_of_cached hrows, bind_assoc, bind_of_run _ (run_setTable ..)]
  refine (congrFun (hsaved _) name).trans ?_
  simp

end Update

/-! ## Tracking a table -/

/-- The rows of the table meet `K`. If it is `whole`, all its rows are or will be loaded. -/
structure Tracks (env : Env) (whole : Prop) (name : TableName) (K : RowList → Prop)
    (db : Database) : Prop where
  settled : db.Settled name
  rows : K (db.content name)
  loads : whole → env.Serves ∨ (db.tables name).isSome

section Tracks

variable {whole : Prop} {K : RowList → Prop} {α : Type} {c : DbM α}

/-- A command that leaves the table alone. -/
theorem Spares.tracks (h : Spares name c) :
    Guarded (Tracks env whole name K) (Tracks env whole name K) c := by
  have hkeeps : Keeps (Tracks env whole name K) (fun _ => True) c := keeps_iff.mpr fun db hdb => by
    refine ⟨⟨h.settled hdb.settled, ?_, fun hwhole => ?_⟩, nofun⟩
    · rw [h.content hdb.settled]
      exact hdb.rows
    · rw [show (c db).state.tables name = db.tables name from h.tables db]
      exact hdb.loads hwhole
  exact hkeeps

variable (hK : ¬whole → ∀ rows n, K rows → K (rows.take n))

include hK

theorem tracks_loadTable (hdb : Tracks env whole name K db) :
    Tracks env whole name K (loadTable env name db).state := by
  obtain ⟨⟨n, hn⟩, hall⟩ := content_loadTable env name db
  refine ⟨settled_loadTable name hdb.settled, ?_, fun hwhole => ?_⟩
  · rcases em whole with hwhole | hpart
    · rw [hall (hdb.loads hwhole)]
      exact hdb.rows
    · rw [hn]
      exact hK hpart _ n hdb.rows
  · refine (hdb.loads hwhole).imp id fun hmem => ?_
    obtain ⟨rows, hrows⟩ := Option.isSome_iff_exists.mp hmem
    rw [loadTable_of_cached hrows]
    exact hmem

/-- After a load the rows of the table are those in memory. -/
theorem sat_load_tracks :
    Sat (Tracks env whole name K) (loadTable env name)
      (fun _ db => Tracks env whole name K db ∧ (db.tables name).isSome)
      (fun _ => Tracks env whole name K) fun _ => True := fun db hdb => by
  have hloaded := (@sat_loadTable env (fun _ => True) (fun _ => True) name db trivial).2.1
  exact ⟨nofun, fun a ha => ⟨tracks_loadTable hK hdb, hloaded a ha⟩, fun _ _ => tracks_loadTable hK hdb⟩

theorem guarded_load_tracks (other : TableName) :
    Guarded (Tracks env whole name K) (Tracks env whole name K) (loadTable env other) := by
  rcases eq_or_ne name other with rfl | hname
  · exact (sat_load_tracks hK).post fun _ _ h => h.1
  · exact (spares_loadTable hname).tracks

theorem reads_tracks :
    Reads env (fun _ _ => True) (Tracks env whole name K) (Tracks env whole name K) where
  counters _ _ _ _ h := ⟨h.settled, h.rows, h.loads⟩
  load other := (guarded_load_tracks hK other).post fun _ _ h => ⟨h, fun _ _ => trivial⟩
  users := .inr fun _ h => h
  thrown _ h := h

omit hK in
theorem writesTo_tracks (hname : name ≠ other) :
    WritesTo env (fun _ _ => True) (Tracks env whole name K) (Tracks env whole name K) other where
  shape _ _ := trivial
  put _ _ _ _ _ := trivial
  insert row _ := (spares_insert hname row).tracks
  update p u _ _ := (spares_update hname p u).tracks
  remove p := (spares_remove hname p).tracks

omit hK in
theorem friendships_tracks (change : Content → Option Content)
    (hdocs : ∀ c c', change c = some c' → c'.docs = c.docs) :
    Guarded (Tracks env whole name K) (Tracks env whole name K) (exec env (Sqlite.write change)) :=
  (spares_exec (sparesDocs_write fun c c' h => by rw [hdocs c c' h])).tracks

omit hK in
/-- Rows that are put in memory and saved. -/
theorem sat_setSave_tracks {P : Database → Prop} {rows : RowList} (hrows : K rows) :
    Sat P (setTable name rows >>= fun _ => saveTable env name)
      (fun _ => Tracks env whole name K) (fun _ => Tracks env whole name K) fun _ => True := by
  intro db _
  have hrun : (setTable name rows >>= fun _ => saveTable env name) db =
      saveTable env name { db with tables := Function.update db.tables name (some rows) } :=
    bind_of_run _ (run_setTable name rows db)
  have hmem : (saveTable env name { db with
      tables := Function.update db.tables name (some rows) }).state.tables name = some rows := by
    rw [show (saveTable env name _).state.tables = _ from leaves_tables_saveTable _]
    exact Function.update_self ..
  have htracks : Tracks env whole name K (saveTable env name { db with
      tables := Function.update db.tables name (some rows) }).state := by
    refine ⟨settled_of_cached (by rw [hmem]; rfl), ?_, fun _ => .inr (by rw [hmem]; rfl)⟩
    rw [content_of_cached hmem]
    exact hrows
  rw [hrun]
  exact ⟨nofun, fun _ _ => htracks, fun _ _ => htracks⟩

omit hK in
/-- An insertion into a table in memory. -/
theorem sat_insert_tracks {φ : RowList → Prop} {row : Row}
    (hrow : ∀ rows, K rows → φ rows → K (rows ++ [row])) :
    Sat (fun db => Tracks env whole name K db ∧ ∃ rows, db.tables name = some rows ∧ φ rows)
      (insert env name row) (fun _ => Tracks env whole name K) (fun _ => Tracks env whole name K)
      fun _ => True := by
  rintro db ⟨hdb, rows, hmem, hφ⟩
  have hrows : K rows := content_of_cached hmem ▸ hdb.rows
  have hrun : insert env name row db =
      (setTable name (rows ++ [row]) >>= fun _ => saveTable env name) db := by
    unfold insert Database.rows
    rw [bind_of_run _ (loadTable_of_cached hmem), bind_of_run _ (asks_apply ..)]
    simp only [hmem, Option.getD_some]
  rw [hrun]
  exact sat_setSave_tracks (P := fun _ => True) (hrow rows hrows hφ) db trivial

omit hK in
/-- The rows of a table that has been loaded. -/
theorem sat_rows_tracks :
    Sat (fun db => Tracks env whole name K db ∧ (db.tables name).isSome) (Database.rows name)
      (fun all db => Tracks env whole name K db ∧ db.tables name = some all ∧ K all)
      (fun _ => Tracks env whole name K) fun _ => True := by
  refine sat_asks fun db hdb => ?_
  obtain ⟨rows, hrows⟩ := Option.isSome_iff_exists.mp hdb.2
  rw [hrows]
  exact ⟨hdb.1, rfl, content_of_cached hrows ▸ hdb.1.rows⟩

/-- An insertion. -/
theorem guarded_insert_tracks {row : Row} (hrow : ∀ rows, K rows → K (rows ++ [row])) :
    Guarded (Tracks env whole name K) (Tracks env whole name K) (insert env name row) :=
  (sat_load_tracks hK).bind fun _ => sat_rows_tracks.bind fun all db hall =>
    sat_setSave_tracks (P := fun _ => True) (hrow all hall.2.2) db trivial

/-- A removal. -/
theorem guarded_remove_tracks {p : Row → Bool} (hp : ∀ rows, K rows → K (rows.filter fun row => !p row)) :
    Guarded (Tracks env whole name K) (Tracks env whole name K) (remove env name p) := by
  refine (sat_load_tracks hK).bind fun _ => sat_rows_tracks.bind fun all db hall => ?_
  have hsave : Sat (fun _ => True) ((setTable name (all.filter fun row => !p row) >>= fun _ => saveTable env name) >>=
      fun _ => pure (all.any p)) (fun _ => Tracks env whole name K) (fun _ => Tracks env whole name K) fun _ => True :=
    (sat_setSave_tracks (hp all hall.2.2)).bind fun _ => guarded_pure _
  rw [bind_assoc] at hsave
  exact hsave db trivial

/-- An update that may throw at some row. -/
theorem guarded_updateRows_tracks {p : Row → Except Exn Bool} {u : Row → Row}
    (hu : ∀ rows, K rows → K (updateRows p u rows).1) :
    Guarded (Tracks env whole name K) (Tracks env whole name K) (update env name p u) := by
  refine (sat_load_tracks hK).bind fun _ => sat_rows_tracks.bind fun all => ?_
  have hset : Sat (fun db => Tracks env whole name K db ∧ db.tables name = some all ∧ K all)
      (setTable name (updateRows p u all).1)
      (fun _ db => db.tables name = some (updateRows p u all).1 ∧ K (updateRows p u all).1)
      (fun _ => Tracks env whole name K) fun _ => True :=
    sat_modify fun db hdb => ⟨Function.update_self .., hu all hdb.2.2⟩
  have htracks : ∀ db, db.tables name = some (updateRows p u all).1 ∧ K (updateRows p u all).1 →
      Tracks env whole name K db := fun db hdb =>
    ⟨settled_of_cached (by rw [hdb.1]; rfl), by rw [content_of_cached hdb.1]; exact hdb.2,
      fun _ => .inr (by rw [hdb.1]; rfl)⟩
  refine hset.bind fun _ => Sat.bind (R := fun _ db => db.tables name = some (updateRows p u all).1 ∧
    K (updateRows p u all).1) (sat_ofExcept (fun _ _ _ h => h) fun _ db _ h => htracks db h) fun hit => ?_
  have hsave : Sat (fun db => db.tables name = some (updateRows p u all).1 ∧ K (updateRows p u all).1)
      (saveTable env name) (fun _ => Tracks env whole name K) (fun _ => Tracks env whole name K)
      fun _ => True := fun db hdb => by
    have hsaved : Tracks env whole name K (saveTable env name db).state := htracks _ ⟨by
      rw [show (saveTable env name db).state.tables = db.tables from leaves_tables_saveTable db]
      exact hdb.1, hdb.2⟩
    exact ⟨nofun, fun _ _ => hsaved, fun _ _ => hsaved⟩
  exact hsave.bind fun _ => guarded_pure hit

/-- An update that changes each row on its own. -/
theorem guarded_update_tracks {p : Row → Bool} {u : Row → Row}
    (hu : ∀ rows, K rows → K (rows.map fun row => if p row then u row else row)) :
    Guarded (Tracks env whole name K) (Tracks env whole name K)
      (update env name (fun row => .ok (p row)) u) := by
  refine guarded_updateRows_tracks hK fun rows hrows => ?_
  rw [updateRows_eq fun _ _ => rfl]
  exact hu rows hrows

end Tracks

/-! ## The rows that an operation leaves

None of these operations throws, and what they leave in memory is known, when
the table is in memory already or has not been read and is empty. -/

/-- The rows of the table are these, and loading it keeps them whatever fails. -/
def Lists (name : TableName) (rows : RowList) (db : Database) : Prop :=
  db.tables name = some rows ∨
    (db.tables name = none ∧ rows = [] ∧ (db.sqlite.view.docs name).getD [] = [])

/-- The triple of an operation that returns. -/
abbrev Yields {α : Type} (P : Database → Prop) (c : DbM α) (Q : α → Database → Prop) : Prop :=
  Sat P c Q (fun _ _ => False) fun _ => True

section Yields

variable {rows : RowList}

theorem yields_load : Yields (Lists name rows) (loadTable env name) fun _ db => db.tables name = some rows := by
  rintro db (hmem | ⟨hmem, rfl, hdocs⟩)
  · rw [loadTable_of_cached hmem]
    exact ⟨nofun, fun _ _ => hmem, nofun⟩
  · have hprepare : prepare env name db = ⟨.ok (!env.sqliteFails db.calls &&
        (db.sqlite.view.docs name).isSome), { db with calls := db.calls + 1 }, []⟩ := rfl
    unfold loadTable
    rw [bind_of_run _ (asks_apply ..)]
    simp only [hmem, Option.isSome_none, Bool.false_eq_true, if_false]
    rw [bind_of_run _ hprepare]
    split
    · rw [bind_of_run _ (asks_apply ..), hdocs]
      exact ⟨nofun, fun _ _ => tables_setTable [] _, nofun⟩
    · exact ⟨nofun, fun _ _ => tables_setTable [] _, nofun⟩

theorem yields_asks {α : Type} {P : Database → Prop} (f : Database → α) :
    Yields P (asks f) fun a db => a = f db ∧ P db :=
  sat_asks fun _ h => ⟨rfl, h⟩

theorem yields_time : Yields (Lists name rows) (time env) fun _ => Lists name rows :=
  fun _ h => ⟨nofun, fun _ _ => h, nofun⟩

theorem yields_queryAll :
    Yields (Lists name rows) (queryAll env name) fun all db => all = rows ∧ db.tables name = some rows :=
  yields_load.bind fun _ => (yields_asks _).post fun all db h => by
    obtain ⟨rfl, hmem⟩ := h
    exact ⟨by rw [hmem]; rfl, hmem⟩

theorem yields_query (p : Row → Bool) :
    Yields (Lists name rows) (query env name fun row => .ok (p row)) fun found db =>
      found = rows.filter p ∧ db.tables name = some rows := by
  refine yields_load.bind fun _ => (yields_asks _).bind fun all => ?_
  rw [filterRows_eq fun _ _ => rfl]
  refine sat_ofExcept (fun found db hfound hdb => ?_) nofun
  obtain ⟨rfl, hmem⟩ := hdb
  cases hfound
  exact ⟨by rw [hmem]; rfl, hmem⟩

/-- Rows that are put in memory and saved. -/
theorem yields_setSave {P : Database → Prop} (rows : RowList) :
    Yields P (setTable name rows >>= fun _ => saveTable env name) fun _ db => db.tables name = some rows := by
  intro db _
  obtain ⟨a, ha⟩ : ∃ a, ((setTable name rows >>= fun _ => saveTable env name) db).result = .ok a :=
    returns_bind (fun _ => ⟨(), rfl⟩) (fun _ => returns_saveTable) db
  have hmem : ((setTable name rows >>= fun _ => saveTable env name) db).state.tables name = some rows := by
    rw [bind_of_run _ (run_setTable name rows db),
      show (saveTable env name _).state.tables = _ from leaves_tables_saveTable _]
    exact Function.update_self ..
  rw [ha]
  exact ⟨nofun, fun _ _ => hmem, nofun⟩

theorem yields_insert (row : Row) :
    Yields (Lists name rows) (insert env name row) fun _ db => db.tables name = some (rows ++ [row]) := by
  refine yields_load.bind fun _ => (yields_asks _).bind fun all db hdb => ?_
  obtain ⟨hall, hmem⟩ := hdb
  have hrows : all = rows := by rw [hall, hmem]; rfl
  rw [hrows]
  exact yields_setSave (P := fun _ => True) (rows ++ [row]) db trivial

theorem yields_update (p : Row → Bool) (u : Row → Row) :
    Yields (Lists name rows) (update env name (fun row => .ok (p row)) u) fun hit db =>
      hit = rows.any p ∧ db.tables name = some (rows.map fun row => if p row then u row else row) := by
  refine yields_load.bind fun _ db hmem => ?_
  have hrun : (do
        let all ← Database.rows name
        setTable name (updateRows (fun row => .ok (p row)) u all).1
        let hit ← ofExcept (updateRows (fun row => .ok (p row)) u all).2
        saveTable env name
        pure hit : DbM Bool) db =
      ((setTable name (rows.map fun row => if p row then u row else row) >>=
        fun _ => saveTable env name) >>= fun _ => pure (rows.any p)) db := by
    unfold Database.rows
    rw [bind_of_run _ (asks_apply ..)]
    simp only [hmem, Option.getD_some]
    rw [updateRows_eq fun _ _ => rfl, bind_assoc]
    rfl
  rw [hrun]
  have hsave : Yields (fun _ => True) ((setTable name (rows.map fun row => if p row then u row else row) >>=
      fun _ => saveTable env name) >>= fun _ => pure (rows.any p)) fun hit db =>
      hit = rows.any p ∧ db.tables name = some (rows.map fun row => if p row then u row else row) :=
    (yields_setSave _).bind fun _ => sat_pure fun _ h => ⟨rfl, h⟩
  exact hsave db trivial

end Yields

end Database

end LanChat
