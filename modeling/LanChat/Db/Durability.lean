import LanChat.Lib.Run
import LanChat.Db.Tracks

/-!
# Rows that stay in the file

`saveTable` empties a table and inserts its rows again. It commits whatever has
become of the insertions, and a load that fails leaves a short table in memory:
both lose rows of the file. A `BEGIN`, `DELETE` or `COMMIT` that fails does not.

* `saving_saveTable`: what a rewrite makes of the connection.
* `Covered`, `Known`: what holds of each table between two calls.
* `stored_rows_kept`: which failures a row in the file survives.
-/

namespace LanChat

open Lib Json

namespace Database

open Cmd

/-! ## Changes -/

/-- A call of `insert`, `update` or `remove`. -/
inductive Change where
  | insert (name : TableName) (row : Row)
  | update (name : TableName) (p : Row → Except Exn Bool) (u : Row → Row)
  | remove (name : TableName) (p : Row → Bool)

namespace Change

def table : Change → TableName
  | insert name _ => name
  | update name _ _ => name
  | remove name _ => name

def run (env : Env) : Change → DbM Unit
  | insert name row => Database.insert env name row
  | update name p u => do
    let _ ← Database.update env name p u
    pure ()
  | remove name p => do
    let _ ← Database.remove env name p
    pure ()

/-- The rows of the table after the change. -/
def apply : Change → RowList → RowList
  | insert _ row, rows => rows ++ [row]
  | update _ p u, rows => (updateRows p u rows).1
  | remove _ p, rows => rows.filter fun row => !p row

/-- The predicate of the change holds of the row. -/
def Matches : Change → Row → Prop
  | insert _ _, _ => False
  | update _ p _, row => p row = .ok true
  | remove _ p, row => p row = true

/-- The change puts the row into a table with these rows. -/
def Writes : Change → RowList → Row → Prop
  | insert _ row, _, row' => row' = row
  | update _ p u, rows, row' => ∃ row ∈ rows, p row = .ok true ∧ row' = u row
  | remove _ _, _, _ => False

/-- The predicate throws on none of the rows. -/
def Completes : Change → RowList → Prop
  | update _ p _, rows => ∀ row ∈ rows, ∃ hit, p row = .ok hit
  | _, _ => True

end Change

/-- The row can be read from the file. -/
def Durable (name : TableName) (row : Row) (db : Database) : Prop :=
  row ∈ readable ((db.sqlite.file.docs name).getD [])

/-- The SQLite calls that the load of a table takes. -/
def loadCalls (env : Env) (name : TableName) (db : Database) : Nat :=
  match db.tables name, db.sqlite.view.docs name with
  | some _, _ => 0
  | none, none => 1
  | none, some texts => if env.sqliteFails db.calls then 1 else texts.length + 2

/-! ## Loading -/

section Load

variable {env : Env} {name : TableName} {db : Database}

theorem run_call_of (h : env.sqliteFails db.calls = false) :
    call env db = ⟨.ok true, { db with calls := db.calls + 1 }, []⟩ := by
  simp [call, h]

/-- The rows of the texts are all read, unless one of them cannot be parsed. -/
theorem run_readRows_of_calls {texts : List Bytes}
    (h : ∀ k < texts.length, env.sqliteFails (db.calls + k) = false) :
    (∃ e, (readRows env texts db).result = .error e) ∨
      readRows env texts db =
        ⟨.ok (readable texts), { db with calls := db.calls + texts.length + 1 }, []⟩ := by
  induction texts generalizing db with
  | nil => exact .inr rfl
  | cons text texts ih =>
    have hcall : env.sqliteFails db.calls = false := h 0 (Nat.succ_pos _)
    have hrest := @ih { db with calls := db.calls + 1 } fun k hk => by
      have := h (k + 1) (by simpa using hk)
      rwa [Nat.add_assoc, Nat.add_comm 1 k]
    unfold readRows
    rw [bind_of_run _ (run_call_of hcall)]
    simp only [if_true]
    cases hrow : loadRow text with
    | error e => exact .inl ⟨e, rfl⟩
    | ok row =>
      rw [bind_of_run _ (ofExcept_apply ..)]
      obtain ⟨e, he⟩ | hrest := hrest
      · exact .inl ⟨e, by rw [bind_error _ he]⟩
      · rw [bind_of_run _ hrest, readable_cons_ok hrow]
        refine .inr ?_
        simp [Nat.add_assoc, Nat.add_comm 1]

theorem leaves_tables_readRows (texts : List Bytes) : Leaves (fun db => db.tables) (readRows env texts) :=
  fun db => funext fun _ => (spares_readRows texts).tables db

/-- The calls of a load that succeeds: the statement is prepared and each row
of the table is read. -/
def Loads (env : Env) (name : TableName) (db : Database) : Prop :=
  db.tables name = none → ∀ texts, db.sqlite.view.docs name = some texts → texts ≠ [] →
    ∀ k ≤ texts.length, env.sqliteFails (db.calls + k) = false

/-- A load puts the rows of the table in memory, or throws and leaves them where
they are. -/
theorem run_loadTable_of_calls (h : Loads env name db) :
    (∃ e, (loadTable env name db).result = .error e ∧
        (loadTable env name db).state.tables = db.tables) ∨
      loadTable env name db = ⟨.ok (), { db with
        tables := Function.update db.tables name (some (db.content name)),
        calls := db.calls + loadCalls env name db }, []⟩ := by
  cases hmem : db.tables name with
  | some rows =>
    rw [loadTable_of_cached hmem, content_of_cached hmem, ← hmem, Function.update_eq_self]
    exact .inr (by simp [loadCalls, hmem])
  | none =>
    have hcontent : db.content name = readable ((db.sqlite.view.docs name).getD []) := by
      rw [content, hmem]
    have hprepare : prepare env name db = ⟨.ok (!env.sqliteFails db.calls &&
        (db.sqlite.view.docs name).isSome), { db with calls := db.calls + 1 }, []⟩ := rfl
    unfold loadTable
    rw [bind_of_run _ (asks_apply ..)]
    simp only [hmem, Option.isSome_none, Bool.false_eq_true, if_false]
    rw [bind_of_run _ hprepare]
    cases hdocs : db.sqlite.view.docs name with
    | none =>
      rw [hdocs] at hcontent
      simp only [Option.isSome_none, Bool.and_false, Bool.false_eq_true, if_false, run_setTable]
      exact .inr (by simp [loadCalls, hmem, hdocs, hcontent, readable])
    | some texts =>
      rw [hdocs, Option.getD_some] at hcontent
      cases hserved : env.sqliteFails db.calls with
      | true =>
        have hempty : texts = [] := by
          by_contra hne
          have := h hmem texts hdocs hne 0 (Nat.zero_le _)
          rw [Nat.add_zero, hserved] at this
          cases this
        subst hempty
        simp only [Bool.not_true, Bool.false_and, Bool.false_eq_true, if_false, run_setTable]
        exact .inr (by simp [loadCalls, hmem, hdocs, hcontent, hserved, readable])
      | false =>
        have hsteps : ∀ k < texts.length, env.sqliteFails (db.calls + 1 + k) = false := by
          intro k hk
          rw [Nat.add_assoc, Nat.add_comm 1 k]
          exact h hmem texts hdocs (List.ne_nil_of_length_pos (by omega)) (k + 1) hk
        simp only [Bool.not_false, Option.isSome_some, Bool.and_self, if_true]
        rw [bind_of_run _ (asks_apply ..)]
        simp only [hdocs, Option.getD_some]
        obtain ⟨e, he⟩ | hread :=
          @run_readRows_of_calls env { db with calls := db.calls + 1 } texts hsteps
        · rw [bind_error _ he]
          exact .inl ⟨e, rfl, leaves_tables_readRows texts _⟩
        · rw [bind_of_run _ hread, run_setTable]
          refine .inr ?_
          simp only [loadCalls, hmem, hdocs, hserved, hcontent, Bool.false_eq_true, if_false]
          simp only [Nat.add_assoc, Nat.add_comm 1, Nat.reduceAdd]

end Load

/-! ## Saving -/

/-- The texts of the rows whose insertion succeeds, the first of them at the call `n`. -/
def inserted (env : Env) : Nat → RowList → List Bytes
  | _, [] => []
  | n, row :: rows =>
    (if env.sqliteFails n then [] else [serialize row]) ++ inserted env (n + 1) rows

/-- The connection with other contents in view. -/
def withView (s : Sqlite) (c : Content) : Sqlite :=
  match s.transaction with
  | none => ⟨c, none⟩
  | some _ => ⟨s.file, some c⟩

/-- The contents with the documents of a table replaced. -/
def withTexts (name : TableName) (texts : List Bytes) (c : Content) : Content :=
  { c with docs := Function.update c.docs name (some texts) }

/-- Contents in which the rows have been written to the table. -/
structure Rewrites (env : Env) (name : TableName) (rows : RowList) (calls : Nat) (c c' : Content) :
    Prop where
  cleared : env.sqliteFails (calls + 1) = false
  others : ∀ other, other ≠ name → c'.docs other = c.docs other
  sound : ∀ text ∈ (c'.docs name).getD [], ∃ row ∈ rows, text = serialize row
  complete : ∀ i row, rows[i]? = some row → env.sqliteFails (calls + 2) = false →
    env.sqliteFails (calls + 3 + i) = false → serialize row ∈ (c'.docs name).getD []

/-- What `saveTable` makes of a connection. -/
inductive Saving (env : Env) (name : TableName) (rows : RowList) (calls : Nat) (s : Sqlite) :
    Sqlite → Prop
  /-- Nothing has been written, and no transaction is open. -/
  | dropped : Saving env name rows calls s ⟨s.file, none⟩
  /-- Nothing has been written, and the transaction is still open. -/
  | retained : (∀ t, s.transaction = some t → t.docs name = none ∨
      env.sqliteFails (calls + 1) = true ∧ env.sqliteFails (calls + 2) = true) →
      Saving env name rows calls s ⟨s.file, some s.view⟩
  | committed {c : Content} : Rewrites env name rows calls s.view c →
      Saving env name rows calls s ⟨c, none⟩
  | uncommitted {c : Content} : Rewrites env name rows calls s.view c →
      Saving env name rows calls s ⟨s.file, some c⟩

section Save

variable {env : Env} {name : TableName} {db : Database} {rows : RowList}

theorem mem_inserted {n : Nat} {text : Bytes} (h : text ∈ inserted env n rows) :
    ∃ row ∈ rows, text = serialize row := by
  induction rows generalizing n with
  | nil => cases h
  | cons row rows ih =>
    rw [inserted, List.mem_append] at h
    obtain h | h := h
    · split at h
      · cases h
      · exact ⟨row, List.mem_cons_self, List.mem_singleton.mp h⟩
    · obtain ⟨row', hrow', rfl⟩ := ih h
      exact ⟨row', List.mem_cons_of_mem _ hrow', rfl⟩

theorem serialize_mem_inserted {n i : Nat} {row : Row} (hrow : rows[i]? = some row)
    (h : env.sqliteFails (n + i) = false) : serialize row ∈ inserted env n rows := by
  induction rows generalizing n i with
  | nil => cases hrow
  | cons row' rows ih =>
    rw [inserted, List.mem_append]
    cases i with
    | zero =>
      cases hrow
      rw [Nat.add_zero] at h
      simp [h]
    | succ i =>
      exact .inr (ih hrow (by rwa [Nat.add_assoc, Nat.add_comm 1 i]))

theorem view_withView (s : Sqlite) (c : Content) : (withView s c).view = c := by
  unfold withView Sqlite.view
  split <;> rfl

theorem withView_withView (s : Sqlite) (c c' : Content) : withView (withView s c) c' = withView s c' := by
  obtain ⟨file, _ | t⟩ := s <;> rfl

theorem withView_view (s : Sqlite) : withView s s.view = s := by
  obtain ⟨file, _ | t⟩ := s <;> rfl

theorem withTexts_withTexts (texts texts' : List Bytes) (c : Content) :
    withTexts name texts' (withTexts name texts c) = withTexts name texts' c := by
  simp [withTexts]

theorem write_eq (change : Content → Option Content) (s : Sqlite) :
    Sqlite.write change s = (change s.view).map (withView s) := by
  obtain ⟨file, _ | t⟩ := s <;> rfl

/-- The insertions add the texts of the rows for which they succeed. -/
theorem run_insertEach_eq {c : Content} {texts : List Bytes} (hview : db.sqlite.view = c)
    (hdocs : c.docs name = some texts) :
    each rows (fun row => do
        let _ ← exec env (Sqlite.write (Content.insertDoc name (serialize row)))
        pure ()) db =
      ⟨.ok (), { db with
        sqlite := withView db.sqlite (withTexts name (texts ++ inserted env db.calls rows) c),
        calls := db.calls + rows.length }, []⟩ := by
  induction rows generalizing db c texts with
  | nil =>
    have hsame : withTexts name (texts ++ inserted env db.calls []) c = db.sqlite.view := by
      rw [inserted, List.append_nil, withTexts, ← hdocs, Function.update_eq_self, hview]
    rw [hsame, withView_view]
    rfl
  | cons row rows ih =>
    have hwrite : Sqlite.write (Content.insertDoc name (serialize row)) db.sqlite =
        some (withView db.sqlite (withTexts name (texts ++ [serialize row]) c)) := by
      rw [write_eq, hview, Content.insertDoc, hdocs]
      rfl
    have hbody : ∀ db' : Database, ((pure () : DbM Unit) db') = ⟨.ok (), db', []⟩ := fun _ => rfl
    simp only [each]
    rw [bind_of_run _ ((bind_of_run _ (run_exec_eq hwrite)).trans (hbody _))]
    cases hfails : env.sqliteFails db.calls with
    | true =>
      simp only [if_true]
      refine (@ih { db with calls := db.calls + 1 } c texts hview hdocs).trans ?_
      simp [inserted, hfails, Nat.add_assoc, Nat.add_comm 1]
    | false =>
      simp only [Bool.false_eq_true, if_false]
      refine (@ih { db with
        sqlite := withView db.sqlite (withTexts name (texts ++ [serialize row]) c)
        calls := db.calls + 1 } _ (texts ++ [serialize row]) (view_withView ..)
        (Function.update_self ..)).trans ?_
      simp [inserted, hfails, withView_withView, withTexts, Nat.add_assoc, Nat.add_comm 1]

/-- The insertions of `saveTable` into a table that has been emptied. -/
theorem run_insertRows_eq {c : Content} (hview : db.sqlite.view = c) (hdocs : c.docs name = some []) :
    ∃ texts calls, (∀ text ∈ texts, ∃ row ∈ rows, text = serialize row) ∧
      (∀ i row, rows[i]? = some row → env.sqliteFails db.calls = false →
        env.sqliteFails (db.calls + 1 + i) = false → serialize row ∈ texts) ∧
      insertRows env name rows db = ⟨.ok (), { db with
        sqlite := withView db.sqlite (withTexts name texts c), calls := calls }, []⟩ := by
  have hprepare : prepare env name db = ⟨.ok (!env.sqliteFails db.calls &&
      (db.sqlite.view.docs name).isSome), { db with calls := db.calls + 1 }, []⟩ := rfl
  have hsome : (db.sqlite.view.docs name).isSome = true := by rw [hview, hdocs]; rfl
  unfold insertRows
  rw [bind_of_run _ hprepare, hsome, Bool.and_true]
  cases hserved : env.sqliteFails db.calls with
  | true =>
    have hsame : withTexts name [] c = db.sqlite.view := by
      rw [withTexts, ← hdocs, Function.update_eq_self, hview]
    refine ⟨[], db.calls + 1, by simp, by simp, ?_⟩
    rw [hsame, withView_view]
    rfl
  | false =>
    refine ⟨inserted env (db.calls + 1) rows, db.calls + 1 + rows.length, fun _ => mem_inserted,
      fun i row hrow _ h => serialize_mem_inserted hrow h, ?_⟩
    exact @run_insertEach_eq env name { db with calls := db.calls + 1 } rows c [] hview hdocs

/-- What becomes of a table in memory when it is saved. -/
theorem saving_saveTable (hmem : db.tables name = some rows) :
    Saving env name rows db.calls db.sqlite (saveTable env name db).state.sqlite := by
  obtain ⟨result, s, hbegin, hfile, hview⟩ : ∃ result s,
      exec env Sqlite.begin db = ⟨.ok result, { db with sqlite := s, calls := db.calls + 1 }, []⟩ ∧
      s.file = db.sqlite.file ∧ s.view = db.sqlite.view := by
    obtain ⟨s, hs, hrun⟩ | hrun := @exec_cases env Sqlite.begin db
    · cases ht : db.sqlite.transaction with
      | some t => simp [Sqlite.begin, ht] at hs
      | none =>
        simp only [Sqlite.begin, ht, Option.some.injEq] at hs
        subst hs
        exact ⟨true, _, hrun, rfl, by simp [Sqlite.view, ht]⟩
    · exact ⟨false, _, hrun, rfl, rfl⟩
  unfold saveTable
  rw [bind_of_run _ (asks_apply ..)]
  simp only [hmem]
  rw [bind_of_run _ hbegin]
  have hrollback : (∀ t, db.sqlite.transaction = some t → t.docs name = none ∨
      env.sqliteFails (db.calls + 1) = true) →
      Saving env name rows db.calls db.sqlite
        (exec env Sqlite.rollback { db with sqlite := s, calls := db.calls + 1 + 1 }).state.sqlite := by
    intro hcause
    obtain ⟨file, _ | t⟩ := s
    · obtain rfl : file = db.sqlite.file := hfile
      rw [run_exec_none (show Sqlite.rollback ⟨_, none⟩ = none from rfl)]
      exact .dropped
    · obtain rfl : file = db.sqlite.file := hfile
      obtain rfl : t = db.sqlite.view := hview
      rw [run_exec_eq (show Sqlite.rollback ⟨_, some _⟩ = some ⟨db.sqlite.file, none⟩ from rfl)]
      cases hfails : env.sqliteFails (db.calls + 1 + 1) with
      | false => exact .dropped
      | true => exact .retained fun t ht => (hcause t ht).imp id fun h => ⟨h, hfails⟩
  cases hdocs : db.sqlite.view.docs name with
  | none =>
    have hclear : Sqlite.write (Content.deleteAll name) s = none := by
      rw [write_eq, hview, Content.deleteAll, hdocs]
      rfl
    rw [bind_of_run _ (run_exec_none hclear)]
    simp only [Bool.false_eq_true, if_false, state_bind_pure]
    refine hrollback fun t ht => .inl ?_
    rwa [Sqlite.view, ht] at hdocs
  | some old =>
    have hclear : Sqlite.write (Content.deleteAll name) s =
        some (withView s (withTexts name [] db.sqlite.view)) := by
      rw [write_eq, hview, Content.deleteAll, hdocs]
      rfl
    rw [bind_of_run _ (run_exec_eq hclear)]
    cases hcleared : env.sqliteFails (db.calls + 1) with
    | true =>
      simp only [Bool.not_true, Bool.false_eq_true, if_false, if_true, state_bind_pure]
      exact hrollback fun t ht => .inr hcleared
    | false =>
      simp only [Bool.not_false, Bool.false_eq_true, if_false, if_true]
      obtain ⟨texts, calls, hsound, hcomplete, hinsert⟩ := @run_insertRows_eq env name { db with
        sqlite := withView s (withTexts name [] db.sqlite.view), calls := db.calls + 1 + 1 } rows _
        (view_withView ..) (Function.update_self ..)
      rw [bind_of_run _ hinsert, state_bind_pure, withView_withView, withTexts_withTexts]
      have hrewrites : Rewrites env name rows db.calls db.sqlite.view
          (withTexts name texts db.sqlite.view) := {
        cleared := hcleared
        others := fun other hother => by simp [withTexts, hother]
        sound := by simpa [withTexts] using hsound
        complete := by simpa [withTexts] using hcomplete }
      obtain ⟨file, _ | t⟩ := s
      · rw [run_exec_none (show Sqlite.commit _ = none from rfl)]
        exact .committed hrewrites
      · obtain rfl : file = db.sqlite.file := hfile
        rw [run_exec_eq
          (show Sqlite.commit _ = some ⟨withTexts name texts db.sqlite.view, none⟩ from rfl)]
        cases env.sqliteFails calls with
        | false => exact .committed hrewrites
        | true => exact .uncommitted hrewrites

end Save

/-! ## A change as a whole -/

section Changes

variable {env : Env} {name : TableName} {db : Database} {rows : RowList} {row : Row} {change : Change}

theorem mem_updateRows_of_not {p : Row → Except Exn Bool} {u : Row → Row} (h : row ∈ rows)
    (hp : p row ≠ .ok true) : row ∈ (updateRows p u rows).1 := by
  induction rows with
  | nil => cases h
  | cons first rest ih =>
    unfold updateRows
    cases hfirst : p first with
    | error e => exact h
    | ok hit =>
      rcases List.mem_cons.mp h with rfl | hrest
      · cases hit with
        | false => exact List.mem_cons_self
        | true => exact absurd hfirst hp
      · exact List.mem_cons_of_mem _ (ih hrest)

theorem mem_updateRows {p : Row → Except Exn Bool} {u : Row → Row} (h : row ∈ (updateRows p u rows).1) :
    row ∈ rows ∨ ∃ old ∈ rows, p old = .ok true ∧ row = u old := by
  induction rows with
  | nil => cases h
  | cons first rest ih =>
    unfold updateRows at h
    cases hfirst : p first with
    | error e =>
      rw [hfirst] at h
      exact .inl h
    | ok hit =>
      rw [hfirst] at h
      rcases List.mem_cons.mp h with rfl | hrest
      · cases hit with
        | false => exact .inl List.mem_cons_self
        | true => exact .inr ⟨first, List.mem_cons_self, hfirst, rfl⟩
      · refine (ih hrest).imp (List.mem_cons_of_mem _) ?_
        rintro ⟨old, hold, hmatch, rfl⟩
        exact ⟨old, List.mem_cons_of_mem _ hold, hmatch, rfl⟩

theorem result_updateRows {p : Row → Except Exn Bool} {u : Row → Row} :
    (∃ hit, (updateRows p u rows).2 = .ok hit) ↔ ∀ row ∈ rows, ∃ hit, p row = .ok hit := by
  induction rows with
  | nil => exact ⟨fun _ => nofun, fun _ => ⟨false, rfl⟩⟩
  | cons first rest ih =>
    rw [List.forall_mem_cons, ← ih]
    cases hfirst : p first with
    | error e => simp [updateRows, hfirst]
    | ok hit =>
      cases hrest : (updateRows p u rest).2 <;> simp [updateRows, hfirst, hrest, Except.map]

/-- A change keeps the rows that its predicate does not hold of. -/
theorem Change.mem_apply (h : row ∈ rows) (hrow : ¬change.Matches row) : row ∈ change.apply rows := by
  cases change with
  | insert name new => exact List.mem_append_left _ h
  | update name p u => exact mem_updateRows_of_not h hrow
  | remove name p => exact List.mem_filter.mpr ⟨h, by simpa [Change.Matches] using hrow⟩

theorem Change.of_mem_apply (h : row ∈ change.apply rows) : row ∈ rows ∨ change.Writes rows row := by
  cases change with
  | insert name new =>
    rcases List.mem_append.mp h with h | h
    · exact .inl h
    · exact .inr (List.mem_singleton.mp h)
  | update name p u => exact mem_updateRows h
  | remove name p => exact .inl (List.mem_filter.mp h).1

/-- The database after a change has been made in memory. -/
def changed (change : Change) (rows : RowList) (db : Database) : Database :=
  { db with tables := Function.update db.tables change.table (some (change.apply rows)) }

/-- A change is made in memory, and saved unless the predicate throws. -/
theorem state_run (hload : (loadTable env change.table db).result = .ok ())
    (hmem : (loadTable env change.table db).state.tables change.table = some rows) :
    (change.Completes rows → (change.run env db).state =
        (saveTable env change.table (changed change rows (loadTable env change.table db).state)).state) ∧
      (¬change.Completes rows → (change.run env db).state =
        changed change rows (loadTable env change.table db).state) := by
  cases change with
  | insert name new =>
    refine ⟨fun _ => ?_, fun h => absurd trivial h⟩
    simp only [Change.table] at hload hmem
    simp only [Change.run, insert, Database.rows]
    rw [bind_ok _ hload, bind_of_run _ (asks_apply ..)]
    simp only [hmem, Option.getD_some]
    rfl
  | update name p u =>
    simp only [Change.table] at hload hmem
    simp only [Change.run, Change.Completes, update, Database.rows, state_bind_pure]
    rw [bind_ok _ hload, bind_of_run _ (asks_apply ..)]
    simp only [hmem, Option.getD_some]
    rw [bind_of_run _ (run_setTable ..), ← result_updateRows]
    cases hresult : (updateRows p u rows).2 with
    | ok hit =>
      refine ⟨fun _ => ?_, fun h => absurd ⟨hit, rfl⟩ h⟩
      rw [bind_of_run _ (ofExcept_apply ..), state_bind_pure]
      rfl
    | error e => exact ⟨nofun, fun _ => rfl⟩
  | remove name p =>
    refine ⟨fun _ => ?_, fun h => absurd trivial h⟩
    simp only [Change.table] at hload hmem
    simp only [Change.run, remove, Database.rows, state_bind_pure]
    rw [bind_ok _ hload, bind_of_run _ (asks_apply ..)]
    simp only [hmem, Option.getD_some]
    rw [bind_of_run _ (run_setTable ..), state_bind_pure]
    rfl

end Changes

/-! ## Rows that are owed -/

/-- A database, and the rows that have been stored and that no predicate has
held of since. -/
structure Watched where
  db : Database
  owed : TableName → Row → Prop

namespace Watched

/-- A connection to a file. -/
def start (file : Content) : Watched := ⟨connect file, fun name row => Durable name row (connect file)⟩

/-- A change. When it throws, the caller goes on with the database as it is then. -/
def step (env : Env) (s : Watched) (change : Change) : Option Watched :=
  let db := (change.run env s.db).state
  some ⟨db, fun name row => (s.owed name row ∧ ¬(change.table = name ∧ change.Matches row)) ∨
    (Durable name row db ∧ ¬Durable name row s.db)⟩

/-- The rows that are owed are in the file. -/
def NothingLost (s : Watched) : Prop := ∀ name row, s.owed name row → Durable name row s.db

end Watched

/-- The text of the row is read back as this row. -/
def ReadsBack (row : Row) : Prop := loadRow (serialize row) = .ok (some row)

/-- The text of the row is read back as this row or as none. -/
def Faithful (row : Row) : Prop := ∀ row', loadRow (serialize row) = .ok (some row') → row' = row

/-- The calls that the rows of the file depend on succeed, and texts are read
back as the rows that they were written for. -/
structure Secured (env : Env) (change : Change) (db : Database) : Prop where
  /-- A table that is not in memory is read to its end. -/
  loads : Loads env change.table db
  reads : db.tables change.table = none → ∀ row, Durable change.table row db → ReadsBack row
  writes : ∀ row, change.Writes (db.content change.table) row → Faithful row
  /-- Where the `DELETE` succeeds, so do the insertions of the stored rows that the change does not match. -/
  inserts : change.Completes (db.content change.table) →
    env.sqliteFails (db.calls + loadCalls env change.table db + 1) = false →
    ∀ i row, (change.apply (db.content change.table))[i]? = some row →
      Durable change.table row db → ¬change.Matches row →
        env.sqliteFails (db.calls + loadCalls env change.table db + 2) = false ∧
        env.sqliteFails (db.calls + loadCalls env change.table db + 3 + i) = false
  /-- A matching row that is only in the open transaction does not stay there. -/
  settles : ∀ row ∈ readable ((db.sqlite.view.docs change.table).getD []),
    ¬Durable change.table row db → change.Matches row →
      change.Completes (db.content change.table) ∧
        (env.sqliteFails (db.calls + loadCalls env change.table db + 1) = false ∨
          env.sqliteFails (db.calls + loadCalls env change.table db + 2) = false)

/-- The rows that are owed of the table are wherever it is kept. -/
structure Covered (name : TableName) (owed : Row → Prop) (db : Database) : Prop where
  durable : ∀ row, owed row → Durable name row db
  pending : ∀ row, owed row → row ∈ readable ((db.sqlite.view.docs name).getD [])
  memory : ∀ rows row, db.tables name = some rows → owed row → row ∈ rows ∧ ReadsBack row
  faithful : ∀ rows row, db.tables name = some rows → row ∈ rows → Faithful row
  settled : db.Settled name

/-- What is only in the open transaction is in memory. -/
def Known (name : TableName) (db : Database) : Prop :=
  ∀ rows row, db.tables name = some rows → row ∈ readable ((db.sqlite.view.docs name).getD []) →
    ¬Durable name row db → row ∈ rows ∧ ReadsBack row

section Rows

variable {env : Env} {name other : TableName} {db db' : Database} {owed : Row → Prop} {rows : RowList}
  {row : Row} {change : Change}

/-- What is not written to a table: its documents are those of the file or those in view. -/
structure Unwritten (name : TableName) (s s' : Sqlite) : Prop where
  file : s'.file.docs name = s.file.docs name ∨ s'.file.docs name = s.view.docs name
  view : s'.view.docs name = s'.file.docs name ∨ s'.view.docs name = s.view.docs name

theorem Unwritten.of_eq {s s' : Sqlite} (h : s' = s) : Unwritten name s s' := by
  subst h
  exact ⟨.inl rfl, .inr rfl⟩

theorem Covered.mono {owed' : Row → Prop} (h : Covered name owed db)
    (howed : ∀ row, owed' row → owed row) : Covered name owed' db where
  durable row hrow := h.durable row (howed row hrow)
  pending row hrow := h.pending row (howed row hrow)
  memory rows row hmem hrow := h.memory rows row hmem (howed row hrow)
  faithful := h.faithful
  settled := h.settled

theorem Saving.unwritten {calls : Nat} {s s' : Sqlite} (h : Saving env name rows calls s s')
    (hother : other ≠ name) : Unwritten other s s' := by
  cases h with
  | dropped => exact ⟨.inl rfl, .inl rfl⟩
  | retained _ => exact ⟨.inl rfl, .inr rfl⟩
  | committed h => exact ⟨.inr (h.others other hother), .inl rfl⟩
  | uncommitted h => exact ⟨.inl rfl, .inr (h.others other hother)⟩

theorem settled_iff : db.Settled name ↔
    (db.tables name = none → (db.sqlite.view.docs name).getD [] = (db.sqlite.file.docs name).getD []) := by
  unfold Settled Shows Sqlite.view
  refine forall_congr' fun _ => ?_
  cases db.sqlite.transaction with
  | none => exact ⟨fun _ => rfl, fun _ => ⟨_, rfl, nofun⟩⟩
  | some t =>
    refine ⟨fun ⟨texts, hfile, ht⟩ => (ht t rfl).trans hfile.symm,
      fun h => ⟨_, rfl, fun c hc => ?_⟩⟩
    cases hc
    exact h

/-- Rows that come to the file without being written come from the open transaction. -/
theorem Covered.unwritten (h : Covered name owed db) (hknown : Known name db)
    (htables : db'.tables name = db.tables name) (hs : Unwritten name db.sqlite db'.sqlite) :
    Covered name (fun row => owed row ∨ Durable name row db' ∧ ¬Durable name row db) db' ∧
      Known name db' := by
  have hnew : ∀ row, Durable name row db' → ¬Durable name row db →
      row ∈ readable ((db.sqlite.view.docs name).getD []) := by
    intro row hrow hnot
    obtain hfile | hfile := hs.file
    · rw [Durable, hfile] at hrow
      exact absurd hrow hnot
    · rwa [Durable, hfile] at hrow
  have hview : ∀ row, Durable name row db' → row ∈ readable ((db.sqlite.view.docs name).getD []) →
      row ∈ readable ((db'.sqlite.view.docs name).getD []) := by
    intro row hrow hin
    obtain hview | hview := hs.view
    · rwa [hview]
    · rwa [hview]
  have hkept : ∀ row, owed row → Durable name row db' := by
    intro row hrow
    rw [Durable]
    obtain hfile | hfile := hs.file
    · rw [hfile]
      exact h.durable row hrow
    · rw [hfile]
      exact h.pending row hrow
  refine ⟨⟨?durable, ?pending, ?memory, ?faithful, ?settled⟩, ?known⟩
  case durable => exact fun row hrow => hrow.elim (hkept row) fun hrow => hrow.1
  case pending =>
    rintro row (hrow | ⟨hrow, hnot⟩)
    · exact hview row (hkept row hrow) (h.pending row hrow)
    · exact hview row hrow (hnew row hrow hnot)
  case memory =>
    rintro rows row hmem (hrow | ⟨hrow, hnot⟩)
    · exact h.memory rows row (htables ▸ hmem) hrow
    · exact hknown rows row (htables ▸ hmem) (hnew row hrow hnot) hnot
  case faithful => exact fun rows row hmem => h.faithful rows row (htables ▸ hmem)
  case settled =>
    refine settled_iff.mpr fun hnone => ?_
    have hsame := settled_iff.mp h.settled (htables ▸ hnone)
    obtain hview | hview := hs.view
    · rw [hview]
    · rw [hview, hsame]
      obtain hfile | hfile := hs.file
      · rw [hfile]
      · rw [hfile, hsame]
  case known =>
    intro rows row hmem hrow hnot
    obtain hview | hview := hs.view
    · rw [hview] at hrow
      exact absurd hrow hnot
    · rw [hview] at hrow
      refine hknown rows row (htables ▸ hmem) hrow fun hdurable => hnot ?_
      rw [Durable]
      obtain hfile | hfile := hs.file
      · rwa [hfile]
      · rwa [hfile]

/-! The table that is changed. -/

theorem mem_readable {texts : List Bytes} :
    row ∈ readable texts ↔ ∃ text ∈ texts, loadRow text = .ok (some row) := by
  rw [readable, List.mem_filterMap]
  refine exists_congr fun text => and_congr_right fun _ => ?_
  cases loadRow text <;> simp

theorem ReadsBack.faithful (h : ReadsBack row) : Faithful row := fun row' hrow' => by
  cases h.symm.trans hrow'
  rfl

/-- A load puts the rows that are owed in memory. -/
theorem Covered.load (h : Covered name owed db) (hknown : Known name db)
    (hreads : db.tables name = none → ∀ row, Durable name row db → ReadsBack row)
    (hs : db'.sqlite = db.sqlite) (hmem : db'.tables name = some (db.content name)) :
    Covered name owed db' ∧ Known name db' := by
  have hsettled : db'.Settled name := settled_of_cached (by rw [hmem]; rfl)
  cases hcached : db.tables name with
  | some rows =>
    have htables : db'.tables name = db.tables name := by rw [hmem, content_of_cached hcached, hcached]
    refine ⟨⟨?durable, ?pending, ?memory, ?faithful, hsettled⟩, ?known⟩
    case durable => simpa only [Durable, hs] using h.durable
    case pending => simpa only [hs] using h.pending
    case memory => simpa only [htables] using h.memory
    case faithful => simpa only [htables] using h.faithful
    case known => simpa only [Known, Durable, hs, htables] using hknown
  | none =>
    have hview := settled_iff.mp h.settled hcached
    have hcontent : ∀ row, row ∈ db.content name ↔ Durable name row db := fun row => by
      rw [content, hcached, hview]
      rfl
    refine ⟨⟨?durable, ?pending, ?memory, ?faithful, hsettled⟩, ?known⟩
    case durable => simpa only [Durable, hs] using h.durable
    case pending => simpa only [hs] using h.pending
    case memory =>
      intro rows row hrows hrow
      obtain rfl : db.content name = rows := Option.some.inj (hmem.symm.trans hrows)
      have hdurable := h.durable row hrow
      exact ⟨(hcontent row).mpr hdurable, hreads hcached row hdurable⟩
    case faithful =>
      intro rows row hrows hrow
      obtain rfl : db.content name = rows := Option.some.inj (hmem.symm.trans hrows)
      exact (hreads hcached row ((hcontent row).mp hrow)).faithful
    case known =>
      intro rows row _ hrow hnot
      rw [hs, hview] at hrow
      rw [Durable, hs] at hnot
      exact absurd hrow hnot

/-- A change in memory keeps the rows that it does not match. -/
theorem Covered.apply (h : Covered change.table owed db) (hmem : db.tables change.table = some rows)
    (hwrites : ∀ row, change.Writes rows row → Faithful row) :
    Covered change.table (fun row => owed row ∧ ¬change.Matches row) (changed change rows db) := by
  have hchanged : (changed change rows db).tables change.table = some (change.apply rows) :=
    Function.update_self ..
  refine ⟨fun row hrow => h.durable row hrow.1, fun row hrow => h.pending row hrow.1, ?memory, ?faithful,
    settled_of_cached (by rw [hchanged]; rfl)⟩
  case memory =>
    intro rows' row hrows' hrow
    obtain rfl : change.apply rows = rows' := Option.some.inj (hchanged.symm.trans hrows')
    obtain ⟨hin, hreads⟩ := h.memory rows row hmem hrow.1
    exact ⟨change.mem_apply hin hrow.2, hreads⟩
  case faithful =>
    intro rows' row hrows' hrow
    obtain rfl : change.apply rows = rows' := Option.some.inj (hchanged.symm.trans hrows')
    exact (change.of_mem_apply hrow).elim (h.faithful rows row hmem) (hwrites row)

theorem Known.apply (h : Known change.table db) (hmem : db.tables change.table = some rows)
    (hkept : ∀ row, row ∈ readable ((db.sqlite.view.docs change.table).getD []) →
      ¬Durable change.table row db → ¬change.Matches row) :
    Known change.table (changed change rows db) := by
  intro rows' row hrows' hrow hnot
  obtain rfl : change.apply rows = rows' :=
    Option.some.inj ((Function.update_self (f := db.tables) ..).symm.trans hrows')
  obtain ⟨hin, hreads⟩ := h rows row hmem hrow hnot
  exact ⟨change.mem_apply hin (hkept row hrow hnot), hreads⟩

theorem known_of_view (h : db.sqlite.view.docs name = db.sqlite.file.docs name) : Known name db := by
  intro rows row _ hrow hnot
  rw [h] at hrow
  exact absurd hrow hnot

/-- Contents in which the table has been rewritten have the rows that are owed,
and no rows but those in memory. -/
theorem Covered.rewrites {calls : Nat} {c : Content} (h : Covered name owed db)
    (hmem : db.tables name = some rows) (hc : Rewrites env name rows calls db.sqlite.view c)
    (hinserts : ∀ i row, rows[i]? = some row → owed row →
      env.sqliteFails (calls + 2) = false ∧ env.sqliteFails (calls + 3 + i) = false) :
    (∀ row, owed row → row ∈ readable ((c.docs name).getD [])) ∧
      ∀ row ∈ readable ((c.docs name).getD []), row ∈ rows ∧ ReadsBack row := by
  constructor
  · intro row hrow
    obtain ⟨hin, hreads⟩ := h.memory rows row hmem hrow
    obtain ⟨i, hi⟩ := List.getElem?_of_mem hin
    obtain ⟨hprepared, hstepped⟩ := hinserts i row hi hrow
    exact mem_readable.mpr ⟨_, hc.complete i row hi hprepared hstepped, hreads⟩
  · intro row hrow
    obtain ⟨text, htext, hload⟩ := mem_readable.mp hrow
    obtain ⟨old, hold, rfl⟩ := hc.sound text htext
    obtain rfl := h.faithful rows old hmem hold row hload
    exact ⟨hold, hload⟩

/-- A save keeps the rows that are owed where it has inserted them. -/
theorem Covered.save {calls : Nat} (h : Covered name owed db) (hmem : db.tables name = some rows)
    (hsaving : Saving env name rows calls db.sqlite db'.sqlite) (htables : db'.tables = db.tables)
    (hinserts : env.sqliteFails (calls + 1) = false → ∀ i row, rows[i]? = some row → owed row →
      env.sqliteFails (calls + 2) = false ∧ env.sqliteFails (calls + 3 + i) = false)
    (hknown : env.sqliteFails (calls + 1) = false ∨ env.sqliteFails (calls + 2) = false ∨
      Known name db) :
    Covered name (fun row => owed row ∨ Durable name row db' ∧ ¬Durable name row db) db' ∧
      Known name db' := by
  have hcached : db'.tables name = some rows := (congrFun htables name).trans hmem
  have hsettled : db'.Settled name := settled_of_cached (by rw [hcached]; rfl)
  have hfaithful : ∀ rows' row, db'.tables name = some rows' → row ∈ rows' → Faithful row := by
    rw [htables]
    exact h.faithful
  have hsame : db'.sqlite.file = db.sqlite.file → (Known name db') →
      (∀ row, owed row → row ∈ readable ((db'.sqlite.view.docs name).getD [])) →
      Covered name (fun row => owed row ∨ Durable name row db' ∧ ¬Durable name row db) db' ∧
        Known name db' := by
    intro hfile hknown' hpending
    have hold : ∀ row, (owed row ∨ Durable name row db' ∧ ¬Durable name row db) → owed row := by
      rintro row (hrow | ⟨hrow, hnot⟩)
      · exact hrow
      · rw [Durable, hfile] at hrow
        exact absurd hrow hnot
    refine ⟨⟨fun row hrow => ?_, fun row hrow => hpending row (hold row hrow),
      fun rows' row hrows' hrow => ?_, hfaithful, hsettled⟩, hknown'⟩
    · rw [Durable, hfile]
      exact h.durable row (hold row hrow)
    · rw [htables] at hrows'
      exact h.memory rows' row hrows' (hold row hrow)
  generalize hs : db'.sqlite = s' at hsaving
  cases hsaving with
  | dropped =>
    refine hsame (by rw [hs]) (known_of_view (by rw [hs]; rfl)) fun row hrow => ?_
    rw [hs]
    exact h.durable row hrow
  | retained hcause =>
    have hview : db'.sqlite.view = db.sqlite.view := by rw [hs]; rfl
    refine hsame (by rw [hs]) ?_ fun row hrow => by rw [hview]; exact h.pending row hrow
    intro rows' row hrows' hrow hnot
    rw [hview] at hrow
    rw [Durable, hs] at hnot
    cases ht : db.sqlite.transaction with
    | none =>
      rw [Sqlite.view, ht] at hrow
      exact absurd hrow hnot
    | some t =>
      obtain hnone | ⟨hcleared, hrolled⟩ := hcause t ht
      · rw [Sqlite.view, ht, Option.getD_some, hnone] at hrow
        cases hrow
      · rw [hcleared, hrolled] at hknown
        obtain hfalse | hfalse | hknown := hknown
        · cases hfalse
        · cases hfalse
        · rw [htables] at hrows'
          exact hknown rows' row hrows' hrow hnot
  | committed hc =>
    obtain ⟨hwritten, honly⟩ := h.rewrites hmem hc (hinserts hc.cleared)
    have hdocs : ∀ row, owed row ∨ Durable name row db' ∧ ¬Durable name row db →
        Durable name row db' := by
      rintro row (hrow | hrow)
      · rw [Durable, hs]
        exact hwritten row hrow
      · exact hrow.1
    have hview : db'.sqlite.view = db'.sqlite.file := by rw [hs]; rfl
    refine ⟨⟨hdocs, fun row hrow => ?_, fun rows' row hrows' hrow => ?_, hfaithful, hsettled⟩,
      known_of_view (by rw [hview])⟩
    · rw [hview]
      exact hdocs row hrow
    · obtain rfl : rows = rows' := Option.some.inj (hcached.symm.trans hrows')
      have hrow := hdocs row hrow
      rw [Durable, hs] at hrow
      exact honly row hrow
  | uncommitted hc =>
    obtain ⟨hwritten, honly⟩ := h.rewrites hmem hc (hinserts hc.cleared)
    refine hsame (by rw [hs]) ?_ fun row hrow => by rw [hs]; exact hwritten row hrow
    intro rows' row hrows' hrow _
    obtain rfl : rows = rows' := Option.some.inj (hcached.symm.trans hrows')
    rw [hs] at hrow
    exact honly row hrow

/-- A change whose load throws is not made. -/
theorem state_run_of_error {e : Exn} (h : (loadTable env change.table db).result = .error e) :
    (change.run env db).state = (loadTable env change.table db).state := by
  cases change with
  | insert name new =>
    simp only [Change.table] at h ⊢
    simp only [Change.run, insert]
    rw [bind_error _ h]
  | update name p u =>
    simp only [Change.table] at h ⊢
    simp only [Change.run, update, state_bind_pure]
    rw [bind_error _ h]
  | remove name p =>
    simp only [Change.table] at h ⊢
    simp only [Change.run, remove, state_bind_pure]
    rw [bind_error _ h]

/-- The table of a change, once it is in memory. -/
theorem covered_changed (h : Covered change.table owed db) (hknown : Known change.table db)
    (hsecured : Secured env change db) {db₁ : Database} (hs : db₁.sqlite = db.sqlite)
    (hmem : db₁.tables change.table = some (db.content change.table)) :
    Covered change.table (fun row => owed row ∧ ¬change.Matches row)
        (changed change (db.content change.table) db₁) ∧
      (change.Completes (db.content change.table) ∧
          (env.sqliteFails (db.calls + loadCalls env change.table db + 1) = false ∨
            env.sqliteFails (db.calls + loadCalls env change.table db + 2) = false) ∨
        Known change.table (changed change (db.content change.table) db₁)) := by
  obtain ⟨hload, hknown₁⟩ := h.load hknown hsecured.reads hs hmem
  refine ⟨hload.apply hmem hsecured.writes, ?_⟩
  by_cases hrow : ∃ row ∈ readable ((db.sqlite.view.docs change.table).getD []),
      ¬Durable change.table row db ∧ change.Matches row
  · obtain ⟨row, hin, hnot, hmatch⟩ := hrow
    exact .inl (hsecured.settles row hin hnot hmatch)
  · refine .inr (hknown₁.apply hmem fun row hin hnot hmatch => hrow ⟨row, ?_, ?_, hmatch⟩)
    · rwa [hs] at hin
    · rwa [Durable, hs] at hnot

/-- A change does not write to another table. -/
theorem unwritten_run (hloads : Loads env change.table db) (hname : name ≠ change.table) :
    (change.run env db).state.tables name = db.tables name ∧
      Unwritten name db.sqlite (change.run env db).state.sqlite := by
  have hsqlite : (loadTable env change.table db).state.sqlite = db.sqlite :=
    leaves_sqlite_loadTable change.table db
  obtain ⟨e, he, htables⟩ | hload := run_loadTable_of_calls hloads
  · rw [state_run_of_error he, htables]
    exact ⟨rfl, .of_eq hsqlite⟩
  · have hmem : (loadTable env change.table db).state.tables change.table =
        some (db.content change.table) := by
      rw [hload]
      exact Function.update_self ..
    have hothers : (changed change (db.content change.table)
        (loadTable env change.table db).state).tables name = db.tables name := by
      rw [hload]
      simp [changed, hname]
    obtain ⟨hcompletes, hthrows⟩ := state_run (by rw [hload]) hmem
    by_cases hcomplete : change.Completes (db.content change.table)
    · rw [hcompletes hcomplete]
      refine ⟨(congrFun (leaves_tables_saveTable _) name).trans hothers, ?_⟩
      have hsaving := (@saving_saveTable env change.table (changed change (db.content change.table)
        (loadTable env change.table db).state) _ (Function.update_self ..)).unwritten hname
      rwa [show (changed change (db.content change.table)
        (loadTable env change.table db).state).sqlite = db.sqlite from hsqlite] at hsaving
    · rw [hthrows hcomplete]
      exact ⟨hothers, .of_eq hsqlite⟩

/-- A change that is secured keeps the rows of its table that are owed. -/
theorem covered_run (h : Covered change.table owed db) (hknown : Known change.table db)
    (hsecured : Secured env change db) :
    Covered change.table (fun row => (owed row ∧ ¬change.Matches row) ∨
        Durable change.table row (change.run env db).state ∧ ¬Durable change.table row db)
        (change.run env db).state ∧
      Known change.table (change.run env db).state := by
  have hsqlite : (loadTable env change.table db).state.sqlite = db.sqlite :=
    leaves_sqlite_loadTable change.table db
  obtain ⟨e, he, htables⟩ | hload := run_loadTable_of_calls hsecured.loads
  · rw [state_run_of_error he]
    exact (h.mono fun _ hrow => hrow.1).unwritten hknown (congrFun htables _) (.of_eq hsqlite)
  · have hmem : (loadTable env change.table db).state.tables change.table =
        some (db.content change.table) := by
      rw [hload]
      exact Function.update_self ..
    have hcalls : (loadTable env change.table db).state.calls =
        db.calls + loadCalls env change.table db := by rw [hload]
    obtain ⟨hcompletes, hthrows⟩ := state_run (by rw [hload]) hmem
    obtain ⟨hchanged, hsettled⟩ := covered_changed h hknown hsecured hsqlite hmem
    have hdurable : ∀ row, Durable change.table row (changed change (db.content change.table)
        (loadTable env change.table db).state) ↔ Durable change.table row db := fun row => by
      rw [Durable, Durable, changed, hsqlite]
    by_cases hcomplete : change.Completes (db.content change.table)
    · rw [hcompletes hcomplete]
      simp only [← hdurable]
      refine hchanged.save (Function.update_self ..) (saving_saveTable (Function.update_self ..))
        (leaves_tables_saveTable _) ?_ ?_
      · intro hcleared i row hrow howed
        rw [changed, hcalls] at hcleared ⊢
        exact hsecured.inserts hcomplete hcleared i row hrow (h.durable row howed.1) howed.2
      · rw [changed, hcalls]
        exact hsettled.elim (fun h => h.2.imp id .inl) fun h => .inr (.inr h)
    · rw [hthrows hcomplete]
      have hknown₁ := hsettled.resolve_left fun h => hcomplete h.1
      simpa only [hdurable] using hchanged.unwritten hknown₁ rfl (.of_eq rfl)

/-- A change that is secured keeps the rows that are owed. -/
theorem covered_step {s s' : Watched} (hs : ∀ name, Covered name (s.owed name) s.db ∧ Known name s.db)
    (hsecured : Secured env change s.db) (hstep : s.step env change = some s') (name : TableName) :
    Covered name (s'.owed name) s'.db ∧ Known name s'.db := by
  cases hstep
  obtain ⟨hcovered, hknown⟩ := hs name
  rcases eq_or_ne name change.table with rfl | hname
  · simpa only [true_and] using covered_run hcovered hknown hsecured
  · obtain ⟨htables, hunwritten⟩ := unwritten_run hsecured.loads hname
    obtain ⟨hcovered, hknown⟩ := hcovered.unwritten hknown htables hunwritten
    exact ⟨hcovered.mono fun _ hrow => hrow.imp And.left id, hknown⟩

end Rows

namespace Watched

/-- As long as each change is secured, whatever else fails, a row that has been
stored and that no predicate has held of since is in the file after each change. -/
theorem stored_rows_kept (env : Env) (file : Content) (changes : List Change)
    (h : Along (step env) (fun s change => Secured env change s.db) (start file) changes) :
    Throughout (step env) NothingLost (start file) changes := by
  have hstart : ∀ name, Covered name ((start file).owed name) (start file).db ∧
      Known name (start file).db := fun name =>
    ⟨⟨fun _ hrow => hrow, fun _ hrow => hrow, nofun, nofun, fun _ => ⟨_, rfl, nofun⟩⟩, nofun⟩
  have hcovered := throughout_of_along (J := fun _ => True)
    (I := fun s => ∀ name, Covered name (s.owed name) s.db ∧ Known name s.db) (fun _ _ _ _ _ => trivial)
    (fun _ _ _ _ hs hstep hsecured => covered_step hs hsecured hstep) trivial hstart h
  exact hcovered.imp fun s hs name row hrow => (hs name).1.durable row hrow

/-- The row of a user. -/
def user (id : Int32) : Row := object [("id", ofInt32 id)]

/-- A file with one user. -/
def oneUser : Content :=
  { Content.empty with docs := Function.update Content.empty.docs .users (some [serialize (user 1)]) }

/-- An environment in which one SQLite call fails. -/
def failingAt (n : Nat) : Env := { Env.ideal with sqliteFails := fun call => call == n }

/-- A `COMMIT` that fails loses no user. -/
theorem stored_rows_kept_commit :
    Throughout (step (failingAt 8)) NothingLost (start oneUser) [.insert .users (user 2)] := by
  refine stored_rows_kept (failingAt 8) oneUser [.insert .users (user 2)] fun s' _ => ⟨?_, trivial⟩
  have hserves : ∀ n < 8, (failingAt 8).sqliteFails n = false := fun n hn => beq_false_of_ne hn.ne
  have hcalls : (start oneUser).db.calls + loadCalls (failingAt 8) .users (start oneUser).db = 3 := rfl
  refine ⟨fun _ texts htexts _ k hk => ?loads, fun _ row hrow => ?reads, fun row hrow => ?writes,
    fun _ _ i row hi _ _ => ?inserts, fun _ _ _ => nofun⟩
  case loads =>
    cases htexts
    exact hserves _ (by simp at hk; simp [start, connect]; omega)
  case reads =>
    obtain rfl : row = user 1 := List.mem_singleton.mp hrow
    exact rfl
  case writes =>
    obtain rfl : row = user 2 := hrow
    exact ReadsBack.faithful rfl
  case inserts =>
    have hlength : i < 2 := (List.getElem?_eq_some_iff.mp hi).1
    rw [Change.table, hcalls]
    exact ⟨hserves _ (by omega), hserves _ (by omega)⟩

/-- `saveTable` commits the table without the row whose insertion has failed. -/
theorem stored_row_lost : ¬∀ (env : Env) (file : Content) (changes : List Change),
    Throughout (step env) NothingLost (start file) changes := by
  intro h
  have hlast := (h (failingAt 6) oneUser [.insert .users (user 2)]).2 _ rfl
  have hkept := hlast .users (user 1) (.inl ⟨List.mem_singleton.mpr rfl, fun hmatch => hmatch.2⟩)
  have hother : ∀ text ∈ (readable (((Change.run (failingAt 6) (.insert .users (user 2))
      (connect oneUser)).state.sqlite.file.docs .users).getD [])).map serialize,
      text ≠ serialize (user 1) := by
    decide +kernel
  exact hother _ (List.mem_map_of_mem hkept) rfl

end Watched

end Database

end LanChat
