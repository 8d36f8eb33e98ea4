import Mathlib.Data.List.TakeWhile
import LanChat.Json.Nesting
import LanChat.Db.Database

/-!
# The rows behind a database

What the document store is for: it holds a list of rows for each table.
`Holds rows db` says that the database holds these rows, whichever of its tables
are in memory. As long as SQLite serves, the operations of `Database` are the
operations on lists: `sat_query`, `sat_insert`, `sat_update`, `sat_remove`.
-/

namespace LanChat

open Lib Json

/-- The fields of a user that the repository reads without a default. -/
def userFields : List String := ["id", "password_hash", "nickname", "avatar_id"]

/-- A row that the server writes into the table: an object without doubles,
and a user has its fields. -/
structure RowShape (name : TableName) (row : Row) : Prop where
  plain : (Value.obj row).Plain
  user : name = .users → ∀ key ∈ userFields, (row.find? (lit key)).isSome

theorem plain_put {row : Row} {key : Bytes} {v : Value} (h : (Value.obj row).Plain) (hv : v.Plain) :
    (Value.obj (row.put key v)).Plain := by
  cases h with
  | obj hsorted h =>
    refine .obj (OrdMap.sorted_put hsorted) fun e he => ?_
    rcases OrdMap.mem_put he with rfl | he
    · exact hv
    · exact h e he

theorem plain_object {fields : List (String × Value)} (h : ∀ field ∈ fields, field.2.Plain) :
    (Value.obj (object fields)).Plain := by
  induction fields using List.reverseRecOn with
  | nil => exact .obj (by simp [object]) (by simp [object])
  | append_singleton fields field ih =>
    rw [object, List.foldl_append]
    exact plain_put (ih fun f hf => h f (List.mem_append_left _ hf))
      (h field (List.mem_append_right _ List.mem_cons_self))

/-- Assigning a field keeps the shape of a row. -/
theorem RowShape.put {name : TableName} {row : Row} {v : Value} (h : RowShape name row)
    (key : Bytes) (hv : v.Plain) : RowShape name (row.put key v) where
  plain := plain_put h.plain hv
  user hname k hk := by
    rw [OrdMap.find?_put]
    split
    · rfl
    · exact h.user hname k hk

theorem RowShape.of_object {name : TableName} {fields : List (String × Value)}
    (h : ∀ field ∈ fields, field.2.Plain) (hname : name ≠ .users) : RowShape name (object fields) :=
  ⟨plain_object h, fun h => absurd h hname⟩

namespace Database

/-- The database holds these rows. A table that is not in memory can be read
from the file. -/
structure Holds (rows : TableName → RowList) (db : Database) : Prop where
  idle : db.sqlite.transaction = none
  docs : ∀ name, db.sqlite.file.docs name = some ((rows name).map serialize)
  cached : ∀ name loaded, db.tables name = some loaded → loaded = rows name
  readable : ∀ name, db.tables name = none → ∀ row ∈ rows name, (Value.obj row).NulFree
  shape : ∀ name, ∀ row ∈ rows name, RowShape name row

/-- The database with the documents of one table replaced. -/
def withDocs (db : Database) (name : TableName) (texts : List Bytes) : Database :=
  { db with
    sqlite := ⟨{ db.sqlite.file with
      docs := Function.update db.sqlite.file.docs name (some texts) }, none⟩ }

/-- The database with a table in memory. -/
def withTable (db : Database) (name : TableName) (list : RowList) (calls : Nat) : Database :=
  { db with tables := Function.update db.tables name (some list), calls := calls }

section Serving

variable {env : Env} {name : TableName} {db : Database} {rows : TableName → RowList}

/-! ## SQLite calls that succeed -/

theorem run_call (henv : env.Serves) (db : Database) :
    call env db = ⟨.ok true, { db with calls := db.calls + 1 }, []⟩ := by
  simp [call, henv db.calls]

theorem run_time (db : Database) :
    time env db = ⟨.ok (env.time db.readings), { db with readings := db.readings + 1 }, []⟩ := rfl

/-- A statement takes effect if the call succeeds. -/
theorem run_exec_eq {statement : Sqlite → Option Sqlite} {s : Sqlite}
    (h : statement db.sqlite = some s) :
    exec env statement db = ⟨.ok (!env.sqliteFails db.calls), { db with
      sqlite := if env.sqliteFails db.calls then db.sqlite else s, calls := db.calls + 1 }, []⟩ := by
  have hcall : call env db = ⟨.ok (!env.sqliteFails db.calls), { db with calls := db.calls + 1 }, []⟩ :=
    rfl
  unfold exec
  rw [Cmd.bind_of_run _ hcall, Cmd.bind_of_run _ (Cmd.asks_apply ..)]
  simp only [h]
  cases env.sqliteFails db.calls <;> rfl

theorem run_exec (henv : env.Serves) {statement : Sqlite → Option Sqlite} {s : Sqlite}
    (h : statement db.sqlite = some s) :
    exec env statement db = ⟨.ok true, { db with sqlite := s, calls := db.calls + 1 }, []⟩ := by
  rw [run_exec_eq h, henv db.calls]
  rfl

/-- A statement that is refused has no effect. -/
theorem run_exec_none {statement : Sqlite → Option Sqlite} (h : statement db.sqlite = none) :
    exec env statement db = ⟨.ok false, { db with calls := db.calls + 1 }, []⟩ := by
  have hcall : call env db = ⟨.ok (!env.sqliteFails db.calls), { db with calls := db.calls + 1 }, []⟩ :=
    rfl
  unfold exec
  rw [Cmd.bind_of_run _ hcall, Cmd.bind_of_run _ (Cmd.asks_apply ..)]
  simp only [h, Cmd.pure_apply]

theorem run_prepare (henv : env.Serves) (h : (db.sqlite.view.docs name).isSome) :
    prepare env name db = ⟨.ok true, { db with calls := db.calls + 1 }, []⟩ := by
  unfold prepare
  rw [Cmd.bind_of_run _ (run_call henv db), Cmd.bind_of_run _ (Cmd.asks_apply ..)]
  simp only [h, Bool.and_true, Cmd.pure_apply]

/-! ## Reading a table -/

theorem cstr_of_nulFree {s : Bytes} (h : 0 ∉ s) : cstr s = s :=
  List.takeWhile_eq_self_iff.mpr fun _ hc => decide_eq_true fun h0 => h (h0 ▸ hc)

/-- The row that was printed is the row that is read. -/
theorem loadRow_serialize {row : Row} (hplain : (Value.obj row).Plain)
    (hnul : (Value.obj row).NulFree) : loadRow (serialize row) = .ok (some row) := by
  have hne : serialize row ≠ [] := List.ne_nil_of_length_pos (serialize_length_pos hplain)
  have hcstr : cstr (serialize row) = serialize row := cstr_of_nulFree (nul_notMem_serialize hnul)
  have hparse : Json.read (serialize row) = .ok (.obj row) := read_serialize hplain
  simp only [loadRow, hcstr, if_neg hne, hparse]

theorem run_readRows (henv : env.Serves) (list : RowList) (hplain : ∀ row ∈ list, (Value.obj row).Plain)
    (hnul : ∀ row ∈ list, (Value.obj row).NulFree) (db : Database) :
    readRows env (list.map serialize) db =
      ⟨.ok list, { db with calls := db.calls + list.length + 1 }, []⟩ := by
  induction list generalizing db with
  | nil =>
    simp only [List.map_nil, readRows]
    rw [Cmd.bind_of_run _ (run_call henv db)]
    rfl
  | cons row list ih =>
    have hrest := ih (fun r hr => hplain r (List.mem_cons_of_mem _ hr))
      (fun r hr => hnul r (List.mem_cons_of_mem _ hr)) { db with calls := db.calls + 1 }
    have hrow := loadRow_serialize (hplain row List.mem_cons_self) (hnul row List.mem_cons_self)
    simp only [List.map_cons, readRows]
    rw [Cmd.bind_of_run _ (run_call henv db)]
    simp only [if_true]
    rw [hrow, Cmd.bind_of_run _ (Cmd.ofExcept_apply ..), Cmd.bind_of_run _ hrest]
    simp [Nat.add_assoc, Nat.add_comm 1]

theorem run_setTable (name : TableName) (list : RowList) (db : Database) :
    setTable name list db =
      ⟨.ok (), { db with tables := Function.update db.tables name (some list) }, []⟩ := rfl

theorem run_loadTable_of (henv : env.Serves) {list : RowList} (hidle : db.sqlite.transaction = none)
    (hdocs : db.sqlite.file.docs name = some (list.map serialize))
    (hplain : ∀ row ∈ list, (Value.obj row).Plain)
    (hcached : ∀ loaded, db.tables name = some loaded → loaded = list)
    (hread : db.tables name = none → ∀ row ∈ list, (Value.obj row).NulFree) :
    ∃ calls, loadTable env name db = ⟨.ok (), db.withTable name list calls, []⟩ := by
  have hview : db.sqlite.view.docs name = some (list.map serialize) := by
    rw [Sqlite.view, hidle]
    exact hdocs
  unfold loadTable
  rw [Cmd.bind_of_run _ (Cmd.asks_apply ..)]
  cases hmemory : db.tables name with
  | some loaded =>
    obtain rfl := hcached loaded hmemory
    refine ⟨db.calls, ?_⟩
    simp only [Option.isSome_some, if_true, Cmd.pure_apply, withTable]
    rw [← hmemory, Function.update_eq_self]
  | none =>
    simp only [Option.isSome_none, Bool.false_eq_true, if_false]
    rw [Cmd.bind_of_run _ (run_prepare henv (by rw [hview]; rfl))]
    simp only [if_true]
    rw [Cmd.bind_of_run _ (Cmd.asks_apply ..)]
    simp only [hview, Option.getD_some]
    rw [Cmd.bind_of_run _ (run_readRows henv _ hplain (hread hmemory) _)]
    exact ⟨_, rfl⟩

theorem run_loadTable (henv : env.Serves) (h : db.Holds rows) (name : TableName) :
    ∃ calls, loadTable env name db = ⟨.ok (), db.withTable name (rows name) calls, []⟩ :=
  run_loadTable_of henv h.idle (h.docs name) (fun row hr => (h.shape name row hr).plain)
    (h.cached name) (h.readable name)

/-! ## Writing a table -/

/-- The insertions add their documents behind those of the table. -/
theorem run_insertEach (henv : env.Serves) (db : Database) (list : RowList) {c : Content} {texts : List Bytes}
    (ht : db.sqlite.transaction = some c) (hdocs : c.docs name = some texts) :
    Cmd.each list (fun row => do
        let _ ← exec env (Sqlite.write (Content.insertDoc name (serialize row)))
        pure ()) db =
      ⟨.ok (), { db with
        sqlite := ⟨db.sqlite.file, some { c with
          docs := Function.update c.docs name (some (texts ++ list.map serialize)) }⟩
        calls := db.calls + list.length }, []⟩ := by
  induction list generalizing db c texts with
  | nil =>
    have hsame : Function.update c.docs name (some texts) = c.docs := by
      rw [← hdocs, Function.update_eq_self]
    simp only [Cmd.each, Cmd.pure_apply, List.map_nil, List.append_nil, hsame, ← ht,
      List.length_nil, Nat.add_zero]
  | cons row list ih =>
    have hwrite : Sqlite.write (Content.insertDoc name (serialize row)) db.sqlite =
        some ⟨db.sqlite.file, some { c with
          docs := Function.update c.docs name (some (texts ++ [serialize row])) }⟩ := by
      simp [Sqlite.write, ht, Content.insertDoc, hdocs]
    have hrest := @ih { db with
      sqlite := ⟨db.sqlite.file, some { c with
        docs := Function.update c.docs name (some (texts ++ [serialize row])) }⟩
      calls := db.calls + 1 } { c with
        docs := Function.update c.docs name (some (texts ++ [serialize row])) }
      (texts ++ [serialize row]) rfl (by simp)
    have hbody : ∀ db' : Database, ((pure () : DbM Unit) db') = ⟨.ok (), db', []⟩ := fun _ => rfl
    simp only [Cmd.each]
    rw [Cmd.bind_of_run _ ((Cmd.bind_of_run _ (run_exec henv hwrite)).trans (hbody _)), hrest]
    simp [Nat.add_assoc, Nat.add_comm 1]

theorem run_insertRows (henv : env.Serves) (db : Database) (list : RowList) {c : Content} {texts : List Bytes}
    (ht : db.sqlite.transaction = some c) (hdocs : c.docs name = some texts) :
    ∃ calls, insertRows env name list db = ⟨.ok (), { db with
      sqlite := ⟨db.sqlite.file, some { c with
        docs := Function.update c.docs name (some (texts ++ list.map serialize)) }⟩
      calls := calls }, []⟩ := by
  have hview : (db.sqlite.view.docs name).isSome := by
    rw [Sqlite.view, ht]
    exact Option.isSome_iff_exists.mpr ⟨texts, hdocs⟩
  unfold insertRows
  rw [Cmd.bind_of_run _ (run_prepare henv hview), Cmd.when, if_pos rfl,
    run_insertEach henv { db with calls := db.calls + 1 } list ht hdocs]
  exact ⟨_, rfl⟩

/-- With a table in memory, saving it replaces its documents. -/
theorem run_saveTable (henv : env.Serves) {list : RowList} (hidle : db.sqlite.transaction = none)
    (hdocs : (db.sqlite.file.docs name).isSome) (hcached : db.tables name = some list) :
    ∃ calls, saveTable env name db =
      ⟨.ok (), { db.withDocs name (list.map serialize) with calls := calls }, []⟩ := by
  obtain ⟨old, hold⟩ := Option.isSome_iff_exists.mp hdocs
  have hbegin : Sqlite.begin db.sqlite = some ⟨db.sqlite.file, some db.sqlite.file⟩ := by
    simp [Sqlite.begin, hidle]
  have hclear : Sqlite.write (Content.deleteAll name) ⟨db.sqlite.file, some db.sqlite.file⟩ =
      some ⟨db.sqlite.file, some { db.sqlite.file with
        docs := Function.update db.sqlite.file.docs name (some []) }⟩ := by
    simp [Sqlite.write, Content.deleteAll, hold]
  unfold saveTable
  rw [Cmd.bind_of_run _ (Cmd.asks_apply ..)]
  simp only [hcached]
  rw [Cmd.bind_of_run _ (run_exec henv hbegin), Cmd.bind_of_run _ (run_exec henv hclear)]
  simp only [if_true]
  obtain ⟨calls, hinsert⟩ := run_insertRows henv { db with
    sqlite := ⟨db.sqlite.file, some { db.sqlite.file with
      docs := Function.update db.sqlite.file.docs name (some []) }⟩
    calls := db.calls + 1 + 1 } list rfl (Function.update_self ..)
  have hcommit : ∀ file c, Sqlite.commit ⟨file, some c⟩ = some ⟨c, none⟩ := fun _ _ => rfl
  rw [Cmd.bind_of_run _ hinsert, Cmd.bind_of_run _ (run_exec henv (hcommit _ _))]
  exact ⟨calls + 1, by simp [withDocs]⟩

/-! ## The operations on rows -/

/-- A table that is loaded is the one the database holds. -/
theorem Holds.load (h : db.Holds rows) (name : TableName) (calls : Nat) :
    (db.withTable name (rows name) calls).Holds rows where
  idle := h.idle
  docs := h.docs
  cached other loaded hloaded := by
    by_cases hname : other = name
    · subst hname
      simp only [withTable, Function.update_self] at hloaded
      exact (Option.some.inj hloaded).symm
    · simp only [withTable, Function.update_of_ne hname] at hloaded
      exact h.cached other loaded hloaded
  readable other hnone := by
    by_cases hname : other = name
    · subst hname
      simp [withTable] at hnone
    · simp only [withTable, Function.update_of_ne hname] at hnone
      exact h.readable other hnone
  shape := h.shape

/-- A table that is replaced, in memory and in the file. -/
theorem Holds.store (h : db.Holds rows) {name : TableName} {list : RowList}
    (hlist : ∀ row ∈ list, RowShape name row) (calls : Nat) :
    ((db.withDocs name (list.map serialize)).withTable name list calls).Holds
      (Function.update rows name list) where
  idle := rfl
  docs other := by
    by_cases hname : other = name
    · subst hname
      simp [withTable, withDocs]
    · simp [withTable, withDocs, hname, h.docs other]
  cached other loaded hloaded := by
    by_cases hname : other = name
    · subst hname
      simp only [withTable, Function.update_self] at hloaded ⊢
      exact (Option.some.inj hloaded).symm
    · simp only [withTable, Function.update_of_ne hname] at hloaded ⊢
      exact h.cached other loaded hloaded
  readable other hnone := by
    by_cases hname : other = name
    · subst hname
      simp [withTable] at hnone
    · simp only [withTable, Function.update_of_ne hname] at hnone ⊢
      exact h.readable other hnone
  shape other := by
    by_cases hname : other = name
    · subst hname
      rw [Function.update_self]
      exact hlist
    · rw [Function.update_of_ne hname]
      exact h.shape other

theorem Holds.content_eq (h : db.Holds rows) (name : TableName) : db.content name = rows name := by
  unfold content
  cases htable : db.tables name with
  | some loaded => exact h.cached name loaded htable
  | none =>
    have hview : db.sqlite.view.docs name = some ((rows name).map serialize) := by
      rw [Sqlite.view, h.idle]
      exact h.docs name
    simp only [hview, Option.getD_some, Database.readable, List.filterMap_map]
    calc (rows name).filterMap _ = (rows name).filterMap some :=
          List.filterMap_congr fun row hrow => by
            simp only [Function.comp_apply]
            rw [loadRow_serialize (h.shape name row hrow).plain (h.readable name htable row hrow)]
      _ = rows name := List.filterMap_some

theorem map_serialize_inj {list list' : RowList} (h : ∀ row ∈ list, (Value.obj row).Plain)
    (h' : ∀ row ∈ list', (Value.obj row).Plain) (heq : list.map serialize = list'.map serialize) :
    list = list' := by
  induction list generalizing list' with
  | nil => exact (List.map_eq_nil_iff.mp heq.symm).symm
  | cons row rest ih =>
    cases list' with
    | nil => cases heq
    | cons row' rest' =>
      obtain ⟨hrow, hrest⟩ := List.cons.inj heq
      have hsame : Value.obj row = Value.obj row' :=
        serialize_inj (h row List.mem_cons_self) (h' row' List.mem_cons_self) hrow
      rw [Value.obj.inj hsame, ih (fun r hr => h r (List.mem_cons_of_mem _ hr))
        (fun r hr => h' r (List.mem_cons_of_mem _ hr)) hrest]

/-- Storing a table changes the file unless it stores what is there. -/
theorem Holds.withDocs_eq_iff (h : db.Holds rows) {name : TableName} {list : RowList}
    (hlist : ∀ row ∈ list, (Value.obj row).Plain) :
    (db.withDocs name (list.map serialize)).sqlite = db.sqlite ↔ list = rows name := by
  constructor
  · intro heq
    have hdocs := congrArg (fun s : Sqlite => s.file.docs name) heq
    simp only [withDocs, Function.update_self, h.docs name, Option.some.injEq] at hdocs
    exact map_serialize_inj hlist (fun row hrow => (h.shape name row hrow).plain) hdocs
  · rintro rfl
    have hsame : Function.update db.sqlite.file.docs name (some ((rows name).map serialize)) =
        db.sqlite.file.docs := by rw [← h.docs name, Function.update_eq_self]
    simp only [withDocs, hsame, ← h.idle]

/-- A table that has been loaded is replaced and saved. -/
theorem run_setSave (henv : env.Serves) (h : db.Holds rows) (name : TableName) (list : RowList)
    (calls : Nat) :
    ∃ calls', (setTable name list >>= fun _ => saveTable env name)
        (db.withTable name (rows name) calls) =
      ⟨.ok (), (db.withDocs name (list.map serialize)).withTable name list calls', []⟩ := by
  obtain ⟨calls', hsave⟩ := @run_saveTable env name
    { db.withTable name (rows name) calls with
      tables := Function.update (db.withTable name (rows name) calls).tables name (some list) }
    henv list h.idle (by simp only [withTable, h.docs name]; rfl) (Function.update_self ..)
  rw [Cmd.bind_of_run _ (run_setTable name list _), hsave]
  exact ⟨calls', by simp [withTable, withDocs]⟩

theorem run_query (henv : env.Serves) (h : db.Holds rows) {p : Row → Except Exn Bool}
    {q : Row → Bool} (hp : ∀ row ∈ rows name, p row = .ok (q row)) :
    ∃ calls, query env name p db =
      ⟨.ok ((rows name).filter q), db.withTable name (rows name) calls, []⟩ := by
  obtain ⟨calls, hload⟩ := run_loadTable henv h name
  refine ⟨calls, ?_⟩
  unfold query Database.rows
  rw [Cmd.bind_of_run _ hload, Cmd.bind_of_run _ (Cmd.asks_apply ..)]
  simp only [withTable, Function.update_self, Option.getD_some, filterRows_eq hp, Cmd.ofExcept_apply]

theorem run_queryOk (henv : env.Serves) (h : db.Holds rows) (name : TableName) (p : Row → Bool) :
    ∃ calls, query env name (fun row => .ok (p row)) db =
      ⟨.ok ((rows name).filter p), db.withTable name (rows name) calls, []⟩ :=
  run_query henv h fun _ _ => rfl

theorem run_queryAll (henv : env.Serves) (h : db.Holds rows) (name : TableName) :
    ∃ calls, queryAll env name db =
      ⟨.ok (rows name), db.withTable name (rows name) calls, []⟩ := by
  obtain ⟨calls, hload⟩ := run_loadTable henv h name
  refine ⟨calls, ?_⟩
  unfold queryAll Database.rows
  rw [Cmd.bind_of_run _ hload, Cmd.asks_apply]
  simp [withTable]

theorem run_insert (henv : env.Serves) (h : db.Holds rows) (name : TableName) (row : Row) :
    ∃ calls, insert env name row db =
      ⟨.ok (), (db.withDocs name ((rows name ++ [row]).map serialize)).withTable name
        (rows name ++ [row]) calls, []⟩ := by
  obtain ⟨calls, hload⟩ := run_loadTable henv h name
  obtain ⟨calls', hsave⟩ := run_setSave henv h name (rows name ++ [row]) calls
  refine ⟨calls', ?_⟩
  unfold insert Database.rows
  rw [Cmd.bind_of_run _ hload, Cmd.bind_of_run _ (Cmd.asks_apply ..)]
  simp only [withTable, Function.update_self, Option.getD_some] at hsave ⊢
  exact hsave

theorem run_update (henv : env.Serves) (h : db.Holds rows) {p : Row → Except Exn Bool}
    {q : Row → Bool} (hp : ∀ row ∈ rows name, p row = .ok (q row)) (u : Row → Row) :
    ∃ calls, update env name p u db =
      ⟨.ok ((rows name).any q),
        (db.withDocs name (((rows name).map fun row => if q row then u row else row).map
          serialize)).withTable name ((rows name).map fun row => if q row then u row else row) calls,
        []⟩ := by
  obtain ⟨calls, hload⟩ := run_loadTable henv h name
  obtain ⟨calls', hsave⟩ := run_setSave henv h name
    ((rows name).map fun row => if q row then u row else row) calls
  refine ⟨calls', ?_⟩
  unfold update Database.rows
  rw [Cmd.bind_of_run _ hload, Cmd.bind_of_run _ (Cmd.asks_apply ..)]
  simp only [withTable, Function.update_self, Option.getD_some, updateRows_eq hp] at hsave ⊢
  rw [Cmd.bind_of_run _ (run_setTable ..)] at hsave ⊢
  rw [Cmd.bind_of_run _ (Cmd.ofExcept_apply ..), Cmd.bind_of_run _ hsave, Cmd.pure_apply]

theorem run_remove (henv : env.Serves) (h : db.Holds rows) (name : TableName) (p : Row → Bool) :
    ∃ calls, remove env name p db =
      ⟨.ok ((rows name).any p),
        (db.withDocs name (((rows name).filter fun row => !p row).map serialize)).withTable name
          ((rows name).filter fun row => !p row) calls, []⟩ := by
  obtain ⟨calls, hload⟩ := run_loadTable henv h name
  obtain ⟨calls', hsave⟩ := run_setSave henv h name ((rows name).filter fun row => !p row) calls
  refine ⟨calls', ?_⟩
  unfold remove Database.rows
  rw [Cmd.bind_of_run _ hload, Cmd.bind_of_run _ (Cmd.asks_apply ..)]
  simp only [withTable, Function.update_self, Option.getD_some] at hsave ⊢
  rw [Cmd.bind_of_run _ (run_setTable ..)] at hsave ⊢
  rw [Cmd.bind_of_run _ hsave, Cmd.pure_apply]

end Serving

end Database

end LanChat
