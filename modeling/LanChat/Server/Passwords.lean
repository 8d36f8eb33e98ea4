import LanChat.Db.FriendPairs
import LanChat.Db.Settled
import LanChat.Server.Nicknames

/-!
# Stored passwords

A password is hashed as a C string, and compared as one. `HasPassword` says that
the first row of a user carries the hash of a password. Creating the user and
upgrading an old hash establish it, and every other operation of the
repositories keeps it.
-/

namespace LanChat

open Lib Json

/-! ## The bcrypt library -/

/-- bcrypt as an ideal function of the C string and the salt: it does not fail on
a salt that it has made, a hash serves as a setting with the salt in it, and
distinct strings have distinct hashes. -/
structure IdealCrypt (env : Env) : Prop where
  salted : ∀ entropy, ∃ salt, env.crypt_gensalt_rn (lit "$2b$") 12 entropy = some salt
  hashed : ∀ entropy salt key, env.crypt_gensalt_rn (lit "$2b$") 12 entropy = some salt →
    ∃ hash, env.crypt_rn key (cstr salt) = some hash ∧ (lit "$2").isPrefixOf (cstr hash) = true
  setting : ∀ entropy salt key key' hash, env.crypt_gensalt_rn (lit "$2b$") 12 entropy = some salt →
    env.crypt_rn key (cstr salt) = some hash → env.crypt_rn key' (cstr hash) = env.crypt_rn key' (cstr salt)
  distinct : ∀ entropy salt key key' hash hash', env.crypt_gensalt_rn (lit "$2b$") 12 entropy = some salt →
    0 ∉ key → 0 ∉ key' → env.crypt_rn key (cstr salt) = some hash → env.crypt_rn key' (cstr salt) = some hash' →
    cstr hash = cstr hash' → key = key'

/-- The text is a hash of the password, with some salt. -/
def HashOf (env : Env) (password hash : Bytes) : Prop :=
  ∃ entropy salt output, env.crypt_gensalt_rn (lit "$2b$") 12 entropy = some salt ∧
    env.crypt_rn (cstr password) (cstr salt) = some output ∧ hash = cstr output

section Crypt

variable {env : Env} {password hash : Bytes}

theorem nul_notMem_cstr (s : Bytes) : 0 ∉ cstr s := fun h => by simpa using List.mem_takeWhile_imp h

theorem cstr_cstr (s : Bytes) : cstr (cstr s) = cstr s := by
  unfold cstr
  exact List.takeWhile_idem

/-- A password is accepted for a hash exactly if it is the same C string. -/
theorem verify_iff (h : IdealCrypt env) (hhash : HashOf env password hash) (password' : Bytes) :
    bcryptVerifyPassword env password' hash = true ↔ cstr password' = cstr password := by
  obtain ⟨entropy, salt, output, hsalt, hcrypt, rfl⟩ := hhash
  obtain ⟨output', hcrypt', hsetting'⟩ := h.hashed entropy salt (cstr password') hsalt
  obtain ⟨output'', hcrypt'', houtput⟩ := h.hashed entropy salt (cstr password) hsalt
  cases hcrypt.symm.trans hcrypt''
  have hsetting := h.setting entropy salt (cstr password) (cstr password') output hsalt hcrypt
  unfold bcryptVerifyPassword
  rw [houtput, cstr_cstr, hsetting, hcrypt']
  simp only [Bool.not_true, Bool.false_eq_true, if_false, decide_eq_true_eq]
  constructor
  · intro heq
    exact (h.distinct entropy salt _ _ _ _ hsalt (nul_notMem_cstr _) (nul_notMem_cstr _) hcrypt hcrypt' heq).symm
  · intro heq
    rw [heq, hcrypt] at hcrypt'
    cases hcrypt'
    rfl

/-- A password that is hashed gets a hash of it. -/
theorem sat_bcryptHashPassword (h : IdealCrypt env) {P : Database → Prop}
    (hdraws : ∀ db draws, P db → P { db with draws := draws }) :
    Cmd.Sat P (bcryptHashPassword env password 12) (fun hash db => HashOf env password hash ∧ P db)
      (fun _ _ => True) fun _ => True := by
  intro db hdb
  obtain ⟨salt, hsalt⟩ := h.salted (env.entropy db.draws)
  obtain ⟨output, hcrypt, -⟩ := h.hashed _ salt (cstr password) hsalt
  have hrun : bcryptHashPassword env password 12 db = ⟨.ok (cstr output), { db with draws := db.draws + 1 }, []⟩ := by
    unfold bcryptHashPassword
    rw [Cmd.bind_of_run _ (show Database.randomBytes env db =
      ⟨.ok (env.entropy db.draws), { db with draws := db.draws + 1 }, []⟩ from rfl)]
    simp only [hsalt, hcrypt, Cmd.pure_apply]
  rw [hrun]
  refine ⟨nofun, fun hash hhash => ?_, nofun⟩
  cases hhash
  exact ⟨⟨_, salt, output, hsalt, hcrypt, rfl⟩, hdraws db _ hdb⟩

end Crypt

namespace Database

/-! ## A table in memory -/

/-- The table has been loaded, and its rows meet `P`. -/
def Cached (name : TableName) (P : RowList → Prop) (db : Database) : Prop :=
  ∃ rows, db.tables name = some rows ∧ P rows

section Cached

variable {env : Env} {α : Type} {name other : TableName} {P : RowList → Prop} {c : DbM α}

/-- What an operation leaves, whatever it throws. -/
theorem Guarded.lax {I E : Database → Prop} (h : Guarded I E c) :
    Cmd.Sat I c (fun _ => I) (fun _ _ => True) fun _ => True :=
  h.weaken (fun _ h => h) (fun _ _ h => h) (fun _ _ _ => trivial) fun _ h => h

theorem guarded_of_tables (h : Cmd.Leaves (fun db => db.tables name) c) : Guarded (Cached name P) (Cached name P) c := by
  rintro db ⟨rows, hrows, hP⟩
  have hsame : (c db).state.tables name = some rows := (h db).trans hrows
  exact ⟨nofun, fun _ _ => ⟨rows, hsame, hP⟩, fun _ _ => ⟨rows, hsame, hP⟩⟩

theorem guarded_load_cached (other : TableName) : Guarded (Cached name P) (Cached name P) (loadTable env other) := by
  rcases eq_or_ne name other with rfl | hname
  · rintro db ⟨rows, hrows, hP⟩
    rw [loadTable_of_cached hrows]
    exact ⟨nofun, fun _ _ => ⟨rows, hrows, hP⟩, nofun⟩
  · exact guarded_of_tables (spares_loadTable hname).tables

theorem reads_cached (env : Env) (name : TableName) (P : RowList → Prop) :
    Reads env (fun _ _ => True) (Cached name P) (Cached name P) where
  counters _ _ _ _ h := h
  load other := (guarded_load_cached other).post fun _ _ h => ⟨h, fun _ _ => trivial⟩
  users := .inr fun _ h => h
  thrown _ h := h

theorem writesTo_cached (env : Env) (P : RowList → Prop) (hname : name ≠ other) :
    WritesTo env (fun _ _ => True) (Cached name P) (Cached name P) other where
  shape _ _ := trivial
  put _ _ _ _ _ := trivial
  insert row _ := guarded_of_tables (spares_insert hname row).tables
  update p u _ _ := guarded_of_tables (spares_update hname p u).tables
  remove p := guarded_of_tables (spares_remove hname p).tables

theorem friendships_cached (change : Content → Option Content) (_ : ∀ c c', change c = some c' → c'.docs = c.docs) :
    Guarded (Cached name P) (Cached name P) (exec env (Sqlite.write change)) :=
  guarded_of_tables fun db => congrFun (leaves_tables_exec _ db) name

theorem guarded_saveTable_cached : Guarded (Cached name P) (Cached name P) (saveTable env other) :=
  guarded_of_tables fun db => congrFun (leaves_tables_saveTable db) name

theorem sat_rows_cached {E : Exn → Database → Prop} :
    Cmd.Sat (Cached name P) (rows name) (fun all db => db.tables name = some all ∧ P all) E fun _ => True :=
  Cmd.sat_asks fun db ⟨all, hall, hP⟩ => by
    rw [hall]
    exact ⟨rfl, hP⟩

/-- What is put in the place of the rows in memory is saved. -/
theorem sat_setSave_cached {Q : RowList → Prop} {all all' : RowList} (h : P all → Q all')
    {E : Exn → Database → Prop} :
    Cmd.Sat (fun db => db.tables name = some all ∧ P all) (setTable name all')
      (fun _ => Cached name Q) E fun _ => True :=
  Cmd.sat_modify fun db hdb => ⟨all', by simp, h hdb.2⟩

theorem sat_insert_cached {Q : RowList → Prop} {row : Row} (h : ∀ rows, P rows → Q (rows ++ [row])) :
    Cmd.Sat (Cached name P) (insert env name row) (fun _ => Cached name Q) (fun _ _ => True) fun _ => True :=
  (guarded_load_cached name).lax.bind fun _ => sat_rows_cached.bind fun all =>
    (sat_setSave_cached (h all)).bind fun _ => guarded_saveTable_cached.lax

theorem guarded_insert_cached {row : Row} (h : ∀ rows, P rows → P (rows ++ [row])) :
    Guarded (Cached name P) (Cached name P) (insert env name row) :=
  (guarded_load_cached name).bind fun _ => sat_rows_cached.bind fun all =>
    (sat_setSave_cached (h all)).bind fun _ => guarded_saveTable_cached

theorem guarded_update_cached {p : Row → Except Exn Bool} {u : Row → Row}
    (h : ∀ rows, P rows → P (updateRows p u rows).1) :
    Guarded (Cached name P) (Cached name P) (update env name p u) :=
  (guarded_load_cached name).bind fun _ => sat_rows_cached.bind fun all =>
    (sat_setSave_cached (h all)).bind fun _ => (guarded_ofExcept (.inr fun _ h => h)).bind fun _ =>
      guarded_saveTable_cached.bind fun _ => guarded_pure _

/-- A query selects among the rows in memory. -/
theorem sat_query_cached {p : Row → Except Exn Bool} {q : Row → Bool}
    (h : ∀ rows, P rows → ∀ row ∈ rows, p row = .ok (q row)) :
    Cmd.Sat (Cached name P) (query env name p)
      (fun found db => ∃ rows, db.tables name = some rows ∧ P rows ∧ found = rows.filter q)
      (fun _ _ => False) fun _ => True := by
  rintro db ⟨rows, hrows, hP⟩
  unfold query Database.rows
  rw [Cmd.bind_of_run _ (loadTable_of_cached hrows), Cmd.bind_of_run _ (Cmd.asks_apply ..), hrows, Option.getD_some,
    filterRows_eq (h rows hP)]
  refine ⟨nofun, fun found hfound => ?_, nofun⟩
  cases hfound
  exact ⟨rows, hrows, hP, rfl⟩

theorem sat_queryAll_cached :
    Cmd.Sat (Cached name P) (queryAll env name) (fun all db => P all ∧ Cached name (· = all) db)
      (fun _ _ => True) fun _ => True :=
  (guarded_load_cached name).lax.bind fun _ => sat_rows_cached.post fun all _ h => ⟨h.2, all, h.1, rfl⟩

theorem sat_update_cached {Q : RowList → Prop} {p : Row → Except Exn Bool} {u : Row → Row}
    (h : ∀ rows, P rows → Q (updateRows p u rows).1) :
    Cmd.Sat (Cached name P) (update env name p u) (fun _ => Cached name Q) (fun _ _ => True) fun _ => True :=
  (guarded_load_cached name).lax.bind fun _ => sat_rows_cached.bind fun all =>
    (sat_setSave_cached (h all)).bind fun _ =>
      Cmd.Sat.bind (R := fun _ => Cached name Q) (Cmd.sat_ofExcept (fun _ _ _ h => h) fun _ _ _ _ => trivial)
        fun _ => guarded_saveTable_cached.lax.bind fun _ => Cmd.sat_pure fun _ h => h

/-! ### Loading -/

/-- The rows of the table, once it has been loaded, meet `P`. -/
def OnceLoaded (env : Env) (name : TableName) (P : RowList → Prop) (db : Database) : Prop :=
  ∀ rows, (loadTable env name db).state.tables name = some rows → P rows

theorem sat_loadTable_once :
    Cmd.Sat (OnceLoaded env name P) (loadTable env name) (fun _ => Cached name P) (fun _ _ => True) fun _ => True := by
  refine fun db hdb => ⟨nofun, fun a ha => ?_, fun _ _ => trivial⟩
  have hloaded := (@sat_loadTable env (fun _ => True) (fun _ => True) name db trivial).2.1 a ha
  obtain ⟨rows, hrows⟩ := Option.isSome_iff_exists.mp hloaded
  exact ⟨rows, hrows, hdb rows hrows⟩

theorem sat_query_once {p : Row → Except Exn Bool} :
    Cmd.Sat (OnceLoaded env name P) (query env name p)
      (fun found db => ∃ rows, db.tables name = some rows ∧ P rows ∧ filterRows p rows = .ok found)
      (fun _ _ => True) fun _ => True :=
  sat_loadTable_once.bind fun _ => sat_rows_cached.bind fun all =>
    Cmd.sat_ofExcept (fun _ _ hfound hdb => ⟨all, hdb.1, hdb.2, hfound⟩) fun _ _ _ _ => trivial

end Cached

end Database

namespace UserRepository

open Database FriendRepository

/-! ## The row of a user -/

/-- Every row has an id, and the first one of the user carries a hash of the
password. -/
structure HasPassword (env : Env) (id : Int32) (password : Bytes) (rows : RowList) : Prop where
  ids : ∀ row ∈ rows, (row.find? (lit "id")).isSome
  first : ∃ row hash, rows.find? (isRowOf id) = some row ∧
    row.find? (lit "password_hash") = some (.str hash) ∧ 1 ≤ passwordVersion row ∧ HashOf env password hash

section Rows

variable {env : Env} {id id' : Int32} {password : Bytes} {rows : RowList} {row : Row}

theorem hasId_of_isSome (h : (row.find? (lit "id")).isSome) (id : Int32) : hasId id row = .ok (isRowOf id row) := by
  obtain ⟨v, hv⟩ := Option.isSome_iff_exists.mp h
  simp [hasId, atField, isRowOf, hv, Except.map]

theorem isRowOf_inj (h : isRowOf id row = true) (h' : isRowOf id' row = true) : id = id' := by
  unfold isRowOf at h h'
  cases hv : row.find? (lit "id") with
  | none =>
    rw [hv] at h
    cases h
  | some v =>
    rw [hv, Option.any_some, decide_eq_true_eq] at h h'
    simpa using congrArg Int64.toInt32 (h.symm.trans h')

theorem HasPassword.concat (h : HasPassword env id password rows) (hrow : (row.find? (lit "id")).isSome) :
    HasPassword env id password (rows ++ [row]) := by
  obtain ⟨first, hash, hfirst, hrest⟩ := h.first
  refine ⟨fun r hr => ?_, first, hash, by rw [List.find?_append, hfirst, Option.some_or], hrest⟩
  rcases List.mem_append.mp hr with hr | hr
  · exact h.ids r hr
  · exact List.mem_singleton.mp hr ▸ hrow

/-- A new user, the first with the id. -/
theorem hasPassword_concat {hash : Bytes} (hids : ∀ row ∈ rows, (row.find? (lit "id")).isSome)
    (hnew : ∀ row ∈ rows, isRowOf id row = false) (hhash : HashOf env password hash) (nickname : Bytes)
    (avatarId : Int32) (now : Int64) :
    HasPassword env id password (rows ++ [newUserRow id hash nickname avatarId now]) where
  ids r hr := by
    rcases List.mem_append.mp hr with hr | hr
    · exact hids r hr
    · rw [List.mem_singleton.mp hr]
      simp [newUserRow, find?_object]
  first := by
    have hnone : rows.find? (isRowOf id) = none := List.find?_eq_none.mpr fun row hrow => by simp [hnew row hrow]
    refine ⟨newUserRow id hash nickname avatarId now, hash, ?_, by simp [newUserRow, find?_object], ?_, hhash⟩
    · rw [List.find?_append, hnone, Option.none_or]
      simp [isRowOf, newUserRow, find?_object, ofInt32, Value.asInt]
    · simp [passwordVersion, newUserRow, find?_object, Value.isNumber, Value.asInt]

theorem updateRows_hasId (hids : ∀ row ∈ rows, (row.find? (lit "id")).isSome) (u : Row → Row) :
    updateRows (hasId id') u rows =
      (rows.map fun row => if isRowOf id' row then u row else row, .ok (rows.any (isRowOf id'))) :=
  updateRows_eq (fun row hrow => hasId_of_isSome (hids row hrow) id') u

/-- The first row of the user after an update that keeps the ids. -/
theorem find?_updated {u : Row → Row} (hid : ∀ row : Row, (u row).find? (lit "id") = row.find? (lit "id")) :
    (rows.map fun row => if isRowOf id' row then u row else row).find? (isRowOf id) =
      (rows.find? (isRowOf id)).map fun row => if isRowOf id' row then u row else row := by
  have hsame : (isRowOf id ∘ fun row => if isRowOf id' row then u row else row) = isRowOf id := by
    funext row
    simp only [Function.comp_apply]
    split
    · simp only [isRowOf, hid]
    · rfl
  rw [List.find?_map, hsame]

theorem isSome_updated {u : Row → Row} (hid : ∀ row : Row, (u row).find? (lit "id") = row.find? (lit "id"))
    (hids : ∀ row ∈ rows, (row.find? (lit "id")).isSome) :
    ∀ row ∈ rows.map fun row => if isRowOf id' row then u row else row, (row.find? (lit "id")).isSome := by
  intro r hr
  obtain ⟨row, hrow, rfl⟩ := List.mem_map.mp hr
  split
  · rw [hid]
    exact hids row hrow
  · exact hids row hrow

/-- A hash that is put in the place of an older one. -/
theorem hasPassword_upgraded {hash : Bytes} (hids : ∀ row ∈ rows, (row.find? (lit "id")).isSome)
    (hfirst : rows.find? (isRowOf id) = some row) (hhash : HashOf env password hash) :
    HasPassword env id password (Database.updateRows (hasId id) (fun r =>
      (r.put (lit "password_hash") (.str hash)).put (lit "password_version") (.int 1)) rows).1 := by
  rw [updateRows_hasId hids]
  have hid : ∀ row : Row, OrdMap.find? ((row.put (lit "password_hash") (.str hash)).put
      (lit "password_version") (.int 1)) (lit "id") = row.find? (lit "id") := fun row =>
    (OrdMap.find?_put_of_ne (by decide)).trans (OrdMap.find?_put_of_ne (by decide))
  refine ⟨isSome_updated hid hids, ?_⟩
  rw [find?_updated hid, hfirst, Option.map_some, if_pos (List.find?_some hfirst)]
  refine ⟨_, hash, rfl, ?_, ?_, hhash⟩
  · rw [OrdMap.find?_put_of_ne (by decide), OrdMap.find?_put_self]
  · rw [passwordVersion, OrdMap.find?_put_self]
    decide

/-- An update that keeps the ids, and the password if it is this user's row. -/
theorem HasPassword.updateRows (h : HasPassword env id password rows) {u : Row → Row}
    (hid : ∀ row : Row, (u row).find? (lit "id") = row.find? (lit "id"))
    (hpassword : id' = id → ∀ row : Row, (u row).find? (lit "password_hash") = row.find? (lit "password_hash") ∧
      (u row).find? (lit "password_version") = row.find? (lit "password_version")) :
    HasPassword env id password (Database.updateRows (hasId id') u rows).1 := by
  rw [updateRows_hasId h.ids]
  refine ⟨isSome_updated hid h.ids, ?_⟩
  obtain ⟨row, hash, hfirst, hhash, hversion, hof⟩ := h.first
  rw [find?_updated hid, hfirst]
  refine ⟨if isRowOf id' row then u row else row, hash, rfl, ?_⟩
  split
  · next hrow =>
    obtain ⟨hsame, hsame'⟩ := hpassword (isRowOf_inj hrow (List.find?_some hfirst)) row
    exact ⟨hsame.trans hhash, by rw [passwordVersion, hsame']; exact hversion, hof⟩
  · exact ⟨hhash, hversion, hof⟩

end Rows

/-! ## The operations -/

section Operations

variable {env : Env} {id : Int32} {password : Bytes}

/-- The table of users is in memory, and the user has the password. -/
abbrev Carries (env : Env) (id : Int32) (password : Bytes) : Database → Prop :=
  Cached .users (HasPassword env id password)

theorem find?_put {row : Row} {key other : String} {v : Value} (hother : lit key ≠ lit other) :
    OrdMap.find? (row.put (lit other) v) (lit key) = row.find? (lit key) :=
  OrdMap.find?_put_of_ne hother

/-- An update of other fields keeps the password. -/
theorem carries_update {u : Row → Row}
    (h : ∀ key ∈ ["id", "password_hash", "password_version"], ∀ row : Row,
      (u row).find? (lit key) = row.find? (lit key)) (id' : Int32) :
    Guarded (Carries env id password) (Carries env id password) (update env .users (hasId id') u) :=
  guarded_update_cached fun _ hrows => hrows.updateRows (h "id" (by decide)) fun _ row =>
    ⟨h "password_hash" (by decide) row, h "password_version" (by decide) row⟩

theorem carries_setOnlineStatus (id' : Int32) (online : Bool) :
    Guarded (Carries env id password) (Carries env id password) (setOnlineStatus env id' online) := by
  refine (reads_cached env .users _).time.bind fun now => (carries_update (fun key hkey row => ?_) id').bind
    fun _ => guarded_pure ()
  have hother : lit key ≠ lit "is_online" ∧ lit key ≠ lit "last_seen_at" := by
    revert key
    decide
  cases online with
  | true => exact (find?_put hother.2).trans (find?_put hother.1)
  | false => exact find?_put hother.1

theorem carries_updateProfile (id' : Int32) (nickname : Bytes) (avatarId : Int32) :
    Guarded (Carries env id password) (Carries env id password) (updateProfile env id' nickname avatarId) := by
  refine carries_update (fun key hkey row => ?_) id'
  have hother : lit key ≠ lit "nickname" ∧ lit key ≠ lit "avatar_id" := by
    revert key
    decide
  exact (find?_put hother.2).trans (find?_put hother.1)

theorem carries_create (password' nickname : Bytes) (avatarId : Int32) :
    Guarded (Carries env id password) (Carries env id password) (create env password' nickname avatarId) := by
  have hreads := reads_cached env .users (HasPassword env id password)
  refine (hreads.findByNickname nickname).bind fun existing => ?_
  cases existing with
  | some _ => exact guarded_pure _
  | none =>
    refine (hreads.queryAll .users).bind fun _ => (guarded_ofExcept (.inr fun _ h => h)).bind fun id' =>
      (hreads.bcryptHashPassword password' 12).bind fun hash => hreads.time.bind fun now =>
        (guarded_insert_cached fun rows hrows => hrows.concat ?_).bind fun _ => guarded_pure _
    simp [newUserRow, find?_object]

/-- The rows of the user in memory, as `verifyPassword` selects them. -/
theorem sat_query_user (id' : Int32) :
    Cmd.Sat (Carries env id password) (query env .users (hasId id'))
      (fun found db => Carries env id password db ∧ (id' = id → ∃ row rest hash, found = row :: rest ∧
        row.find? (lit "password_hash") = some (.str hash) ∧ 1 ≤ passwordVersion row ∧ HashOf env password hash))
      (fun _ _ => False) fun _ => True := by
  refine (sat_query_cached fun rows hrows row hrow => hasId_of_isSome (hrows.ids row hrow) id').post
    fun found db ⟨rows, hmem, hrows, hfound⟩ => ⟨⟨rows, hmem, hrows⟩, ?_⟩
  rintro rfl
  obtain ⟨row, hash, hfirst, hrest⟩ := hrows.first
  rw [← List.head?_filter, ← hfound] at hfirst
  obtain ⟨rest, hcons⟩ := List.head?_eq_some_iff.mp hfirst
  exact ⟨row, rest, hash, hcons, hrest⟩

/-- The hash of another user may be upgraded. -/
theorem carries_verifyPassword (id' : Int32) (password' : Bytes) :
    Guarded (Carries env id password) (Carries env id password) (verifyPassword env id' password') := by
  have hreads := reads_cached env .users (HasPassword env id password)
  refine Cmd.Sat.bind ((sat_query_user id').weaken (fun _ h => h) (fun _ _ h => ⟨h.2, h.1⟩) (fun _ _ h => h.elim)
    fun _ h => h) fun found => Cmd.Sat.of_fact fun hfound => ?_
  cases found with
  | nil => exact guarded_pure false
  | cons row rest =>
    refine (guarded_ofExcept (.inr fun _ h => h)).bind fun hash =>
      Cmd.sat_ite (fun _ => guarded_pure _) fun hold => (guarded_pure false).ite ?_
    have hother : id' = id → False := by
      intro hid
      obtain ⟨_, _, _, hcons, -, hversion, -⟩ := hfound hid
      cases hcons
      exact hold hversion
    exact (hreads.bcryptHashPassword password' 12).bind fun upgraded =>
      (guarded_update_cached fun rows hrows => hrows.updateRows
        (fun row => (find?_put (by decide)).trans (find?_put (by decide))) fun hid => (hother hid).elim).bind fun _ =>
          guarded_pure true

/-- What `verifyPassword` says about a user who has a password. -/
theorem sat_verifyPassword (hideal : IdealCrypt env) (password' : Bytes) :
    Cmd.Sat (Carries env id password) (verifyPassword env id password')
      (fun ok _ => ok = decide (cstr password' = cstr password)) (fun _ _ => False) fun _ => True := by
  refine Cmd.Sat.bind ((sat_query_user id).post fun _ _ h => ⟨h.2 rfl, h.1⟩) fun found => Cmd.Sat.of_fact fun hfound => ?_
  obtain ⟨row, rest, hash, rfl, hhash, hversion, hof⟩ := hfound
  have hfield : atField row "password_hash" = .ok (.str hash) := by rw [atField, hhash]
  simp only [hfield]
  refine Cmd.Sat.bind (R := fun v _ => v = .str hash) (Cmd.sat_ofExcept (fun _ _ h _ => by cases h; rfl)
    fun _ _ h _ => by cases h) fun v => Cmd.sat_ite (fun _ => Cmd.sat_pure fun db hv => ?_) fun hold => absurd hversion hold
  subst hv
  rw [Bool.eq_iff_iff, decide_eq_true_eq]
  exact verify_iff hideal hof password'

/-! ### Where a password is set -/

/-- No row is that of the user. -/
def Unused (id : Int32) (rows : RowList) : Prop := ∀ row ∈ rows, isRowOf id row = false

/-- The row of the user has a hash of version 0. -/
def Outdated (id : Int32) (rows : RowList) : Prop :=
  ∃ row, rows.find? (isRowOf id) = some row ∧ passwordVersion row < 1

theorem isSome_of_atField {row : Row} {key : String} {v : Value} (h : atField row key = .ok v) :
    (row.find? (lit key)).isSome := by
  unfold atField at h
  cases hv : row.find? (lit key) with
  | none =>
    rw [hv] at h
    cases h
  | some _ => rfl

theorem ids_of_nextUserId {rows : RowList} {maxId next : Int32} (h : nextUserId maxId rows = .ok next) :
    ∀ row ∈ rows, (row.find? (lit "id")).isSome := by
  induction rows generalizing maxId with
  | nil => exact nofun
  | cons first rest ih =>
    obtain ⟨v, hv, hrest⟩ := bind_eq_ok h
    intro row hrow
    rcases List.mem_cons.mp hrow with rfl | hrow
    · exact isSome_of_atField hv
    · exact ih hrest row hrow

theorem ids_of_filterRows {rows found : RowList} {id' : Int32} (h : filterRows (hasId id') rows = .ok found) :
    ∀ row ∈ rows, (row.find? (lit "id")).isSome := by
  induction rows generalizing found with
  | nil => exact nofun
  | cons first rest ih =>
    obtain ⟨keep, hkeep, h⟩ := bind_eq_ok h
    obtain ⟨kept, hrest, -⟩ := bind_eq_ok h
    intro row hrow
    rcases List.mem_cons.mp hrow with rfl | hrow
    · cases hv : atField row "id" with
      | ok v => exact isSome_of_atField hv
      | error e =>
        rw [hasId, hv] at hkeep
        cases hkeep
    · exact ih hrest row hrow

/-- A user who is created has the password. -/
theorem sat_create (hideal : IdealCrypt env) (hpos : 0 < id) (nickname : Bytes) (avatarId : Int32) :
    Cmd.Sat (OnceLoaded env .users (Unused id)) (create env password nickname avatarId)
      (fun created db => created = id → Carries env id password db) (fun _ _ => True) fun _ => True := by
  have hfind : Cmd.Sat (OnceLoaded env .users (Unused id)) (findByNickname env nickname)
      (fun _ => Cached .users (Unused id)) (fun _ _ => True) fun _ => True := by
    refine Cmd.Sat.bind (R := fun _ => Cached .users (Unused id))
      (sat_query_once.post fun _ _ ⟨rows, hrows, hunused, _⟩ => ⟨rows, hrows, hunused⟩) fun found => ?_
    cases found with
    | nil => exact Cmd.sat_pure fun _ h => h
    | cons row rest =>
      exact Cmd.Sat.bind (R := fun _ => Cached .users (Unused id)) (Cmd.sat_ofExcept (fun _ _ _ h => h)
        fun _ _ _ _ => trivial) fun _ => Cmd.sat_pure fun _ h => h
  refine hfind.bind fun existing => ?_
  cases existing with
  | some _ =>
    refine Cmd.sat_pure fun _ _ hcreated => ?_
    rw [← hcreated] at hpos
    exact absurd hpos (by decide)
  | none =>
    refine sat_queryAll_cached.bind fun all => Cmd.Sat.of_fact fun hunused => ?_
    have hreads := reads_cached env .users (· = all)
    refine Cmd.Sat.bind (R := fun _ db => (∀ row ∈ all, (row.find? (lit "id")).isSome) ∧ Cached .users (· = all) db)
      (Cmd.sat_ofExcept (fun _ _ hnext h => ⟨ids_of_nextUserId hnext, h⟩) fun _ _ _ _ => trivial) fun next =>
        Cmd.Sat.of_fact fun hids => ?_
    refine (sat_bcryptHashPassword hideal fun _ _ h => h).bind fun hash => Cmd.Sat.of_fact fun hhash =>
      hreads.time.lax.bind fun now => ?_
    by_cases hnext : next = id
    · subst hnext
      refine (sat_insert_cached fun rows hrows => ?_).bind fun _ => Cmd.sat_pure fun _ h _ => h
      subst hrows
      exact hasPassword_concat hids hunused hhash nickname avatarId now
    · exact (Cmd.sat_true _).bind fun _ => Cmd.sat_pure fun _ _ hcreated => absurd hcreated hnext

/-- A user whose hash is upgraded has the password that he has presented. -/
theorem sat_upgrade (hideal : IdealCrypt env) :
    Cmd.Sat (OnceLoaded env .users (Outdated id)) (verifyPassword env id password)
      (fun ok db => ok = true → Carries env id password db) (fun _ _ => True) fun _ => True := by
  refine sat_query_once.bind fun found => .of_forall fun db ⟨all, hall, ⟨row, hfirst, hold⟩, hfound⟩ => ?_
  have hids := ids_of_filterRows hfound
  rw [filterRows_eq fun row hrow => hasId_of_isSome (hids row hrow) id] at hfound
  cases hfound
  obtain ⟨rest, hcons⟩ := List.head?_eq_some_iff.mp (List.head?_filter.trans hfirst)
  rw [hcons]
  have hlax : ∀ {α : Type} {c : DbM α} {Q : α → Database → Prop},
      Cmd.Sat (Cached .users (· = all)) c Q (fun _ _ => True) (fun _ => True) →
        Cmd.Sat (fun s => s = db) c Q (fun _ _ => True) fun _ => True := fun h =>
    h.pre fun _ hs => ⟨all, hs ▸ hall, rfl⟩
  refine hlax (Cmd.Sat.bind (R := fun _ => Cached .users (· = all)) (Cmd.sat_ofExcept (fun _ _ _ h => h)
    fun _ _ _ _ => trivial) fun stored => ?_)
  refine Cmd.sat_ite (fun hversion => ?_) fun _ => Cmd.sat_ite (fun _ => Cmd.sat_pure fun _ _ => nofun) fun _ => ?_
  · exact absurd hold (Int32.not_lt.mpr hversion)
  · refine (sat_bcryptHashPassword hideal fun _ _ h => h).bind fun upgraded => Cmd.Sat.of_fact fun hhash => ?_
    refine (sat_update_cached fun rows hrows => ?_).bind fun _ => Cmd.sat_pure fun _ h _ => h
    subst hrows
    exact hasPassword_upgraded hids hfirst hhash

end Operations

end UserRepository

namespace TcpServer

open Database UserRepository FriendRepository MessageRouter

section Runs

variable {env : Env} {st st' : Server} {event : Event} {session : SessionId} {uid id : Int32}
  {request : Object} {password : Bytes}

/-- The event sets the password of the user: it registers a new one, or logs him
in with a password whose hash is upgraded. -/
inductive SetsPassword (env : Env) (st : Server) (id : Int32) (password : Bytes) : Event → Prop
  | register {session : SessionId} {json : Bytes} {now later : Int} {request : Object}
      (nickname : Bytes) (avatarId : Int32) :
      Handled st session now → readObject json = some request →
      typeField request = some .RegisterUser →
      stringField request "nickname" (stringField request "name" []) = nickname → nickname ≠ [] →
      stringField request "password" [] = password → password ≠ [] → intField request "headId" 0 = avatarId →
      (create env password nickname avatarId st.db).result = .ok id → 0 < id →
      OnceLoaded env .users (Unused id) st.db →
      SetsPassword env st id password (.frame session json now later)
  | upgrade {session : SessionId} {json : Bytes} {now later : Int} {request : Object} :
      Handled st session now → readObject json = some request →
      typeField request = some .Login → intField request "id" 0 = id → 0 < id →
      stringField request "password" [] = password →
      (verifyPassword env id password st.db).result = .ok true →
      OnceLoaded env .users (Outdated id) st.db →
      SetsPassword env st id password (.frame session json now later)

theorem guardsCalls_carries :
    GuardsCalls env (Carries env id password) (Carries env id password) uid request := by
  have hreads := reads_cached env .users (HasPassword env id password)
  have hmessages := @writesTo_cached .users .messages env (HasPassword env id password) (by decide)
  have hmembers := @writesTo_cached .users .group_members env (HasPassword env id password) (by decide)
  intro α c hcall
  cases hcall with
  | create _ _ _ _ => exact carries_create _ _ _
  | verifyPassword _ _ _ => exact carries_verifyPassword _ _
  | setOnline _ _ => exact carries_setOnlineStatus _ _
  | setOffline _ _ => exact carries_setOnlineStatus _ _
  | updateProfile _ _ _ _ => exact carries_updateProfile _ _ _
  | join _ _ => exact hmembers.join hreads _ _
  | leave _ _ => exact hmembers.leave _ _
  | createGroup _ _ _ => exact WritesTo.createGroup hreads (writesTo_cached env _ (by decide)) hmembers _ _
  | sendRequest _ _ => exact guarded_sendRequest hreads friendships_cached _ _ _
  | acceptRequest _ _ => exact guarded_setStatus hreads friendships_cached _ _ _
  | rejectOrRemove _ => exact guarded_rejectOrRemove hreads friendships_cached _ _ _
  | offlineForUser _ _ => exact hmessages.offlineForUser hreads _ _
  | savePrivate _ _ _ _ _ _ => exact hmessages.savePrivate hreads _ _ _ _ _
  | saveGroup _ _ _ _ _ => exact hmessages.saveGroup hreads _ _ _ _
  | markReadByNobody _ _ _ => exact hmessages.markRead _ _
  | markRead _ _ _ _ => exact hmessages.markRead _ _
  | addReaction _ _ _ _ _ => exact hmessages.addReaction _ _ _
  | edit _ _ _ _ _ => exact hmessages.edit hreads _ _ _
  | softDelete _ _ _ _ => exact hmessages.softDelete hreads _ _

/-- No event takes the password of a user away. -/
theorem carries_step (hst : Carries env id password st.db) (hstep : step env st event = some st') :
    Carries env id password st'.db :=
  invariant_step_of_calls (reads_cached env .users _) (fun id' => carries_setOnlineStatus id' false)
    (fun _ _ _ _ _ _ _ => guardsCalls_carries) hst hstep

/-- A handler that starts with a repository call, after which the user has the password. -/
theorem carries_of_call {α β : Type} {c : DbM α} {f : α → RouterM β} {a : α}
    (hc : (c st.db).result = .ok a) (hcarries : Carries env id password (c st.db).state)
    (hf : Guards (Carries env id password) (Carries env id password) (f a)) {b : β}
    (hb : ((onDb c >>= f) st).result = .ok b) : Carries env id password ((onDb c >>= f) st).state.db := by
  rw [Cmd.bind_of_run _ (run_onDb hc)] at hb ⊢
  exact (hf { st with db := (c st.db).state } hcarries).2.1 b hb

/-- After the event the user has the password. -/
theorem carries_of_sets (hideal : IdealCrypt env) (hsets : SetsPassword env st id password event)
    (hstep : step env st event = some st') : Carries env id password st'.db := by
  have hreads := reads_cached env .users (HasPassword env id password)
  obtain ⟨hok, hstate⟩ := of_step hstep
  cases hsets with
  | @register session json now later request nickname avatarId hhandled hparse htype hnickname hsome hpassword
      hother havatar hcreate hpos hunused =>
    obtain ⟨s, -, hdb, hrun⟩ := @handle_frame env _ _ _ _ later _ hhandled
      ((parseObject_of_step hhandled hstep).trans hparse) (by rw [htype]; nofun)
    have hdispatch : dispatch env session request = handleRegister env session request := by
      unfold dispatch
      rw [htype]
    have hcarries := (sat_create hideal hpos nickname avatarId st.db hunused).2.1 id hcreate rfl
    rw [hstate, hrun, hdispatch]
    rw [hrun, hdispatch] at hok
    unfold handleRegister at hok ⊢
    rw [hnickname, hpassword, havatar, if_neg (not_or.mpr ⟨hsome, hother⟩)] at hok ⊢
    rw [← hdb] at hcreate hcarries
    refine carries_of_call hcreate hcarries ?_ hok
    exact Guards.ite (fun _ => guards_deliver _ _) fun _ => guards_deliver _ _
  | @upgrade session json now later request hhandled hparse htype hid hpos hpassword hverify hold =>
    obtain ⟨s, -, hdb, hrun⟩ := @handle_frame env _ _ _ _ later _ hhandled
      ((parseObject_of_step hhandled hstep).trans hparse) (by rw [htype]; nofun)
    have hdispatch : dispatch env session request = handleLogin env session request := by
      unfold dispatch
      rw [htype]
    have hcarries := (sat_upgrade hideal st.db hold).2.1 true hverify rfl
    rw [hstate, hrun, hdispatch]
    rw [hrun, hdispatch] at hok
    unfold handleLogin at hok ⊢
    rw [hid, hpassword, if_neg (Int32.not_le.mpr hpos)] at hok ⊢
    rw [← hdb] at hverify hcarries
    refine carries_of_call hverify hcarries ?_ hok
    refine Guards.ite (fun _ => guards_deliver _ _) fun _ => (guards_onDb (hreads.findById id)).bind fun user => ?_
    cases user with
    | none => exact guards_deliver _ _
    | some user => exact guards_acceptLogin hreads (show GuardsCalls env (Carries env id password) _ id _ from guardsCalls_carries) htype _ _

/-- A later check of a password of the user compares the C strings. -/
theorem verifyPassword_of_sets (hideal : IdealCrypt env) {st₁ st₂ : Server} {events : List Event}
    (hsets : SetsPassword env st id password event) (hstep : step env st event = some st₁)
    (hrun : run (step env) st₁ events = some st₂) (password' : Bytes) :
    (verifyPassword env id password' st₂.db).result = .ok (decide (cstr password' = cstr password)) := by
  have hcarries : Carries env id password st₂.db :=
    invariant_run (I := fun st => Carries env id password st.db) (fun _ _ _ hst h => carries_step hst h)
      (carries_of_sets hideal hsets hstep) hrun
  obtain ⟨-, hok, herr⟩ := sat_verifyPassword hideal password' st₂.db hcarries
  cases hresult : (verifyPassword env id password' st₂.db).result with
  | ok b => rw [hok b hresult]
  | error e => exact (herr e hresult).elim

/-- A later check of a password tells whether it is the one that was set exactly
if the two do not differ behind a zero byte only. -/
theorem password_compared_whole_iff (hideal : IdealCrypt env) {st₁ st₂ : Server} {events : List Event}
    (hsets : SetsPassword env st id password event) (hstep : step env st event = some st₁)
    (hrun : run (step env) st₁ events = some st₂) (password' : Bytes) :
    ((verifyPassword env id password' st₂.db).result = .ok true ↔ password' = password) ↔
      (cstr password' = cstr password → password' = password) := by
  rw [verifyPassword_of_sets hideal hsets hstep hrun password', Except.ok.injEq, decide_eq_true_eq]
  constructor
  · exact fun h => h.mp
  · exact fun h => ⟨h, congrArg cstr⟩

end Runs

theorem idealCrypt_ideal : IdealCrypt .ideal where
  salted _ := ⟨_, rfl⟩
  hashed entropy salt key hsalt := by
    cases hsalt
    exact ⟨_, rfl, rfl⟩
  setting entropy salt key key' hash hsalt hhash := by
    cases hsalt
    cases hhash
    rfl
  distinct entropy salt key key' hash hash' hsalt hkey hkey' hhash hhash' heq := by
    cases hsalt
    cases hhash
    cases hhash'
    have hcstr : ∀ {key : Bytes}, 0 ∉ key → cstr key = key := fun {key} h =>
      List.takeWhile_eq_self_iff.mpr fun b hb => by
        rw [decide_eq_true_eq]
        rintro rfl
        exact h hb
    have hplain : ∀ key : Bytes, cstr (lit "$2b$" ++ key) = lit "$2b$" ++ cstr key := fun _ => rfl
    have hboth : lit "$2b$" ++ cstr key = lit "$2b$" ++ cstr key' := heq
    rwa [List.append_cancel_left_eq, hcstr hkey, hcstr hkey'] at hboth

/-- A user registers with the letters `a` and `b`, and a zero byte between them. -/
def zeroByte : Event :=
  request 1 .RegisterUser [("nickname", text "a"), ("password", .str [97, 0, 98])]

theorem sets_zeroByte : ∃ st st', run (step .ideal) (.boot .ideal .empty) [.accept 0] = some st ∧
    SetsPassword .ideal st 1000 [97, 0, 98] zeroByte ∧ step .ideal st zeroByte = some st' := by
  have hboot : ((run (step .ideal) (.boot .ideal .empty) [.accept 0]).map fun st =>
      (decide (Handled st 1 0), (create .ideal [97, 0, 98] (lit "a") 0 st.db).result.toOption,
        ((loadTable .ideal .users st.db).state.tables .users).map List.length, (step .ideal st zeroByte).isSome)) =
      some (true, some 1000, some 0, true) := by
    decide +kernel
  have hrequest : ((readObject (requestText .RegisterUser [("nickname", text "a"), ("password", .str [97, 0, 98])])).map
      fun request => (typeField request, stringField request "nickname" (stringField request "name" []),
        stringField request "password" [], intField request "headId" 0)) =
      some (some .RegisterUser, lit "a", [97, 0, 98], 0) := by
    decide +kernel
  obtain ⟨st, hst, hfacts⟩ := Option.map_eq_some_iff.mp hboot
  obtain ⟨req, hparse, hfields⟩ := Option.map_eq_some_iff.mp hrequest
  simp only [Prod.mk.injEq, decide_eq_true_eq] at hfacts hfields
  obtain ⟨hhandled, hcreate, hempty, hstep⟩ := hfacts
  obtain ⟨htype, hnickname, hpassword, havatar⟩ := hfields
  obtain ⟨st', hst'⟩ := Option.isSome_iff_exists.mp hstep
  refine ⟨st, st', hst, .register (lit "a") 0 hhandled hparse htype hnickname (by decide) hpassword (by decide)
    havatar ?_ (by decide) fun rows hrows => ?_, hst'⟩
  · cases hresult : (create .ideal [97, 0, 98] (lit "a") 0 st.db).result with
    | ok id =>
      rw [hresult] at hcreate
      cases hcreate
      rfl
    | error e =>
      rw [hresult] at hcreate
      cases hcreate
  · rw [hrows, Option.map_some, Option.some.injEq, List.length_eq_zero_iff] at hempty
    subst hempty
    exact nofun

theorem password_compared_whole_iff_registered : ∃ st : Server,
    ((verifyPassword .ideal 1000 (lit "a") st.db).result = .ok true ↔ lit "a" = [97, 0, 98]) ↔
      (cstr (lit "a") = cstr [97, 0, 98] → lit "a" = [97, 0, 98]) := by
  obtain ⟨st, st', -, hsets, hstep⟩ := sets_zeroByte
  exact ⟨st', password_compared_whole_iff idealCrypt_ideal hsets hstep (run_nil st') (lit "a")⟩

/-- What stands before the zero byte is accepted as the password. -/
theorem accepted_before_zeroByte : ¬∀ env, IdealCrypt env → ∀ (st st₁ st₂ : Server) (event : Event)
    (events : List Event) (id : Int32) (password password' : Bytes),
    SetsPassword env st id password event → step env st event = some st₁ → run (step env) st₁ events = some st₂ →
      ((verifyPassword env id password' st₂.db).result = .ok true ↔ password' = password) := by
  intro hall
  obtain ⟨st, st', -, hsets, hstep⟩ := sets_zeroByte
  have haccepted := verifyPassword_of_sets idealCrypt_ideal hsets hstep (run_nil st') (lit "a")
  have hsame := (hall .ideal idealCrypt_ideal st st' st' zeroByte [] 1000 [97, 0, 98] (lit "a") hsets hstep (run_nil st')).mp
    haccepted
  exact absurd hsame (by decide)

end TcpServer

end LanChat
