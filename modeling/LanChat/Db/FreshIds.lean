import LanChat.Db.OfflineMessages

/-!
# Fresh ids

A new user, group or message gets an id beyond those of all rows of its table.
No operation deletes or renumbers a row, so the ids that are handed out are
increasing (`ids_increasing`), as long as no id reaches the limit of its type
and a table that is loaded is the one that was there.
-/

namespace LanChat

open Lib Json

namespace Database

open Cmd

/-- The id of a row, as the next id of its table is computed from it. -/
def idIn : TableName → Row → Int
  | .users, row => ((row.find? (lit "id")).elim 0 fun v => v.asInt.toInt32.toInt)
  | .groups, row => (rowInt row "group_id").toInt
  | .messages, row => (rowInt64 row "msg_id").toInt
  | _, _ => 0

/-- The tables whose ids are handed out. -/
def idTables : List TableName := [.users, .groups, .messages]

/-- The largest value of the type of the ids. -/
def idLimit : TableName → Int
  | .messages => 2 ^ 63 - 1
  | _ => 2 ^ 31 - 1

def ids (name : TableName) (db : Database) : List Int := (db.content name).map (idIn name)

/-- The rows have all of the ids. -/
def Covers (name : TableName) (start : List Int) (rows : RowList) : Prop :=
  ∀ id ∈ start, id ∈ rows.map (idIn name)

/-! ## The table that is loaded first -/

/-- The command loads the table before it calls SQLite for anything else. -/
structure LoadsFirst {α : Type} (env : Env) (name : TableName) (c : DbM α) : Prop where
  fails : ∀ db e, (loadTable env name db).result = .error e →
    (c db).result = .error e ∧ (c db).state.content name = (loadTable env name db).state.content name
  loaded : ∀ db, (loadTable env name db).result = .ok () → c db = c (loadTable env name db).state

section LoadsFirst

variable {env : Env} {name : TableName} {α β : Type} {db : Database}

/-- The clock has been read once more. -/
def tick (db : Database) : Database := { db with readings := db.readings + 1 }

/-- Loading a table does not depend on the readings of the clock. -/
theorem blind_loadTable (env : Env) (name : TableName) : Blind tick (loadTable env name) := by
  have hcall : Blind tick (call env) := fun _ => rfl
  have hset : ∀ rows, Blind tick (setTable name rows) := fun _ _ => rfl
  have hread : ∀ texts, Blind tick (readRows env texts) := by
    intro texts
    induction texts with
    | nil => exact hcall.bind fun _ => blind_pure []
    | cons text texts ih =>
      refine hcall.bind fun served => ?_
      exact Blind.ite ((blind_ofExcept _).bind fun _ => ih.bind fun _ => blind_pure _) (blind_pure [])
  have hprepare : Blind tick (prepare env name) :=
    hcall.bind fun _ => Blind.bind (blind_asks fun _ => rfl) fun _ => blind_pure _
  unfold loadTable
  refine Blind.bind (blind_asks fun _ => rfl) fun cached => Blind.ite (blind_pure ()) ?_
  refine hprepare.bind fun prepared => Blind.ite ?_ (hset [])
  exact Blind.bind (blind_asks fun _ => rfl) fun texts => (hread texts).bind hset

theorem leaves_readings_loadTable (env : Env) (name : TableName) :
    Leaves (fun db => db.readings) (loadTable env name) := by
  have hread : ∀ texts, Leaves (fun db => db.readings) (readRows env texts) := by
    intro texts
    induction texts with
    | nil => exact leaves_bind (fun _ => rfl) fun _ => leaves_pure []
    | cons text texts ih =>
      refine leaves_bind (fun _ => rfl) fun served => leaves_ite ?_ (leaves_pure [])
      exact leaves_bind (leaves_ofExcept _) fun _ => leaves_bind ih fun _ => leaves_pure _
  refine leaves_bind (leaves_asks _) fun cached => leaves_ite (leaves_pure ()) ?_
  refine leaves_bind (leaves_bind (fun _ => rfl) fun _ => leaves_bind (leaves_asks _) fun _ => leaves_pure _)
    fun prepared => leaves_ite ?_ fun _ => rfl
  exact leaves_bind (leaves_asks _) fun texts => leaves_bind (hread texts) fun _ => fun _ => rfl

theorem loadTable_again (h : (loadTable env name db).result = .ok ()) :
    loadTable env name (loadTable env name db).state = ⟨.ok (), (loadTable env name db).state, []⟩ := by
  have hloaded := (@sat_loadTable env (fun _ => True) (fun _ => True) name db trivial).2.1 () h
  obtain ⟨rows, hrows⟩ := Option.isSome_iff_exists.mp hloaded
  exact loadTable_of_cached hrows

theorem loadsFirst_load (f : Unit → DbM α) : LoadsFirst env name (loadTable env name >>= f) where
  fails db e h := by
    rw [bind_error f h]
    exact ⟨rfl, rfl⟩
  loaded db h := by
    rw [bind_ok f h, bind_of_run f (loadTable_again h), out_eq_nil (loadTable env name) db]
    rfl

theorem LoadsFirst.bind {c : DbM α} (h : LoadsFirst env name c) (f : α → DbM β) :
    LoadsFirst env name (c >>= f) where
  fails db e he := by
    obtain ⟨hresult, hcontent⟩ := h.fails db e he
    rw [bind_error f hresult]
    exact ⟨rfl, hcontent⟩
  loaded db hload := by
    rw [bind_apply, bind_apply, andThen, andThen, ← h.loaded db hload]

/-- The clock may be read before. -/
theorem LoadsFirst.time {f : Int64 → DbM α} (h : ∀ now, LoadsFirst env name (f now)) :
    LoadsFirst env name (Database.time env >>= f) where
  fails db e he := by
    have hblind := blind_loadTable env name db
    obtain ⟨hresult, hcontent⟩ := (h (env.time db.readings)).fails db.tick e (by rw [hblind]; exact he)
    rw [bind_of_run f (run_time db)]
    rw [hblind] at hcontent
    exact ⟨hresult, hcontent⟩
  loaded db hload := by
    have hblind := blind_loadTable env name db
    have hreadings : (loadTable env name db).state.readings = db.readings := leaves_readings_loadTable env name db
    have htick : ∀ db, Database.time env db = ⟨.ok (env.time db.readings), db.tick, []⟩ := run_time
    rw [bind_of_run f (htick db),
      bind_of_run f (htick _), hreadings,
      (h _).loaded db.tick (by rw [hblind]; exact hload), hblind]

end LoadsFirst

/-! ## Rows in memory -/

section Memory

variable {env : Env} {name other : TableName} {rows : RowList} {start : List Int} {α : Type}

/-- An update that leaves a field alone. -/
theorem map_updateRows {β : Type} {g : Row → β} (p : Row → Except Exn Bool) {u : Row → Row}
    (hu : ∀ row, g (u row) = g row) (rows : RowList) : (updateRows p u rows).1.map g = rows.map g := by
  induction rows with
  | nil => rfl
  | cons row rest ih =>
    unfold updateRows
    cases p row with
    | error e => rfl
    | ok hit => cases hit <;> simp [ih, hu]

/-- The rows of a table in memory. -/
def Fixed (name : TableName) (rows : RowList) (db : Database) : Prop := db.tables name = some rows

/-- What only reads leaves them. -/
theorem reads_fixed (env : Env) (name : TableName) (rows : RowList) :
    Reads env (fun _ _ => True) (Fixed name rows) (Fixed name rows) where
  counters _ _ _ _ h := h
  load other db hdb := by
    have hafter : Fixed name rows (loadTable env other db).state := by
      rcases eq_or_ne name other with rfl | hname
      · rw [loadTable_of_cached hdb]
        exact hdb
      · exact ((spares_loadTable hname).tables db).trans hdb
    exact ⟨nofun, fun _ _ => ⟨hafter, fun _ _ => trivial⟩, fun _ _ => hafter⟩
  users := .inr fun _ h => h
  thrown _ h := h

theorem guarded_fixed {c : DbM α} (h : Spares name c) : Guarded (Fixed name rows) (Fixed name rows) c := by
  have hkeeps : Keeps (Fixed name rows) (fun _ => True) c :=
    keeps_iff.mpr fun db hdb => ⟨(h.tables db).trans hdb, nofun⟩
  exact hkeeps

/-- The rows that a table in memory has after an insertion. -/
theorem sat_insert_fixed (row : Row) :
    Sat (Fixed name rows) (insert env name row) (fun _ => Fixed name (rows ++ [row]))
      (fun _ => Fixed name rows) fun _ => True :=
  ((yields_insert row).pre fun _ hdb => .inl hdb).weaken (fun _ h => h) (fun _ _ h => h)
    (fun _ _ h => h.elim) fun _ h => h

theorem covers_refl (name : TableName) (rows : RowList) : Covers name (rows.map (idIn name)) rows :=
  fun _ h => h

theorem Covers.append (h : Covers name start rows) (row : Row) : Covers name start (rows ++ [row]) := by
  intro id hid
  rw [List.map_append]
  exact List.mem_append_left _ (h id hid)

theorem reads_covers (env : Env) (name : TableName) (start : List Int) :
    Reads env (fun _ _ => True) (Tracks env True name (Covers name start))
      (Tracks env True name (Covers name start)) :=
  reads_tracks fun hpart => absurd trivial hpart

theorem guarded_update_covers (p : Row → Except Exn Bool) {u : Row → Row}
    (hu : ∀ row, idIn name (u row) = idIn name row) :
    Guarded (Tracks env True name (Covers name start)) (Tracks env True name (Covers name start))
      (update env name p u) :=
  guarded_updateRows_tracks (fun hpart => absurd trivial hpart) fun rows hrows => by
    unfold Covers at hrows ⊢
    rwa [map_updateRows p hu]

/-! ## The ids that are handed out -/

/-- The table has the id, and no row had one as large. -/
def Fresh (name : TableName) (rows : RowList) (id : Int) (db : Database) : Prop :=
  id ∈ ids name db ∧ ∀ row ∈ rows, idIn name row < id

/-- With these rows in memory the command keeps all ids, and hands out a larger one. -/
def Extends (env : Env) (name : TableName) (rows : RowList) (c : DbM (Option (TableName × Int))) : Prop :=
  Sat (Fixed name rows) c
    (fun handed db => Tracks env True name (Covers name (rows.map (idIn name))) db ∧
      ∀ id, handed = some (name, id) → Fresh name rows id db)
    (fun _ => Tracks env True name (Covers name (rows.map (idIn name)))) fun _ => True

/-- A command that hands out no id. -/
def noId (c : DbM α) : DbM (Option (TableName × Int)) := do
  let _ ← c
  pure none

theorem Fixed.tracks {db : Database} (h : Fixed name rows db) :
    Tracks env True name (Covers name (rows.map (idIn name))) db where
  settled := settled_of_cached (by rw [h]; rfl)
  rows := by
    rw [content_of_cached h]
    exact covers_refl name rows
  loads _ := .inr (by rw [h]; rfl)

theorem extends_noId {c : DbM α} (h : ∀ start, Guarded (Tracks env True name (Covers name start))
    (Tracks env True name (Covers name start)) c) : Extends env name rows (noId c) :=
  ((h _).pre fun _ hdb => hdb.tracks).bind fun _ => sat_pure fun _ hdb => ⟨hdb, nofun⟩

/-- An exception that leaves the rows leaves their ids. -/
theorem sat_thrown {P : Database → Prop} {c : DbM α} {Q : α → Database → Prop}
    (h : Sat P c Q (fun _ => Fixed name rows) fun _ => True) :
    Sat P c Q (fun _ => Tracks env True name (Covers name (rows.map (idIn name)))) fun _ => True :=
  h.weaken (fun _ h => h) (fun _ _ h => h) (fun _ _ h => h.tracks) fun _ h => h

/-- All rows are read. -/
theorem sat_queryAll_fixed :
    Sat (Fixed name rows) (queryAll env name) (fun all db => all = rows ∧ Fixed name rows db)
      (fun _ => Fixed name rows) fun _ => True :=
  (yields_queryAll.pre fun _ h => .inl h).weaken (fun _ h => h) (fun _ _ h => h) (fun _ _ h => h.elim) fun _ h => h

/-- After an insertion the table has the ids that it had, and that of the new row. -/
theorem fixed_append {row : Row} {db : Database} (h : Fixed name (rows ++ [row]) db) :
    Tracks env True name (Covers name (rows.map (idIn name))) db ∧ idIn name row ∈ ids name db := by
  refine ⟨⟨settled_of_cached (by rw [h]; rfl), ?_, fun _ => .inr (by rw [h]; rfl)⟩, ?_⟩
  · rw [content_of_cached h]
    exact (covers_refl name rows).append row
  · rw [ids, content_of_cached h, List.map_append]
    exact List.mem_append_right _ List.mem_cons_self

end Memory

end Database

/-! ## The next id -/

/-- The id after one that is not the last. -/
theorem toInt_add_one {n : Int32} (h : n.toInt < 2 ^ 31 - 1) : (n + 1).toInt = n.toInt + 1 := by
  have hone : (1 : Int32).toInt = 1 := rfl
  have hlow := n.le_toInt
  rw [Int32.toInt_add, hone, Int.bmod]
  omega

namespace UserRepository

open Database

theorem nextUserId_above {rows : RowList} {start id : Int32} (h : nextUserId start rows = .ok id)
    (hroom : ∀ row ∈ rows, idIn .users row < idLimit .users) :
    start ≤ id ∧ ∀ row ∈ rows, idIn .users row < id.toInt := by
  induction rows generalizing start with
  | nil =>
    cases h
    exact ⟨Int32.le_refl _, nofun⟩
  | cons row rest ih =>
    obtain ⟨v, hv, hrest⟩ := bind_eq_ok h
    have hid : idIn .users row = v.asInt.toInt32.toInt := by
      unfold atField at hv
      cases hfind : row.find? (lit "id") with
      | none =>
        rw [hfind] at hv
        cases hv
      | some w =>
        rw [hfind] at hv
        cases hv
        rw [idIn, hfind]
        rfl
    have hlast := hroom row List.mem_cons_self
    rw [hid] at hlast
    obtain ⟨hle, hall⟩ := ih hrest fun r hr => hroom r (List.mem_cons_of_mem _ hr)
    have hnext := toInt_add_one hlast
    simp only [Int32.le_iff_toInt_le] at hle ⊢
    refine ⟨?_, fun r hr => ?_⟩
    · split at hle <;> omega
    · rcases List.mem_cons.mp hr with rfl | hr
      · rw [hid]
        split at hle <;> omega
      · exact hall r hr

end UserRepository

namespace ChannelRepository

open Database

/-- The largest id is the one of a row, or 2000. -/
theorem maxGroupId_above {rows : RowList} (hroom : ∀ row ∈ rows, idIn .groups row < idLimit .groups) :
    ∀ row ∈ rows, idIn .groups row < (maxGroupId rows + 1).toInt := by
  have hfold : ∀ (rows : RowList) (start : Int32), start.toInt < 2 ^ 31 - 1 →
      (∀ row ∈ rows, idIn .groups row < idLimit .groups) →
      (rows.foldl (fun maxId row => max maxId (rowInt row "group_id")) start).toInt < 2 ^ 31 - 1 ∧
        start.toInt ≤ (rows.foldl (fun maxId row => max maxId (rowInt row "group_id")) start).toInt ∧
        ∀ row ∈ rows, idIn .groups row ≤
          (rows.foldl (fun maxId row => max maxId (rowInt row "group_id")) start).toInt := by
    intro rows
    induction rows with
    | nil => exact fun start hstart _ => ⟨hstart, Int.le_refl _, nofun⟩
    | cons row rest ih =>
      intro start hstart hrows
      have hrow : (rowInt row "group_id").toInt < 2 ^ 31 - 1 := hrows row List.mem_cons_self
      have hmax : (max start (rowInt row "group_id")).toInt < 2 ^ 31 - 1 ∧
          start.toInt ≤ (max start (rowInt row "group_id")).toInt ∧
          (rowInt row "group_id").toInt ≤ (max start (rowInt row "group_id")).toInt := by
        rcases em (start ≤ rowInt row "group_id") with hle | hle
        · rw [show max start (rowInt row "group_id") = rowInt row "group_id" from if_pos hle]
          exact ⟨hrow, Int32.le_iff_toInt_le.mp hle, Int.le_refl _⟩
        · rw [show max start (rowInt row "group_id") = start from if_neg hle]
          rw [Int32.le_iff_toInt_le] at hle
          exact ⟨hstart, Int.le_refl _, by omega⟩
      obtain ⟨hlast, hstart', hall⟩ := ih _ hmax.1 fun r hr => hrows r (List.mem_cons_of_mem _ hr)
      refine ⟨hlast, hmax.2.1.trans hstart', fun r hr => ?_⟩
      rcases List.mem_cons.mp hr with rfl | hr
      · exact hmax.2.2.trans hstart'
      · exact hall r hr
  intro row hrow
  obtain ⟨hlast, -, hall⟩ := hfold rows 2000 (by decide) hroom
  have hnext : (maxGroupId rows + 1).toInt = (maxGroupId rows).toInt + 1 := toInt_add_one hlast
  have hle : idIn .groups row ≤ (maxGroupId rows).toInt := hall row hrow
  omega

end ChannelRepository

namespace MessageRepository

open Database

theorem maxMessageId_above {rows : RowList} (hroom : ∀ row ∈ rows, idIn .messages row < idLimit .messages) :
    ∀ row ∈ rows, idIn .messages row < (maxMessageId rows + 1).toInt := by
  intro row hrow
  have hlast : (maxMessageId rows).toInt ≤ 2 ^ 63 - 2 :=
    maxMessageId_le (by decide) fun r hr => Int.le_sub_one_of_lt (hroom r hr)
  have hmax := le_maxMessageId hrow
  have hone : (1 : Int64).toInt = 1 := rfl
  have hlow := (maxMessageId rows).le_toInt
  have hid : idIn .messages row = (fromRow row).msg_id.toInt := rfl
  rw [Int64.le_iff_toInt_le] at hmax
  rw [Int64.toInt_add, hone, Int.bmod]
  omega

end MessageRepository

/-! ## Operations -/

/-- An operation of the repositories; `read` is one that reads the table, and
`reopen` ends the process and starts the server on the file. -/
inductive Operation where
  | create (password nickname : Bytes) (avatarId : Int32)
  | verifyPassword (userId : Int32) (password : Bytes)
  | updateProfile (userId : Int32) (nickname : Bytes) (avatarId : Int32)
  | setOnlineStatus (userId : Int32) (online : Bool)
  | createGroup (hostId : Int32) (name : Bytes)
  | join (userId groupId : Int32)
  | leave (userId groupId : Int32)
  | savePrivate (fromId toId : Int32) (content contentType : Bytes) (delivered : Bool)
  | saveGroup (fromId groupId : Int32) (content contentType : Bytes)
  | edit (msgId : Int64) (actorId : Int32) (content : Bytes)
  | softDelete (msgId : Int64) (actorId : Int32)
  | addReaction (msgId : Int64) (actorId : Int32) (reaction : Bytes)
  | markRead (msgId : Int64) (readerId : Int32)
  | markDelivered (msgId : Int64)
  | offlineForUser (userId limit : Int32)
  | read (name : TableName)
  | reopen
deriving DecidableEq

namespace Operation

open Database

variable (env : Env)

/-- The operation, with the id that it hands out and its table. -/
def execute : Operation → DbM (Option (TableName × Int))
  | create password nickname avatarId => do
    let id ← UserRepository.create env password nickname avatarId
    pure (if id = -1 then none else some (.users, id.toInt))
  | verifyPassword userId password => noId (UserRepository.verifyPassword env userId password)
  | updateProfile userId nickname avatarId =>
    noId (UserRepository.updateProfile env userId nickname avatarId)
  | setOnlineStatus userId online => noId (UserRepository.setOnlineStatus env userId online)
  | createGroup hostId name => do
    let group ← ChannelRepository.createGroup env hostId name
    pure (some (.groups, group.group_id.toInt))
  | join userId groupId => noId (ChannelRepository.join env userId groupId)
  | leave userId groupId => noId (ChannelRepository.leave env userId groupId)
  | savePrivate fromId toId content contentType delivered => do
    let message ← MessageRepository.savePrivate env fromId toId content contentType delivered
    pure (some (.messages, message.msg_id.toInt))
  | saveGroup fromId groupId content contentType => do
    let message ← MessageRepository.saveGroup env fromId groupId content contentType
    pure (some (.messages, message.msg_id.toInt))
  | edit msgId actorId content => noId (MessageRepository.edit env msgId actorId content)
  | softDelete msgId actorId => noId (MessageRepository.softDelete env msgId actorId)
  | addReaction msgId actorId reaction => noId (MessageRepository.addReaction env msgId actorId reaction)
  | markRead msgId readerId => noId (MessageRepository.markRead env msgId readerId)
  | markDelivered msgId => noId (MessageRepository.markDelivered env msgId)
  | offlineForUser userId limit => noId (MessageRepository.offlineForUser env userId limit)
  | read name => noId (loadTable env name)
  | reopen => noId (do close; startUp env)

/-- The table that the operation loads first. -/
def table : Operation → TableName
  | create .. | verifyPassword .. | updateProfile .. | setOnlineStatus .. => .users
  | createGroup .. | join .. => .groups
  | leave .. => .group_members
  | read name => name
  | reopen => .schema_version
  | _ => .messages

end Operation

namespace Database

/-- The database, and the ids that have been handed out, in order. -/
structure Issued where
  db : Database
  log : List (TableName × Int)

namespace Issued

/-- One operation. An exception leaves the database as it is then. -/
def step (env : Env) (s : Issued) (op : Operation) : Option Issued :=
  match (op.execute env s.db).result with
  | .ok (some id) => some ⟨(op.execute env s.db).state, s.log ++ [id]⟩
  | _ => some ⟨(op.execute env s.db).state, s.log⟩

/-- The ids of the table that have been handed out, in order. -/
def handed (name : TableName) (s : Issued) : List Int := (s.log.filter fun entry => entry.1 = name).map (·.2)

/-- No id has reached its limit, and a table that is loaded again is unchanged. -/
structure Sustained (env : Env) (s : Issued) (op : Operation) : Prop where
  room : ∀ name ∈ idTables, ∀ id ∈ ids name s.db, id < idLimit name
  loads : op.table ∈ idTables → (loadTable env op.table s.db).state.content op.table = s.db.content op.table
  reopens : op = .reopen → ∀ name ∈ idTables, (op.execute env s.db).state.content name = s.db.content name

end Issued

end Database

/-! ## What each operation does to a table -/

namespace Operation

open Database Cmd

section Tables

variable {env : Env} {rows : RowList} {name : TableName}

theorem extends_create (hroom : ∀ row ∈ rows, idIn .users row < idLimit .users)
    (password nickname : Bytes) (avatarId : Int32) :
    Extends env .users rows ((create password nickname avatarId).execute env) := by
  have hreads := reads_fixed env .users rows
  refine Sat.bind (R := fun id db => Tracks env True .users (Covers .users (rows.map (idIn .users))) db ∧
    (id ≠ -1 → Fresh .users rows id.toInt db)) ?_ fun id => sat_pure fun db hdb => ⟨hdb.1, fun i hi => ?_⟩
  · refine (sat_thrown (hreads.findByNickname nickname)).bind fun existing => ?_
    cases existing with
    | some _ => exact sat_pure fun _ h => ⟨h.tracks, fun hid => absurd rfl hid⟩
    | none =>
      refine (sat_thrown sat_queryAll_fixed).bind fun all => Sat.of_fact fun hall => ?_
      subst hall
      refine Sat.bind (R := fun id db => (∀ row ∈ all, idIn .users row < id.toInt) ∧ Fixed .users all db)
        (sat_ofExcept (fun id _ hid h => ⟨(UserRepository.nextUserId_above hid hroom).2, h⟩)
          fun _ _ _ h => h.tracks) fun id => Sat.of_fact fun hid => ?_
      refine (sat_thrown (hreads.bcryptHashPassword password 12)).bind fun hash =>
        (sat_thrown hreads.time).bind fun now => ?_
      refine (sat_thrown (sat_insert_fixed _)).bind fun _ => sat_pure fun db hdb => ?_
      obtain ⟨htracks, hmem⟩ := fixed_append hdb
      have hnew : idIn .users (UserRepository.newUserRow id hash nickname avatarId now) = id.toInt := by
        simp [idIn, UserRepository.newUserRow, find?_object, Value.asInt, ofInt32]
      rw [hnew] at hmem
      exact ⟨htracks, fun _ => ⟨hmem, hid⟩⟩
  · split at hi
    · cases hi
    · next hid =>
      cases hi
      exact hdb.2 hid

theorem guarded_join_fixed (userId groupId : Int32) :
    Guarded (Fixed .groups rows) (Fixed .groups rows) (ChannelRepository.join env userId groupId) := by
  have hreads := reads_fixed env .groups rows
  refine (hreads.groupExists groupId).bind fun _ => (guarded_pure false).ite <|
    (hreads.queryOk _ _).bind fun _ => (guarded_pure true).ite <| hreads.time.bind fun now => ?_
  exact (guarded_fixed (spares_insert (by decide) _)).bind fun _ => guarded_pure true

theorem extends_createGroup (hroom : ∀ row ∈ rows, idIn .groups row < idLimit .groups) (hostId : Int32)
    (title : Bytes) : Extends env .groups rows ((createGroup hostId title).execute env) := by
  have hreads := reads_fixed env .groups rows
  refine Sat.bind (R := fun group db => Tracks env True .groups (Covers .groups (rows.map (idIn .groups))) db ∧
    Fresh .groups rows group.group_id.toInt db) ?_ fun group => sat_pure fun db hdb => ⟨hdb.1, fun i hi => ?_⟩
  · refine Sat.bind (R := fun id db => id = ChannelRepository.maxGroupId rows + 1 ∧ Fixed .groups rows db)
      ((sat_thrown sat_queryAll_fixed).bind fun all => sat_pure fun db h => ⟨by rw [h.1], h.2⟩)
      fun id => Sat.of_fact fun hid => ?_
    refine (sat_thrown hreads.time).bind fun now => (sat_thrown (sat_insert_fixed _)).bind fun _ => ?_
    refine Sat.bind ((guarded_join_fixed hostId id).weaken (fun _ h => h) (fun _ _ h => h)
      (fun _ _ h => (fixed_append h).1) fun _ h => h) fun _ => sat_pure fun db hdb => ?_
    obtain ⟨htracks, hmem⟩ := fixed_append hdb
    have hnew : idIn .groups (ChannelRepository.groupRow ⟨id, hostId, title⟩ now) = id.toInt := by
      simp [idIn, ChannelRepository.groupRow, rowInt, rowInt64, find?_object, ofInt32, Value.asInt, Value.isNumber]
    rw [hnew] at hmem
    refine ⟨htracks, hmem, ?_⟩
    rw [hid]
    exact ChannelRepository.maxGroupId_above hroom
  · cases hi
    exact hdb.2

theorem idIn_messages (row : Row) : idIn .messages row = (MessageRepository.fromRow row).msg_id.toInt := rfl

/-- A message that is saved with the next id. -/
theorem extends_save (hroom : ∀ row ∈ rows, idIn .messages row < idLimit .messages)
    {message : Int64 → Int64 → StoredMessage} (hmessage : ∀ id now, (message id now).msg_id = id) :
    Extends env .messages rows (do
      let saved ← (do
        let id ← MessageRepository.nextMessageId env
        let now ← time env
        insert env .messages (MessageRepository.toRow (message id now))
        pure (message id now) : DbM StoredMessage)
      pure (some (.messages, saved.msg_id.toInt))) := by
  have hreads := reads_fixed env .messages rows
  refine Sat.bind (R := fun saved db => Tracks env True .messages (Covers .messages (rows.map (idIn .messages))) db ∧
    Fresh .messages rows saved.msg_id.toInt db) ?_ fun saved => sat_pure fun db hdb => ⟨hdb.1, fun i hi => ?_⟩
  · refine Sat.bind (R := fun id db => id = MessageRepository.maxMessageId rows + 1 ∧ Fixed .messages rows db)
      ((sat_thrown sat_queryAll_fixed).bind fun all => sat_pure fun db h => ⟨by rw [h.1], h.2⟩)
      fun id => Sat.of_fact fun hid => ?_
    refine (sat_thrown hreads.time).bind fun now => (sat_thrown (sat_insert_fixed _)).bind fun _ =>
      sat_pure fun db hdb => ?_
    obtain ⟨htracks, hmem⟩ := fixed_append hdb
    have hnew : idIn .messages (MessageRepository.toRow (message id now)) = id.toInt := by
      rw [idIn_messages, MessageRepository.fromRow_toRow, hmessage]
    rw [hnew] at hmem
    rw [hmessage]
    refine ⟨htracks, hmem, ?_⟩
    rw [hid]
    exact MessageRepository.maxMessageId_above hroom
  · cases hi
    exact hdb.2

/-- The fields that are assigned are not the id. -/
theorem idIn_put {row : Row} {key : String} {v : Value} (h : key ≠ "id" ∧ key ≠ "group_id" ∧ key ≠ "msg_id") :
    idIn name (row.put (lit key) v) = idIn name row := by
  obtain ⟨hid, hgroup, hmsg⟩ := h
  cases name <;> simp [idIn, rowInt, rowInt64, hid.symm, hgroup.symm, hmsg.symm]

/-- Each operation but the last loads a table, keeps its ids and hands out larger ones. -/
theorem extends_execute (op : Operation) (hop : op ≠ .reopen) (hname : op.table ∈ idTables)
    (hroom : ∀ row ∈ rows, idIn op.table row < idLimit op.table) :
    Extends env op.table rows (op.execute env) := by
  have hreads := fun start => reads_covers env op.table start
  cases op with
  | create password nickname avatarId => exact extends_create hroom password nickname avatarId
  | verifyPassword userId password =>
    refine extends_noId fun start => ((hreads start).query fun _ _ => .inr fun _ h => h).bind fun found => ?_
    cases found with
    | nil => exact guarded_pure false
    | cons row rest =>
      refine (guarded_ofExcept (.inr fun _ h => h)).bind fun _ => (guarded_pure _).ite <|
        (guarded_pure false).ite <| ((hreads start).bcryptHashPassword password 12).bind fun _ =>
        (guarded_update_covers _ fun row => ?_).bind fun _ => guarded_pure true
      rw [idIn_put (by decide), idIn_put (by decide)]
  | updateProfile userId nickname avatarId =>
    refine extends_noId fun start => guarded_update_covers _ fun row => ?_
    rw [idIn_put (by decide), idIn_put (by decide)]
  | setOnlineStatus userId online =>
    refine extends_noId fun start => (hreads start).time.bind fun _ =>
      (guarded_update_covers _ fun row => ?_).bind fun _ => guarded_pure ()
    dsimp only
    split
    · rw [idIn_put (by decide), idIn_put (by decide)]
    · rw [idIn_put (by decide)]
  | createGroup hostId title => exact extends_createGroup hroom hostId title
  | join userId groupId =>
    exact ((sat_thrown (guarded_join_fixed userId groupId))).bind fun _ => sat_pure fun _ h => ⟨h.tracks, nofun⟩
  | leave userId groupId => exact absurd (show TableName.group_members ∈ idTables from hname) (by decide)
  | savePrivate fromId toId content contentType delivered => exact extends_save hroom fun _ _ => rfl
  | saveGroup fromId groupId content contentType => exact extends_save hroom fun _ _ => rfl
  | edit msgId actorId content =>
    refine extends_noId fun start => (hreads start).time.bind fun _ => guarded_update_covers _ fun row => ?_
    rw [idIn_put (by decide), idIn_put (by decide), idIn_put (by decide)]
  | softDelete msgId actorId =>
    refine extends_noId fun start => (hreads start).time.bind fun _ => guarded_update_covers _ fun row => ?_
    rw [idIn_put (by decide), idIn_put (by decide), idIn_put (by decide)]
  | addReaction msgId actorId reaction =>
    refine extends_noId fun start => (guarded_pure false).ite <| guarded_update_covers _ fun row => ?_
    unfold MessageRepository.withReaction
    dsimp only
    split
    · rfl
    · rw [idIn_put (by decide)]
  | markRead msgId readerId =>
    refine extends_noId fun start => guarded_update_covers _ fun row => ?_
    rw [MessageRepository.readBy, idIn_put (by decide), idIn_put (by decide)]
  | markDelivered msgId =>
    exact extends_noId fun start => (guarded_update_covers _ fun row => idIn_put (by decide)).bind
      fun _ => guarded_pure ()
  | offlineForUser userId limit =>
    exact extends_noId fun start => ((hreads start).select _ limit).bind fun _ => (guarded_each fun _ =>
      (guarded_update_covers _ fun row => idIn_put (by decide)).bind fun _ => guarded_pure ()).bind
      fun _ => guarded_pure _
  | read name => exact extends_noId fun start => guarded_load_tracks (fun h => absurd trivial h) _
  | reopen => exact absurd rfl hop

/-- It loads its table first, or does nothing. -/
theorem loadsFirst_execute (op : Operation) (hop : op ≠ .reopen) :
    LoadsFirst env op.table (op.execute env) ∨ ∀ db, op.execute env db = ⟨.ok none, db, []⟩ := by
  cases op with
  | addReaction msgId actorId reaction =>
    rcases eq_or_ne reaction [] with rfl | hreaction
    · exact .inr fun db => rfl
    · refine .inl ?_
      show LoadsFirst env .messages (noId (MessageRepository.addReaction env msgId actorId reaction))
      rw [MessageRepository.addReaction, if_neg hreaction]
      exact (loadsFirst_load _).bind _
  | reopen => exact absurd rfl hop
  | create password nickname avatarId =>
    exact .inl ((((loadsFirst_load _).bind _).bind _).bind _)
  | verifyPassword userId password => exact .inl (((loadsFirst_load _).bind _).bind _)
  | updateProfile userId nickname avatarId => exact .inl ((loadsFirst_load _).bind _)
  | setOnlineStatus userId online => exact .inl ((LoadsFirst.time fun now => (loadsFirst_load _).bind _).bind _)
  | createGroup hostId title => exact .inl ((((loadsFirst_load _).bind _).bind _).bind _)
  | join userId groupId => exact .inl ((((loadsFirst_load _).bind _).bind _).bind _)
  | leave userId groupId => exact .inl ((loadsFirst_load _).bind _)
  | savePrivate fromId toId content contentType delivered =>
    exact .inl ((((loadsFirst_load _).bind _).bind _).bind _)
  | saveGroup fromId groupId content contentType =>
    exact .inl ((((loadsFirst_load _).bind _).bind _).bind _)
  | edit msgId actorId content => exact .inl ((LoadsFirst.time fun now => loadsFirst_load _).bind _)
  | softDelete msgId actorId => exact .inl ((LoadsFirst.time fun now => loadsFirst_load _).bind _)
  | markRead msgId readerId => exact .inl ((loadsFirst_load _).bind _)
  | markDelivered msgId => exact .inl (((loadsFirst_load _).bind _).bind _)
  | offlineForUser userId limit => exact .inl ((((loadsFirst_load _).bind _).bind _).bind _)
  | read name =>
    refine .inl ?_
    have hrun : (read name).execute env = loadTable env name >>= fun _ => pure none := rfl
    rw [hrun]
    exact loadsFirst_load _

/-- It leaves the other tables alone. -/
theorem spares_execute (op : Operation) (hop : op ≠ .reopen) (hname : name ∈ idTables) (h : op.table ≠ name) :
    Spares name (op.execute env) := by
  have hmembers : name ≠ .group_members := by rintro rfl; exact absurd hname (by decide)
  have hother := h.symm
  cases op with
  | create password nickname avatarId =>
    exact (UserRepository.spares_create hother _ _ _).bind fun _ => spares_pure _
  | verifyPassword userId password =>
    exact (UserRepository.spares_verifyPassword hother _ _).bind fun _ => spares_pure _
  | updateProfile userId nickname avatarId =>
    exact (UserRepository.spares_updateProfile hother _ _ _).bind fun _ => spares_pure _
  | setOnlineStatus userId online =>
    exact (UserRepository.spares_setOnlineStatus hother _ _).bind fun _ => spares_pure _
  | createGroup hostId title =>
    exact (ChannelRepository.spares_createGroup hother hmembers _ _).bind fun _ => spares_pure _
  | join userId groupId =>
    exact (ChannelRepository.spares_join hother hmembers _ _).bind fun _ => spares_pure _
  | leave userId groupId => exact (ChannelRepository.spares_leave hmembers _ _).bind fun _ => spares_pure _
  | savePrivate fromId toId content contentType delivered =>
    exact (MessageRepository.spares_savePrivate hother _ _ _ _ _).bind fun _ => spares_pure _
  | saveGroup fromId groupId content contentType =>
    exact (MessageRepository.spares_saveGroup hother _ _ _ _).bind fun _ => spares_pure _
  | edit msgId actorId content => exact (MessageRepository.spares_edit hother _ _ _).bind fun _ => spares_pure _
  | softDelete msgId actorId =>
    exact (MessageRepository.spares_softDelete hother _ _).bind fun _ => spares_pure _
  | addReaction msgId actorId reaction =>
    exact (MessageRepository.spares_addReaction hother _ _ _).bind fun _ => spares_pure _
  | markRead msgId readerId => exact (MessageRepository.spares_markRead hother _ _).bind fun _ => spares_pure _
  | markDelivered msgId => exact (MessageRepository.spares_markDelivered hother _).bind fun _ => spares_pure _
  | offlineForUser userId limit =>
    exact (MessageRepository.spares_offlineForUser hother _ _).bind fun _ => spares_pure _
  | read table => exact (spares_loadTable hother).bind fun _ => spares_pure _
  | reopen => exact absurd rfl hop

/-- An id that is handed out is one of the table of the operation. -/
theorem table_of_handed {op : Operation} {db : Database} {id : Int}
    (h : (op.execute env db).result = .ok (some (name, id))) : op.table = name := by
  cases op with
  | create password nickname avatarId =>
    obtain ⟨id, -, hsome⟩ := result_bind_eq_ok.mp h
    split at hsome <;> cases hsome
    rfl
  | createGroup hostId title =>
    obtain ⟨group, -, hsome⟩ := result_bind_eq_ok.mp h
    cases hsome
    rfl
  | savePrivate fromId toId content contentType delivered =>
    obtain ⟨message, -, hsome⟩ := result_bind_eq_ok.mp h
    cases hsome
    rfl
  | saveGroup fromId groupId content contentType =>
    obtain ⟨message, -, hsome⟩ := result_bind_eq_ok.mp h
    cases hsome
    rfl
  | _ =>
    obtain ⟨_, -, hnone⟩ := result_bind_eq_ok.mp h
    cases hnone

/-- No operation unsettles a table. -/
theorem settled_execute (op : Operation) {db : Database} (h : db.Settled name) :
    (op.execute env db).state.Settled name := by
  have hr := (writes_settled env name).toReads
  have hw := fun table => (writes_settled env name).to table
  have hkeeps : Guarded (Settled name) (Settled name) (op.execute env) := by
    cases op with
    | create password nickname avatarId =>
      exact ((hw .users).create hr password nickname avatarId).bind fun _ => guarded_pure _
    | verifyPassword userId password =>
      exact ((hw .users).verifyPassword hr userId password).bind fun _ => guarded_pure _
    | updateProfile userId nickname avatarId =>
      exact ((hw .users).updateProfile hr userId nickname avatarId).bind fun _ => guarded_pure _
    | setOnlineStatus userId online =>
      exact ((hw .users).setOnlineStatus hr userId online).bind fun _ => guarded_pure _
    | createGroup hostId title =>
      exact ((hw .groups).createGroup hr (hw .group_members) hostId title).bind fun _ => guarded_pure _
    | join userId groupId => exact ((hw .group_members).join hr userId groupId).bind fun _ => guarded_pure _
    | leave userId groupId => exact ((hw .group_members).leave userId groupId).bind fun _ => guarded_pure _
    | savePrivate fromId toId content contentType delivered =>
      exact ((hw .messages).savePrivate hr _ _ _ _ _).bind fun _ => guarded_pure _
    | saveGroup fromId groupId content contentType =>
      exact ((hw .messages).saveGroup hr _ _ _ _).bind fun _ => guarded_pure _
    | edit msgId actorId content => exact ((hw .messages).edit hr _ _ _).bind fun _ => guarded_pure _
    | softDelete msgId actorId => exact ((hw .messages).softDelete hr _ _).bind fun _ => guarded_pure _
    | addReaction msgId actorId reaction =>
      exact ((hw .messages).addReaction _ _ _).bind fun _ => guarded_pure _
    | markRead msgId readerId => exact ((hw .messages).markRead _ _).bind fun _ => guarded_pure _
    | markDelivered msgId => exact ((hw .messages).markDelivered _).bind fun _ => guarded_pure _
    | offlineForUser userId limit => exact ((hw .messages).offlineForUser hr _ _).bind fun _ => guarded_pure _
    | read table =>
      exact ((hr.load table).post fun _ _ h => h.1).bind fun _ => guarded_pure _
    | reopen =>
      have hclose : Guarded (Settled name) (Settled name) close := sat_modify fun db _ _ => ⟨_, rfl, nofun⟩
      exact (hclose.bind fun _ => guarded_startUp env).bind fun _ => guarded_pure _
  obtain ⟨-, hok, herr⟩ := hkeeps db h
  cases hr : (op.execute env db).result with
  | ok a => exact hok a hr
  | error e => exact herr e hr

end Tables

end Operation

namespace Database

namespace Issued

open Operation Cmd

variable {env : Env} {s t : Issued} {op : Operation} {name : TableName}

/-- What an operation does to a table: its ids stay, and an id that is handed
out is one of the table and larger than those before. -/
theorem grows_step (hname : name ∈ idTables) (hs : Sustained env s op) (hsettled : s.db.Settled name) :
    (∀ id ∈ ids name s.db, id ∈ ids name (op.execute env s.db).state) ∧
      ∀ id, (op.execute env s.db).result = .ok (some (name, id)) →
        id ∈ ids name (op.execute env s.db).state ∧ ∀ i ∈ ids name s.db, i < id := by
  have hsame : (op.execute env s.db).state.content name = s.db.content name →
      ∀ id ∈ ids name s.db, id ∈ ids name (op.execute env s.db).state := by
    intro hcontent id hid
    rwa [ids, hcontent]
  rcases eq_or_ne op .reopen with rfl | hop
  · refine ⟨hsame (hs.reopens rfl name hname), fun id hid => ?_⟩
    obtain ⟨_, -, hnone⟩ := result_bind_eq_ok.mp hid
    cases hnone
  rcases eq_or_ne op.table name with rfl | hother
  · rcases (loadsFirst_execute op hop : LoadsFirst env op.table _ ∨ _) with hfirst | hidle
    · have hload := hs.loads hname
      cases hr : (loadTable env op.table s.db).result with
      | error e =>
        obtain ⟨hresult, hcontent⟩ := hfirst.fails s.db e hr
        refine ⟨hsame (hcontent.trans hload), fun id hid => ?_⟩
        rw [hresult] at hid
        cases hid
      | ok a =>
        have hloaded := (@sat_loadTable env (fun _ => True) (fun _ => True) op.table s.db trivial).2.1 a hr
        obtain ⟨rows, hrows⟩ := Option.isSome_iff_exists.mp hloaded
        rw [content_of_cached hrows] at hload
        have hids : ids op.table s.db = rows.map (idIn op.table) := by rw [ids, hload]
        have hroom : ∀ row ∈ rows, idIn op.table row < idLimit op.table := fun row hrow =>
          hs.room op.table hname _ (by rw [hids]; exact List.mem_map_of_mem hrow)
        obtain ⟨-, hok, herr⟩ := extends_execute op hop hname hroom _ hrows
        rw [hfirst.loaded s.db hr, hids]
        refine ⟨?_, fun id hid => ?_⟩
        · cases hresult : (op.execute env (loadTable env op.table s.db).state).result with
          | ok handed => exact (hok handed hresult).1.rows
          | error e => exact (herr e hresult).rows
        · obtain ⟨hmem, habove⟩ := (hok _ hid).2 id rfl
          exact ⟨hmem, List.forall_mem_map.mpr habove⟩
    · rw [hidle]
      exact ⟨fun _ h => h, nofun⟩
  · refine ⟨hsame ((spares_execute op hop hname hother).content hsettled), fun id hid => ?_⟩
    exact absurd (table_of_handed hid) hother

/-- All tables are settled, and the ids that have been handed out are ids of
the table, in increasing order. -/
structure Ordered (s : Issued) : Prop where
  settled : ∀ name, s.db.Settled name
  known : ∀ name ∈ idTables, ∀ id ∈ s.handed name, id ∈ ids name s.db
  increasing : ∀ name ∈ idTables, (s.handed name).Pairwise (· < ·)

theorem handed_concat (db : Database) (log : List (TableName × Int)) (entry : TableName × Int) :
    handed name ⟨db, log ++ [entry]⟩ = handed name ⟨db, log⟩ ++ if entry.1 = name then [entry.2] else [] := by
  simp only [handed, List.filter_append, List.map_append]
  split
  · next h => simp [h]
  · next h => simp [h]

theorem Ordered.step (h : Ordered s) (hs : Sustained env s op) (ht : s.step env op = some t) : Ordered t := by
  have hsettled : ∀ name, (op.execute env s.db).state.Settled name := fun name => settled_execute op (h.settled name)
  have hkept : ∀ name ∈ idTables, ∀ id ∈ s.handed name, id ∈ ids name (op.execute env s.db).state :=
    fun name hname id hid => (grows_step hname hs (h.settled name)).1 id (h.known name hname id hid)
  unfold Issued.step at ht
  split at ht
  · next id hresult =>
    cases ht
    refine ⟨hsettled, fun name hname i hi => ?_, fun name hname => ?_⟩
    · rw [handed_concat] at hi
      rcases List.mem_append.mp hi with hold | hnew
      · exact hkept name hname i hold
      · split at hnew
        · next htable =>
          subst htable
          rw [List.mem_singleton.mp hnew]
          exact ((grows_step hname hs (h.settled id.1)).2 id.2 hresult).1
        · exact absurd hnew List.not_mem_nil
    · rw [handed_concat]
      split
      · next htable =>
        subst htable
        refine List.pairwise_append.mpr ⟨h.increasing _ hname, List.pairwise_singleton _ _, fun i hi j hj => ?_⟩
        rw [List.mem_singleton.mp hj]
        exact ((grows_step hname hs (h.settled id.1)).2 id.2 hresult).2 i (h.known _ hname i hi)
      · rw [List.append_nil]
        exact h.increasing name hname
  · cases ht
    exact ⟨hsettled, hkept, h.increasing⟩

/-- The ids that the repositories hand out are increasing, from any file, as
long as no id reaches its limit and a table that is loaded is unchanged. -/
theorem ids_increasing (env : Env) (file : Content) {ops : List Operation} {s : Issued}
    (hops : Along (Issued.step env) (Sustained env) ⟨(startUp env (connect file)).state, []⟩ ops)
    (hrun : run (Issued.step env) ⟨(startUp env (connect file)).state, []⟩ ops = some s) :
    ∀ name ∈ idTables, (s.handed name).Pairwise (· < ·) ∧ (s.handed name).Nodup := by
  have hstart : Ordered ⟨(startUp env (connect file)).state, []⟩ :=
    ⟨settled_startUp env file, fun _ _ => nofun, fun _ _ => List.Pairwise.nil⟩
  have hordered := throughout_of_along (J := fun _ => True) (fun _ _ _ _ _ => trivial)
    (fun _ _ _ _ h ht hs => h.step hs ht) trivial hstart hops
  refine fun name hname => ⟨(hordered.last hrun).increasing name hname, ?_⟩
  exact ((hordered.last hrun).increasing name hname).imp fun h => Int.ne_of_lt h

/-- While SQLite serves, a table that is loaded is the one that was there. -/
theorem sustained_of_serves (henv : env.Serves)
    (h : op ≠ .reopen ∧ ∀ name ∈ idTables, ∀ id ∈ ids name s.db, id < idLimit name) : Sustained env s op :=
  ⟨h.2, fun _ => (content_loadTable env _ s.db).2 (.inl henv), fun hop => absurd hop h.1⟩

/-- A user, a group with its host, and messages before and after an edit. -/
def busy : List Operation :=
  [.create (lit "p") (lit "a") 1, .create (lit "p") (lit "b") 1, .create (lit "p") (lit "a") 1,
    .createGroup 1000 (lit "g"), .savePrivate 1000 1001 (lit "hi") [] false, .edit 1 1000 (lit "ho"),
    .softDelete 1 1000, .leave 1000 2001, .createGroup 1001 (lit "g"), .saveGroup 1001 2002 (lit "hi") []]

theorem ids_increasing_busy :
    ∃ s, run (Issued.step .ideal) ⟨(startUp .ideal (connect .empty)).state, []⟩ busy = some s ∧
      s.log = [(.users, 1000), (.users, 1001), (.groups, 2001), (.messages, 1), (.groups, 2002), (.messages, 2)] ∧
      ∀ name ∈ idTables, (s.handed name).Pairwise (· < ·) ∧ (s.handed name).Nodup := by
  have hops : Along (Issued.step .ideal) (Sustained .ideal) ⟨(startUp .ideal (connect .empty)).state, []⟩ busy :=
    Along.imp (C := fun s op => op ≠ .reopen ∧ ∀ name ∈ idTables, ∀ id ∈ ids name s.db, id < idLimit name)
      (by decide +kernel) fun _ _ => sustained_of_serves fun _ => rfl
  have hlog : (run (Issued.step .ideal) ⟨(startUp .ideal (connect .empty)).state, []⟩ busy).map (·.log) =
      some [(.users, 1000), (.users, 1001), (.groups, 2001), (.messages, 1), (.groups, 2002), (.messages, 2)] := by
    decide +kernel
  obtain ⟨s, hs, hlog⟩ := Option.map_eq_some_iff.mp hlog
  exact ⟨s, hs, hlog, ids_increasing .ideal .empty hops hs⟩

end Issued

end Database

end LanChat
