import LanChat.Db.Settled
import LanChat.Db.Unchanged
import LanChat.Db.UserLists

/-!
# What a refused operation leaves

The operations of the repositories that answer whether they have done something.
An operation that answers no has changed nothing. For those on a JSON table, which
write the whole table either way, this needs a SQLite that serves.
-/

namespace LanChat

open Lib Json Database

/-- If the operation answers no, the database is still as it was. -/
def CleanlyRefused (db : Database) (c : DbM Bool) : Prop :=
  Cmd.Sat (Unchanged db) c (fun ok db' => ok = false → Unchanged db db') (fun _ _ => True) fun _ => True

section Rules

variable {env : Env} {db : Database} {α : Type}

theorem Database.Guarded.sat {F : Database → Prop} {c : DbM α} (h : Guarded F F c) :
    Cmd.Sat F c (fun _ => F) (fun _ _ => True) fun _ => True :=
  h.weaken (fun _ h => h) (fun _ _ h => h) (fun _ _ _ => trivial) fun _ h => h

theorem cleanlyRefused_pure (ok : Bool) : CleanlyRefused db (pure ok) := Cmd.sat_pure fun _ h _ => h

theorem CleanlyRefused.after {c : DbM α} {f : α → DbM Bool} (hc : Guarded (Unchanged db) (Unchanged db) c)
    (hf : ∀ a, CleanlyRefused db (f a)) : CleanlyRefused db (c >>= f) :=
  Cmd.Sat.bind hc.sat hf

theorem CleanlyRefused.ite {b : Prop} [Decidable b] {c d : DbM Bool} (hc : CleanlyRefused db c)
    (hd : CleanlyRefused db d) : CleanlyRefused db (if b then c else d) :=
  Cmd.sat_ite (fun _ => hc) fun _ => hd

theorem CleanlyRefused.andAlso {b : Prop} [Decidable b] {c : DbM Bool} (hc : CleanlyRefused db c) :
    CleanlyRefused db (Cmd.andAlso b c) :=
  hc.ite (cleanlyRefused_pure false)

/-- An operation that never answers no. -/
theorem cleanlyRefused_of_true {c : DbM Bool} (h : ∀ db', (c db').result ≠ .ok false) : CleanlyRefused db c :=
  fun db' _ => ⟨fun _ _ => trivial, fun _ hok hno => (h db' (hno ▸ hok)).elim, fun _ _ => trivial⟩

theorem CleanlyRefused.unchanged {c : DbM Bool} (h : CleanlyRefused db c) (hno : (c db).result = .ok false) :
    Unchanged db (c db).state :=
  (h db (.refl db)).2.1 false hno rfl

theorem unchanged_andAlso {b : Prop} [Decidable b] {c : DbM Bool}
    (h : (c db).result = .ok false → Unchanged db (c db).state) (hno : (Cmd.andAlso b c db).result = .ok false) :
    Unchanged db (Cmd.andAlso b c db).state := by
  unfold Cmd.andAlso at hno ⊢
  split
  · next hb =>
    rw [if_pos hb] at hno
    exact h hno
  · exact .refl db

end Rules

/-! ## Groups -/

theorem ChannelRepository.cleanlyRefused_join {env : Env} {db : Database} (userId groupId : Int32) :
    CleanlyRefused db (join env userId groupId) := by
  have hr := reads_unchanged env db
  refine .after (hr.groupExists groupId) fun _ => (cleanlyRefused_pure false).ite <| .after (hr.queryOk _ _) fun _ =>
    (cleanlyRefused_pure true).ite <| cleanlyRefused_of_true fun db' hno => ?_
  obtain ⟨_, -, hno⟩ := Cmd.result_bind_eq_ok.mp hno
  obtain ⟨_, -, hno⟩ := Cmd.result_bind_eq_ok.mp hno
  cases hno

/-! ## Friendships -/

namespace FriendRepository

variable {env : Env} {db : Database}

/-- A statement that selects no row changes nothing. -/
theorem write_same {change : Content → Option Content} {s s' : Sqlite} (h : Sqlite.write change s = some s')
    (hsame : ∀ c, change s.view = some c → c = s.view) : s' = s := by
  obtain ⟨file, _ | t⟩ := s
  · obtain ⟨c, hc, rfl⟩ := Option.map_eq_some_iff.mp h
    rw [hsame c hc]
    rfl
  · obtain ⟨c, hc, rfl⟩ := Option.map_eq_some_iff.mp h
    rw [hsame c hc]
    rfl

/-- A prepared statement and its step, when `changes` says whether it selects a row. -/
theorem cleanlyRefused_step (change : Content → Option Content) (changes : Content → Bool)
    (hsame : ∀ c c', changes c = false → change c = some c' → c' = c) :
    CleanlyRefused db (do
      let hit ← Cmd.asks fun db => changes db.sqlite.view
      let stepped ← exec env (Sqlite.write change)
      pure (stepped && hit)) := by
  refine Cmd.Sat.bind (R := fun hit db' => hit = changes db'.sqlite.view ∧ Unchanged db db')
    (Cmd.sat_asks fun _ h => ⟨rfl, h⟩) fun hit db' h => ?_
  obtain ⟨rfl, hdb⟩ := h
  obtain ⟨s, hs, hrun⟩ | hrun := @exec_cases env (Sqlite.write change) db'
  · rw [Cmd.bind_of_run _ hrun]
    refine ⟨nofun, fun ok hok hno => ⟨?_, hdb.tables⟩, nofun⟩
    cases hok
    rw [Bool.true_and] at hno
    exact (write_same hs fun c hc => hsame _ c hno hc).trans hdb.sqlite
  · rw [Cmd.bind_of_run _ hrun]
    exact ⟨nofun, fun _ _ _ => ⟨hdb.sqlite, hdb.tables⟩, nofun⟩

theorem cleanlyRefused_updateWhere (p : FriendshipRow → Bool) (u : FriendshipRow → FriendshipRow) :
    CleanlyRefused db (updateWhere env p u) := by
  refine .after (reads_unchanged env db).prepareFriendships fun _ => (cleanlyRefused_pure false).ite ?_
  refine cleanlyRefused_step _ (fun c => (c.friendships.getD []).any p) fun c c' hnone hc => ?_
  obtain ⟨rows, hrows, rfl⟩ := Option.map_eq_some_iff.mp hc
  have hself : (rows.map fun r => if p r then u r else r) = rows := by
    rw [hrows, Option.getD_some] at hnone
    refine (List.map_congr_left fun r hr => ?_).trans rows.map_id
    rw [if_neg (by simpa using List.any_eq_false.mp hnone r hr)]
    rfl
  rw [hself, ← hrows]

theorem cleanlyRefused_removeFriendship (uidA uidB : Int32) : CleanlyRefused db (removeFriendship env uidA uidB) := by
  refine .after (reads_unchanged env db).prepareFriendships fun _ => (cleanlyRefused_pure false).ite ?_
  refine cleanlyRefused_step _ (fun c => (c.friendships.getD []).any (concerns uidA uidB)) fun c c' hnone hc => ?_
  obtain ⟨rows, hrows, rfl⟩ := Option.map_eq_some_iff.mp hc
  have hself : (rows.filter fun r => !concerns uidA uidB r) = rows := by
    rw [hrows, Option.getD_some] at hnone
    exact List.filter_eq_self.mpr fun r hr => by simpa using List.any_eq_false.mp hnone r hr
  rw [hself, ← hrows]

theorem cleanlyRefused_setStatus (fromUid toUid : Int32) (status : FriendshipStatus) :
    CleanlyRefused db (setStatus env fromUid toUid status) :=
  .after ((reads_unchanged env db).time.bind fun _ => guarded_pure _) fun _ => cleanlyRefused_updateWhere _ _

theorem cleanlyRefused_insertRequest (fromUid toUid : Int32) (requestMsg : Bytes) (at_ : Int32) :
    CleanlyRefused db (insertRequest env fromUid toUid requestMsg at_) := by
  refine .after (reads_unchanged env db).prepareFriendships fun _ => (cleanlyRefused_pure false).ite ?_
  intro db' hdb
  obtain ⟨s, -, hrun⟩ | hrun := @exec_cases env
    (Sqlite.write (Content.insertFriendship (pendingRow fromUid toUid requestMsg at_))) db'
  · rw [hrun]
    refine ⟨nofun, fun ok hok hno => ?_, nofun⟩
    cases hok
    cases hno
  · rw [hrun]
    exact ⟨nofun, fun _ _ _ => ⟨hdb.sqlite, hdb.tables⟩, nofun⟩

theorem cleanlyRefused_sendRequest (fromUid toUid : Int32) (requestMsg : Bytes) :
    CleanlyRefused db (sendRequest env fromUid toUid requestMsg) := by
  have hr := reads_unchanged env db
  refine (cleanlyRefused_pure false).ite <| .after (hr.time.bind fun _ => guarded_pure _) fun at_ =>
    .after hr.prepareFriendships fun _ => (cleanlyRefused_pure false).ite <| .after (hr.selectOne _) fun existing => ?_
  have hinsert := @cleanlyRefused_insertRequest env db fromUid toUid requestMsg at_
  cases existing with
  | none => exact hinsert
  | some row =>
    dsimp only
    cases row.status with
    | accepted => exact cleanlyRefused_pure false
    | rejected => exact (cleanlyRefused_pure false).ite hinsert
    | pending => exact (cleanlyRefused_pure false).ite (cleanlyRefused_updateWhere _ _)

end FriendRepository

/-! ## Messages and users -/

section Tables

variable {env : Env} {db : Database} {name : TableName} {rows : TableName → RowList}

/-- An update that hits no row. -/
theorem unchanged_update (henv : env.Serves) (h : db.Holds rows) {p : Row → Except Exn Bool} {q : Row → Bool}
    (hp : ∀ row ∈ rows name, p row = .ok (q row)) (u : Row → Row) (hno : (update env name p u db).result = .ok false) :
    Unchanged db (update env name p u db).state := by
  obtain ⟨calls, hrun⟩ := run_update henv h hp u
  rw [hrun, Except.ok.injEq] at hno
  rw [hrun]
  have hself : ((rows name).map fun row => if q row then u row else row) = rows name := by
    refine (List.map_congr_left fun row hrow => ?_).trans (rows name).map_id
    rw [if_neg (by simpa using List.any_eq_false.mp hno row hrow)]
    rfl
  rw [hself]
  exact (h.unchangedIff_store (fun row hrow => (h.shape name row hrow).plain) calls).same rfl

/-- The clock has been read before the update. -/
theorem unchanged_update_later (henv : env.Serves) (h : db.Holds rows) {p : Int64 → Row → Except Exn Bool}
    {q : Int64 → Row → Bool} (hp : ∀ now, ∀ row ∈ rows name, p now row = .ok (q now row)) (u : Int64 → Row → Row)
    (hno : ((Database.time env >>= fun now => update env name (p now) (u now)) db).result = .ok false) :
    Unchanged db ((Database.time env >>= fun now => update env name (p now) (u now)) db).state := by
  have htime : Unchanged db { db with readings := db.readings + 1 } := ⟨rfl, fun _ _ h => h⟩
  have hread : ({ db with readings := db.readings + 1 } : Database).Holds rows := h.of_eq rfl rfl
  rw [Cmd.bind_of_run _ (run_time db)] at hno ⊢
  exact htime.trans (unchanged_update henv hread (hp _) _ hno)

end Tables

namespace MessageRepository

variable {env : Env} {db : Database} {rows : TableName → RowList} (henv : env.Serves) (h : db.Holds rows)

include henv h

theorem unchanged_edit (msgId : Int64) (actorId : Int32) (content : Bytes)
    (hno : (edit env msgId actorId content db).result = .ok false) :
    Unchanged db (edit env msgId actorId content db).state :=
  unchanged_update_later henv h (fun _ _ _ => rfl) _ hno

theorem unchanged_softDelete (msgId : Int64) (actorId : Int32)
    (hno : (softDelete env msgId actorId db).result = .ok false) :
    Unchanged db (softDelete env msgId actorId db).state :=
  unchanged_update_later henv h (fun _ _ _ => rfl) _ hno

theorem unchanged_addReaction (msgId : Int64) (actorId : Int32) (reaction : Bytes)
    (hno : (addReaction env msgId actorId reaction db).result = .ok false) :
    Unchanged db (addReaction env msgId actorId reaction db).state := by
  unfold addReaction at hno ⊢
  split
  · exact .refl db
  · next hne =>
    rw [if_neg hne] at hno
    exact unchanged_update henv h (fun _ _ => rfl) _ hno

theorem unchanged_markRead (msgId : Int64) (readerId : Int32)
    (hno : (markRead env msgId readerId db).result = .ok false) : Unchanged db (markRead env msgId readerId db).state :=
  unchanged_update henv h (fun _ _ => rfl) _ hno

end MessageRepository

namespace UserRepository

variable {env : Env} {db : Database} {rows : TableName → RowList}

/-! ### Passwords -/

/-- The user is in the table that is in memory. -/
def HasUser (id : Int32) (db : Database) : Prop :=
  ∃ all, db.tables .users = some all ∧ ∃ row ∈ all, hasId id row = .ok true

theorem mem_of_holds {p : Row → Except Exn Bool} {all found : RowList} (h : filterRows p all = .ok found) {row : Row}
    (hrow : row ∈ all) (hp : p row = .ok true) : row ∈ found := by
  induction all generalizing found with
  | nil => cases hrow
  | cons head rest ih =>
    obtain ⟨keep, hkeep, h⟩ := bind_eq_ok h
    obtain ⟨kept, hrest, h⟩ := bind_eq_ok h
    cases h
    rcases List.mem_cons.mp hrow with rfl | hrow
    · cases hkeep.symm.trans hp
      exact List.mem_cons_self
    · cases keep with
      | false => exact ih hrest hrow
      | true => exact List.mem_cons_of_mem _ (ih hrest hrow)

theorem exists_updateRows {p : Row → Except Exn Bool} {u : Row → Row} (hu : ∀ row, p (u row) = p row) {all : RowList}
    (h : ∃ row ∈ all, p row = .ok true) : ∃ row ∈ (updateRows p u all).1, p row = .ok true := by
  induction all with
  | nil => exact h
  | cons head rest ih =>
    unfold updateRows
    cases hhead : p head with
    | error e => exact h
    | ok hit =>
      obtain ⟨row, hrow, hp⟩ := h
      dsimp only
      rcases List.mem_cons.mp hrow with rfl | hrow
      · refine ⟨_, List.mem_cons_self, ?_⟩
        split
        · exact (hu _).trans hp
        · exact hp
      · obtain ⟨found, hfound, hp⟩ := ih ⟨row, hrow, hp⟩
        exact ⟨found, List.mem_cons_of_mem _ hfound, hp⟩

theorem sat_update_hasUser {id : Int32} {u : Row → Row} (hu : ∀ row, hasId id (u row) = hasId id row) :
    Cmd.Sat (HasUser id) (update env .users (hasId id) u) (fun _ => HasUser id) (fun _ _ => True) fun _ => True := by
  rintro db ⟨all, hall, hrow⟩
  unfold update Database.rows
  rw [Cmd.bind_of_run _ (loadTable_of_cached hall), Cmd.bind_of_run _ (Cmd.asks_apply ..)]
  simp only [hall, Option.getD_some]
  rw [Cmd.bind_of_run _ (run_setTable ..)]
  have hupdated : HasUser id { db with
      tables := Function.update db.tables .users (some (updateRows (hasId id) u all).1) } :=
    ⟨_, by simp, exists_updateRows hu hrow⟩
  refine Cmd.Sat.bind (R := fun _ => HasUser id) (P := HasUser id) (Q := fun _ => HasUser id) (E := fun _ _ => True) (W := fun _ => True)
    (Cmd.sat_ofExcept (fun _ _ _ h => h) fun _ _ _ _ => trivial) (fun hit => ?_) _ hupdated
  refine Cmd.Sat.bind (R := fun _ => HasUser id) (fun db' ⟨all', hall', hrow'⟩ => ⟨nofun, fun _ _ => ?_, fun _ _ => trivial⟩)
    fun _ => Cmd.sat_pure fun _ h => h
  exact ⟨all', (congrFun (leaves_tables_saveTable db') .users).trans hall', hrow'⟩

/-- Only a user that is there is verified. -/
theorem sat_verifyPassword_hasUser (id : Int32) (password : Bytes) :
    Cmd.Sat (fun _ => True) (verifyPassword env id password) (fun ok db => ok = true → HasUser id db) (fun _ _ => True)
      fun _ => True := by
  have hquery : Cmd.Sat (fun _ => True) (query env .users (hasId id)) (fun found db => ∀ row ∈ found, HasUser id db)
      (fun _ _ => True) fun _ => True := by
    refine Cmd.Sat.bind (R := fun _ => InMemory .users) sat_loadTable fun _ =>
      Cmd.Sat.bind (R := fun all db => db.tables .users = some all) (Cmd.sat_asks fun db hdb => ?_) fun all =>
        Cmd.sat_ofExcept (fun found db hfound hdb row hrow => ?_) fun _ _ _ _ => trivial
    · obtain ⟨all, hall⟩ := Option.isSome_iff_exists.mp hdb
      rw [hall, Option.getD_some]
    · exact ⟨all, hdb, row, mem_filterRows hfound hrow, FriendRepository.holds_of_filterRows hfound hrow⟩
  refine hquery.bind fun found => ?_
  cases found with
  | nil => exact Cmd.sat_pure fun _ _ h => nomatch h
  | cons row rest =>
    refine Cmd.Sat.bind (R := fun _ => HasUser id) (Cmd.sat_ofExcept (fun _ _ _ h => h row List.mem_cons_self)
      fun _ _ _ _ => trivial) fun hash => Cmd.sat_ite (fun _ => Cmd.sat_pure fun _ h _ => h) fun _ =>
      Cmd.sat_ite (fun _ => Cmd.sat_pure fun _ _ h => nomatch h) fun _ => ?_
    refine Cmd.Sat.bind (R := fun _ => HasUser id) (fun db ⟨all, hall, hrow⟩ => ⟨nofun, fun _ _ => ?_, fun _ _ => trivial⟩)
      fun upgraded => Cmd.Sat.bind (R := fun _ => HasUser id) (sat_update_hasUser fun row => ?_) fun _ =>
        Cmd.sat_pure fun _ h _ => h
    · exact ⟨all, ((spares_hashPassword password 12).tables db).trans hall, hrow⟩
    · have hid : ∀ row : Row, OrdMap.find? ((row.put (lit "password_hash") (.str upgraded)).put (lit "password_version") (.int 1))
          (lit "id") = row.find? (lit "id") := fun row => by
        rw [OrdMap.find?_put_of_ne (by simp [lit_inj]), OrdMap.find?_put_of_ne (by simp [lit_inj])]
      simp only [hasId, atField, hid]

/-- A user that is there is found, unless the row cannot be read. -/
theorem findById_of_hasUser {id : Int32} (h : HasUser id db) : (findById env id db).result ≠ .ok none := by
  obtain ⟨all, hall, row, hrow, hid⟩ := h
  intro hnone
  obtain ⟨found, hfound, hnone⟩ := Cmd.result_bind_eq_ok.mp hnone
  unfold query Database.rows at hfound
  rw [Cmd.bind_of_run _ (loadTable_of_cached hall), Cmd.bind_of_run _ (Cmd.asks_apply ..)] at hfound
  simp only [hall, Option.getD_some, Cmd.ofExcept_apply] at hfound
  cases found with
  | nil => exact List.not_mem_nil (mem_of_holds hfound hrow hid)
  | cons row rest =>
    obtain ⟨user, -, hnone⟩ := Cmd.result_bind_eq_ok.mp hnone
    cases hnone

/-- A password that is refused has not been upgraded. -/
theorem cleanlyRefused_verifyPassword (id : Int32) (password : Bytes) :
    CleanlyRefused db (verifyPassword env id password) := by
  have hr := reads_unchanged env db
  refine .after (hr.query fun _ _ => .inr fun _ h => h) fun found => ?_
  cases found with
  | nil => exact cleanlyRefused_pure false
  | cons row rest =>
    refine .after (guarded_ofExcept (.inr fun _ h => h)) fun hash => (cleanlyRefused_pure _).ite <|
      (cleanlyRefused_pure false).ite <| cleanlyRefused_of_true fun db' hno => ?_
    obtain ⟨_, -, hno⟩ := Cmd.result_bind_eq_ok.mp hno
    obtain ⟨_, -, hno⟩ := Cmd.result_bind_eq_ok.mp hno
    cases hno

section Store

variable (henv : env.Serves) (h : db.Holds rows)

include henv h

theorem unchanged_updateProfile (userId : Int32) (nickname : Bytes) (avatarId : Int32)
    (hno : (updateProfile env userId nickname avatarId db).result = .ok false) :
    Unchanged db (updateProfile env userId nickname avatarId db).state :=
  unchanged_update henv h (fun _ hrow => FriendRepository.hasId_of_legible (fun row hrow => (h.shape .users row hrow).user rfl)
    hrow userId) _ hno

/-! ### Registrations -/

/-- A row of a user with the nickname. -/
def isNamed (nickname : Bytes) (row : Row) : Bool := (row.find? (lit "nickname")).any fun v => v.asString = nickname

/-- The nickname is free, and the ids have run over. -/
def RunsOver (users : RowList) (nickname : Bytes) : Prop :=
  (∀ row ∈ users, isNamed nickname row = false) ∧ ∃ id, nextUserId 1000 users = .ok id ∧ id ≤ 0

omit henv h in
theorem run_bcryptHashPassword (password : Bytes) (cost : Nat) (db : Database) :
    ∃ hash, bcryptHashPassword env password cost db = ⟨.ok hash, { db with draws := db.draws + 1 }, []⟩ := by
  have hdraw : Database.randomBytes env db = ⟨.ok (env.entropy db.draws), { db with draws := db.draws + 1 }, []⟩ := rfl
  unfold bcryptHashPassword
  rw [Cmd.bind_of_run _ hdraw]
  cases env.crypt_gensalt_rn (lit "$2b$") cost (env.entropy db.draws) with
  | none => exact ⟨_, rfl⟩
  | some salt =>
    dsimp only
    cases env.crypt_rn (cstr password) (cstr salt) with
    | none => exact ⟨_, rfl⟩
    | some output => exact ⟨_, rfl⟩

/-- Looking for a nickname loads the users. -/
theorem findByNickname_eq (nickname : Bytes) {found : Option UserInfo}
    (hfound : (findByNickname env nickname db).result = .ok found) :
    (found = none ↔ ∀ row ∈ rows .users, isNamed nickname row = false) ∧
      ∃ calls, (findByNickname env nickname db).state = db.withTable .users (rows .users) calls := by
  have hnamed : ∀ row ∈ rows .users, (atField row "nickname").map (fun v => decide (v.asString = nickname)) =
      .ok (isNamed nickname row) := by
    intro row hrow
    obtain ⟨v, hv⟩ := Option.isSome_iff_exists.mp ((h.shape .users row hrow).user rfl "nickname" (by decide))
    simp [atField, isNamed, hv, Except.map]
  obtain ⟨calls, hquery⟩ := run_query henv h hnamed
  unfold findByNickname at hfound ⊢
  rw [Cmd.bind_of_run _ hquery] at hfound ⊢
  cases hfilter : (rows .users).filter (isNamed nickname) with
  | nil =>
    rw [hfilter] at hfound
    cases hfound
    exact ⟨iff_of_true rfl (by simpa [List.filter_eq_nil_iff] using hfilter), calls, rfl⟩
  | cons row rest =>
    rw [hfilter] at hfound
    obtain ⟨user, huser, hfound⟩ := Cmd.result_bind_eq_ok.mp hfound
    cases hfound
    refine ⟨iff_of_false (fun h => by cases h) fun hnone => ?_, calls, ?_⟩
    · have hrow : row ∈ (rows .users).filter (isNamed nickname) := hfilter ▸ List.mem_cons_self
      obtain ⟨hmem, hname⟩ := List.mem_filter.mp hrow
      rw [hnone row hmem] at hname
      cases hname
    · dsimp only
      rw [Cmd.bind_ok _ huser]
      rfl

/-- A new user is a change. -/
theorem run_newUser (password nickname : Bytes) (avatarId id : Int32) :
    ∃ db', (do
      let hash ← bcryptHashPassword env password 12
      let now ← time env
      Database.insert env .users (newUserRow id hash nickname avatarId now)
      pure id : DbM Int32) db = ⟨.ok id, db', []⟩ ∧ UnchangedIff False db db' := by
  obtain ⟨hash, hhash⟩ := @run_bcryptHashPassword env password 12 db
  have hread : ({ db with draws := db.draws + 1, readings := db.readings + 1 } : Database).Holds rows := h.of_eq rfl rfl
  have hnew := newUserRow_shape id hash nickname avatarId (env.time db.readings)
  obtain ⟨calls, hinsert⟩ := run_insert henv hread .users (newUserRow id hash nickname avatarId (env.time db.readings))
  have hdrawn : Unchanged db { db with draws := db.draws + 1, readings := db.readings + 1 } := ⟨rfl, fun _ _ h => h⟩
  rw [Cmd.bind_of_run _ hhash, Cmd.bind_of_run _ (run_time _), Cmd.bind_of_run _ hinsert]
  refine ⟨_, rfl, ((hread.unchangedIff_store (fun row hrow => ?_) calls).congr ?_).before hdrawn⟩
  · rcases List.mem_append.mp hrow with hrow | hrow
    · exact (h.shape .users row hrow).plain
    · exact List.mem_singleton.mp hrow ▸ hnew.plain
  · simp

/-- A registration that is refused has stored the user exactly if the ids have run over. -/
theorem unchanged_create_iff (password nickname : Bytes) (avatarId : Int32) {id : Int32}
    (hid : (create env password nickname avatarId db).result = .ok id) (hno : id ≤ 0) :
    Unchanged db (create env password nickname avatarId db).state ↔ ¬RunsOver (rows .users) nickname := by
  obtain ⟨existing, hexisting, hid⟩ := Cmd.result_bind_eq_ok.mp hid
  obtain ⟨hfree, calls, hstate⟩ := findByNickname_eq henv h nickname hexisting
  have hload := h.unchanged_withTable .users calls
  have h₁ := h.load .users calls
  unfold create
  rw [Cmd.bind_ok _ hexisting]
  rw [hstate] at hid ⊢
  cases existing with
  | some user =>
    exact iff_of_true hload fun hover => nomatch hfree.mpr hover.1
  | none =>
    obtain ⟨calls', hall⟩ := run_queryAll henv h₁ .users
    have hload' := hload.trans (h₁.unchanged_withTable .users calls')
    have h₂ := h₁.load .users calls'
    dsimp only at hid ⊢
    rw [Cmd.bind_of_run _ hall] at hid ⊢
    obtain ⟨next, hnext, hid⟩ := Cmd.result_bind_eq_ok.mp hid
    rw [Cmd.bind_ok _ hnext]
    obtain ⟨db', hrun, hnew⟩ := run_newUser henv h₂ password nickname avatarId next
    rw [Cmd.ofExcept_apply] at hid ⊢
    rw [hrun] at hid ⊢
    cases hid
    have hover : RunsOver (rows .users) nickname := ⟨hfree.mp rfl, id, hnext, hno⟩
    exact iff_of_false (fun hu => hnew.shown (hu.sqlite.trans hload'.sqlite.symm)) fun hfits => hfits hover

end Store

end UserRepository

end LanChat
