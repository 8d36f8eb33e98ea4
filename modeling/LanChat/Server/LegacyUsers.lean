import LanChat.Db.Refusals
import LanChat.Server.Nicknames

/-!
# What a legacy migration leaves

Each item of the file is checked against the table that the items before it have
extended. An item with all its fields so finds its nickname taken, or takes it:
the table grows by users with new nicknames (`Imported`), and a migration of the
same file that finds this table adds nobody (`migration_idempotent`).
-/

namespace LanChat

open Lib Json

namespace LegacyMigrator

open Database UserRepository FriendRepository Cmd

/-- The item is an object. -/
def isObject : Value → Bool
  | .obj _ => true
  | _ => false

/-- The file holds a list. -/
def isArray : Value → Bool
  | .arr _ => true
  | _ => false

/-- The nickname of an item that has all its fields. -/
def legacyNickname : Value → Option Bytes
  | .obj obj =>
    match OrdMap.find? obj (lit "id"), OrdMap.find? obj (lit "password"), OrdMap.find? obj (lit "nickname") with
    | some _, some _, some nickname => some nickname.asString
    | _, _, _ => none
  | _ => none

/-- Some user has the nickname. -/
def Taken (nickname : Bytes) (rows : RowList) : Prop := ∃ row ∈ rows, nicknameOf row = some nickname

/-- The users that a migration adds. -/
structure Imported (users : RowList) (items : List Value) (added : RowList) : Prop where
  named : ∀ item ∈ items, ∀ nickname, legacyNickname item = some nickname → Taken nickname (users ++ added)
  fresh : ∀ row ∈ added, ∃ nickname, nicknameOf row = some nickname ∧ ¬Taken nickname users
  distinct : Distinct added

/-- One round of the loop: the item is counted if it is an object. If it has all
its fields and its nickname is not taken, a user is added. -/
structure Round (item : Value) (report report' : MigrationReport) (rows rows' : RowList) : Prop where
  counted : report'.users_migrated + report'.users_skipped =
    report.users_migrated + report.users_skipped + (if isObject item then 1 else 0)
  added : (rows' = rows ∧ report'.users_migrated = report.users_migrated ∧
      ∀ nickname, legacyNickname item = some nickname → Taken nickname rows) ∨
    ∃ nickname row, legacyNickname item = some nickname ∧ ¬Taken nickname rows ∧
      nicknameOf row = some nickname ∧ Legible [row] ∧ rows' = rows ++ [row]

/-- The rounds of the loop, one for each item. -/
inductive Rounds : List Value → MigrationReport → MigrationReport → RowList → RowList → Prop where
  | nil {report : MigrationReport} {rows : RowList} : Rounds [] report report rows rows
  | cons {item : Value} {items : List Value} {report middle report' : MigrationReport} {rows rows₁ rows' : RowList}
    (h : Round item report middle rows rows₁) (hs : Rounds items middle report' rows₁ rows') :
    Rounds (item :: items) report report' rows rows'

section Rounds

variable {env : Env} {rows rows' users added : RowList} {nickname : Bytes} {item : Value} {items : List Value}
  {report report' : MigrationReport} {row : Row}

theorem legible_append (h : Legible rows) (h' : Legible rows') : Legible (rows ++ rows') :=
  List.forall_mem_append.mpr ⟨h, h'⟩

theorem Taken.append (h : Taken nickname rows) (rows' : RowList) : Taken nickname (rows ++ rows') := by
  obtain ⟨row, hrow, hname⟩ := h
  exact ⟨row, List.mem_append_left _ hrow, hname⟩

/-! ## The repository -/

/-- A nickname is found if it is taken. -/
theorem yields_findByNickname (hlegible : Legible rows) (nickname : Bytes) :
    Yields (Opens env .users rows) (findByNickname env nickname) fun found db =>
      (found.isSome ↔ Taken nickname rows) ∧ db.tables .users = some rows := by
  have hname : ∀ row ∈ rows, ((atField row "nickname").map fun v => decide (v.asString = nickname)) =
      .ok (decide (nicknameOf row = some nickname)) := by
    intro row hrow
    obtain ⟨v, hv⟩ := Option.isSome_iff_exists.mp (hlegible row hrow "nickname" (by decide))
    simp [atField, nicknameOf, hv, Except.map]
  refine (yields_scan hname).bind fun found => Sat.of_fact fun hfound => ?_
  cases found with
  | nil =>
    refine sat_pure fun db hdb => ⟨iff_of_false (by simp) ?_, hdb⟩
    rintro ⟨row, hrow, hp⟩
    exact List.filter_eq_nil_iff.mp hfound.symm row hrow (decide_eq_true hp)
  | cons row rest =>
    have hrow : row ∈ rows.filter fun row => nicknameOf row = some nickname := hfound ▸ List.mem_cons_self
    obtain ⟨hmem, hp⟩ := List.mem_filter.mp hrow
    obtain ⟨-, user, -, huser, -⟩ := userFromRow_of_legible hlegible hmem
    dsimp only
    rw [huser]
    exact Sat.bind (R := fun _ db => db.tables .users = some rows) (sat_ofExcept (fun _ _ _ hdb => hdb) fun _ _ h => by cases h)
      fun user => sat_pure fun db hdb => ⟨iff_of_true rfl ⟨row, hmem, of_decide_eq_true hp⟩, hdb⟩

theorem nextUserId_of_legible (hlegible : Legible rows) (maxId : Int32) : ∃ id, nextUserId maxId rows = .ok id := by
  induction rows generalizing maxId with
  | nil => exact ⟨maxId, rfl⟩
  | cons row rest ih =>
    obtain ⟨hrow, hrest⟩ := List.forall_mem_cons.mp hlegible
    obtain ⟨v, hv⟩ := Option.isSome_iff_exists.mp (hrow "id" (by decide))
    obtain ⟨id, hid⟩ := ih hrest (if maxId ≤ v.asInt.toInt32 then v.asInt.toInt32 + 1 else maxId)
    refine ⟨id, ?_⟩
    rw [nextUserId, atField, hv]
    exact hid

theorem legible_newUserRow (id : Int32) (hash : Bytes) (avatarId : Int32) (now : Int64) :
    Legible [newUserRow id hash nickname avatarId now] := by
  intro row hrow key hkey
  rw [List.mem_singleton.mp hrow]
  exact (newUserRow_shape id hash nickname avatarId now).user rfl key hkey

/-- A user with a nickname that is not taken is added. -/
theorem yields_create (hlegible : Legible rows) (hfree : ¬Taken nickname rows) (password : Bytes) (avatarId : Int32) :
    Yields (Opens env .users rows) (create env password nickname avatarId) fun _ db => ∃ row,
      nicknameOf row = some nickname ∧ Legible [row] ∧ db.tables .users = some (rows ++ [row]) := by
  obtain ⟨id, hid⟩ := nextUserId_of_legible hlegible 1000
  refine (yields_findByNickname hlegible nickname).bind fun existing => Sat.of_fact fun hfound => ?_
  cases existing with
  | some user => exact absurd (hfound.mp rfl) hfree
  | none =>
    have hall : Yields (fun db => db.tables .users = some rows) (queryAll env .users) fun all db =>
        all = rows ∧ db.tables .users = some rows :=
      yields_queryAll.pre fun _ h => .inl h
    refine hall.bind fun all => Sat.of_fact fun hrows => ?_
    subst hrows
    rw [hid]
    refine Sat.bind (R := fun next db => next = id ∧ db.tables .users = some all)
      (sat_ofExcept (fun next db hok hdb => by cases hok; exact ⟨rfl, hdb⟩) nofun) fun next => ?_
    refine Sat.bind (R := fun _ db => db.tables .users = some all) (fun db hdb => ?_) fun hash => ?_
    · obtain ⟨hash, hrun⟩ := @run_bcryptHashPassword env password 12 db
      rw [hrun]
      exact ⟨nofun, fun _ _ => hdb.2, nofun⟩
    · have htime : Yields (fun db => db.tables .users = some all) (time env) fun _ db => db.tables .users = some all :=
        fun db hdb => ⟨nofun, fun _ _ => hdb, nofun⟩
      refine htime.bind fun now => ?_
      refine Sat.bind ((yields_insert (newUserRow next hash nickname avatarId now)).pre fun _ h => .inl h) fun _ =>
        sat_pure fun db hdb => ⟨_, ?_, legible_newUserRow next hash avatarId now, hdb⟩
      simp [nicknameOf, newUserRow, find?_object]

/-! ## One item -/

theorem yields_migrateItem (hlegible : Legible rows) (item : Value) (report : MigrationReport) :
    Yields (Opens env .users rows) (migrateItem env item report) fun report' db =>
      ∃ rows', Opens env .users rows' db ∧ Round item report report' rows rows' := by
  have hskip : ∀ {report' : MigrationReport}, report'.users_migrated = report.users_migrated →
      report'.users_skipped = report.users_skipped + (if isObject item then 1 else 0) →
      (∀ nickname, legacyNickname item = some nickname → Taken nickname rows) →
      Round item report report' rows rows := fun hmigrated hskipped htaken =>
    ⟨by rw [hmigrated, hskipped, Int32.add_assoc], .inl ⟨rfl, hmigrated, htaken⟩⟩
  cases item with
  | obj obj =>
    unfold migrateItem
    dsimp only
    split
    · next id password name hid hpassword hname =>
      have hnickname : legacyNickname (.obj obj) = some name.asString := by
        simp only [legacyNickname, hid, hpassword, hname]
      refine (yields_findByNickname hlegible name.asString).bind fun existing => Sat.of_fact fun hfound => ?_
      cases existing with
      | some user =>
        refine sat_pure fun db hdb => ⟨rows, .inl hdb, hskip rfl rfl fun nickname h => ?_⟩
        rw [hnickname] at h
        cases h
        exact hfound.mp rfl
      | none =>
        have hfree : ¬Taken name.asString rows := fun h => Bool.false_ne_true (hfound.mpr h)
        refine Sat.bind ((yields_create hlegible hfree password.asString (headIdOf obj)).pre fun _ h => .inl h)
          fun newId => ?_
        split
        · refine sat_pure fun db hdb => ?_
          obtain ⟨row, hrow, hfields, hmem⟩ := hdb
          exact ⟨_, .inl hmem, (Int32.add_assoc ..).symm, .inr ⟨_, row, hnickname, hfree, hrow, hfields, rfl⟩⟩
        · refine sat_pure fun db hdb => ?_
          obtain ⟨row, hrow, hfields, hmem⟩ := hdb
          have hcount : report.users_migrated + 1 + report.users_skipped =
              report.users_migrated + report.users_skipped + 1 := by
            rw [Int32.add_assoc, Int32.add_comm 1, Int32.add_assoc]
          exact ⟨_, .inl hmem, hcount, .inr ⟨_, row, hnickname, hfree, hrow, hfields, rfl⟩⟩
    · next hno =>
      refine sat_pure fun db hdb => ⟨rows, hdb, hskip rfl rfl fun nickname h => ?_⟩
      unfold legacyNickname at h
      dsimp only at h
      split at h
      · next id password name hid hpassword hname => exact absurd hname (hno _ _ _ hid hpassword)
      · cases h
  | _ => exact sat_pure fun db hdb => ⟨rows, hdb, hskip rfl (Int32.add_zero _).symm fun _ h => by cases h⟩

/-! ## All items -/

theorem Round.legible (h : Round item report report' rows rows') (hlegible : Legible rows) : Legible rows' := by
  rcases h.added with ⟨rfl, -⟩ | ⟨_, row, -, -, -, hrow, rfl⟩
  · exact hlegible
  · exact legible_append hlegible hrow

theorem yields_migrateItems (hlegible : Legible rows) (items : List Value) (report : MigrationReport) :
    Yields (Opens env .users rows) (migrateItems env items report) fun report' db =>
      ∃ rows', Opens env .users rows' db ∧ Rounds items report report' rows rows' := by
  induction items generalizing rows report with
  | nil => exact sat_pure fun db hdb => ⟨rows, hdb, .nil⟩
  | cons item items ih =>
    refine (yields_migrateItem hlegible item report).bind fun middle db hdb => ?_
    obtain ⟨rows₁, hopens, hround⟩ := hdb
    have hrest : Yields (Opens env .users rows₁) (migrateItems env items middle) fun report' db =>
        ∃ rows', Opens env .users rows' db ∧ Rounds (item :: items) report report' rows rows' :=
      (ih (hround.legible hlegible) middle).post fun report' db ⟨rows', hopens', hrounds⟩ =>
        ⟨rows', hopens', .cons hround hrounds⟩
    exact hrest db hopens

theorem Rounds.counted (h : Rounds items report report' rows rows') : report'.users_migrated + report'.users_skipped =
    report.users_migrated + report.users_skipped + Int32.ofNat (items.countP isObject) := by
  induction h with
  | nil => exact (Int32.add_zero _).symm
  | cons h _ ih =>
    rw [ih, h.counted, List.countP_cons, Int32.add_assoc, Int32.ofNat_add, Int32.add_comm (Int32.ofNat _)]
    split <;> rfl

/-- The users that were there stay as they are, and the nicknames of the items
are taken in the end. -/
theorem Rounds.imported (h : Rounds items report report' rows rows') :
    ∃ added, rows' = rows ++ added ∧ Imported rows items added := by
  induction h with
  | @nil _ rows => exact ⟨[], (List.append_nil rows).symm, nofun, nofun, List.nodup_nil⟩
  | @cons item items report middle report' rows rows₁ rows' hround _ ih =>
    obtain ⟨later, hrows', hlater⟩ := ih
    rcases hround.added with ⟨rfl, -, htaken⟩ | ⟨name, row, hname, hfree, hrow, -, rfl⟩
    · refine ⟨later, hrows', fun other hother nickname hnickname => ?_, hlater.fresh, hlater.distinct⟩
      rcases List.mem_cons.mp hother with rfl | hother
      · exact (htaken nickname hnickname).append later
      · exact hlater.named other hother nickname hnickname
    · refine ⟨row :: later, by rw [hrows', List.append_assoc]; rfl, fun other hother nickname hnickname => ?_,
        fun new hnew => ?_, ?_⟩
      · have hmem : rows ++ row :: later = rows ++ [row] ++ later := by
          rw [List.append_assoc]
          rfl
        rw [hmem]
        rcases List.mem_cons.mp hother with rfl | hother
        · rw [hname] at hnickname
          cases hnickname
          exact Taken.append ⟨row, List.mem_append_right _ List.mem_cons_self, hrow⟩ later
        · exact hlater.named other hother nickname hnickname
      · rcases List.mem_cons.mp hnew with rfl | hnew
        · exact ⟨name, hrow, hfree⟩
        · obtain ⟨nickname, hnickname, huntaken⟩ := hlater.fresh new hnew
          exact ⟨nickname, hnickname, fun h => huntaken (h.append [row])⟩
      · rw [Distinct, List.filterMap_cons, hrow]
        refine List.nodup_cons.mpr ⟨fun hmem => ?_, hlater.distinct⟩
        obtain ⟨new, hnew, heq⟩ := List.mem_filterMap.mp hmem
        obtain ⟨nickname, hnickname, huntaken⟩ := hlater.fresh new hnew
        rw [hnickname] at heq
        cases heq
        exact huntaken ⟨row, List.mem_append_right _ List.mem_cons_self, hrow⟩

/-- With all nicknames taken, nobody is added. -/
theorem Rounds.taken (h : Rounds items report report' rows rows')
    (htaken : ∀ item ∈ items, ∀ nickname, legacyNickname item = some nickname → Taken nickname rows) :
    rows' = rows ∧ report'.users_migrated = report.users_migrated := by
  induction h with
  | nil => exact ⟨rfl, rfl⟩
  | cons hround _ ih =>
    obtain ⟨hitem, hitems⟩ := List.forall_mem_cons.mp htaken
    rcases hround.added with ⟨rfl, hmigrated, -⟩ | ⟨name, _, hname, hfree, -⟩
    · obtain ⟨hrows, hrest⟩ := ih hitems
      exact ⟨hrows, hrest.trans hmigrated⟩
    · exact absurd (hitem name hname) hfree

theorem Rounds.legible (h : Rounds items report report' rows rows') (hlegible : Legible rows) : Legible rows' := by
  induction h with
  | nil => exact hlegible
  | cons hround _ ih => exact ih (hround.legible hlegible)

end Rounds

section Migration

variable {env : Env} {users : RowList} {buf : Bytes} {items : List Value}

theorem returns_ensureTable (name : TableName) : Returns (ensureTable env name) := by
  have hcall : Returns (call env) := fun _ => ⟨_, rfl⟩
  have hexists : Returns (tableExists env name) :=
    returns_bind hcall fun _ => returns_ite (returns_bind hcall fun _ => returns_bind (fun _ => ⟨_, rfl⟩)
      fun _ => returns_pure _) (returns_pure false)
  exact returns_bind hexists fun _ => returns_ite (returns_pure ())
    (returns_bind (returns_exec _) fun _ => returns_pure ())

theorem yields_migrateUsers (hlegible : Legible users) (hparse : Json.read buf = .ok (.arr items)) (path : Bytes) :
    Yields (Opens env .users users) (migrateUsers env path (some buf)) fun report db =>
      ∃ rows, Opens env .users rows db ∧ Rounds items .empty report users rows := by
  unfold migrateUsers
  dsimp only
  rw [hparse]
  have hensure : Yields (Opens env .users users) (ensureTable env .users) fun _ => Opens env .users users := by
    intro db hdb
    obtain ⟨_, hresult⟩ := @returns_ensureTable env .users db
    rw [hresult]
    exact ⟨nofun, fun _ _ => (spares_ensureTable .users).opens hdb, nofun⟩
  exact hensure.bind fun _ => yields_migrateItems hlegible items .empty

/-- A migration of a file adds users with new nicknames, so that each item with
all its fields has a user, and leaves the other users alone. A migration of the
same file that finds its table adds nobody. -/
theorem migration_idempotent {db : Database} (hdb : Opens env .users users db) (hlegible : Legible users)
    (hparse : Json.read buf = .ok (.arr items)) (path : Bytes) :
    ∃ report added, (migrateUsers env path (some buf) db).result = .ok report ∧
      Opens env .users (users ++ added) (migrateUsers env path (some buf) db).state ∧
      Imported users items added ∧
      report.users_migrated + report.users_skipped = Int32.ofNat (items.countP isObject) ∧
      ∀ env' path' db', Opens env' .users (users ++ added) db' → ∃ report',
        (migrateUsers env' path' (some buf) db').result = .ok report' ∧ report'.users_migrated = 0 ∧
          Opens env' .users (users ++ added) (migrateUsers env' path' (some buf) db').state := by
  obtain ⟨report, hresult, rows, hopens, hrounds⟩ := returned_of_yields (yields_migrateUsers hlegible hparse path) hdb
  obtain ⟨added, rfl, himported⟩ := hrounds.imported
  refine ⟨report, added, hresult, hopens, himported, ?_, fun env' path' db' hdb' => ?_⟩
  · rw [hrounds.counted]
    exact Int32.zero_add _
  · obtain ⟨report', hresult', rows', hopens', hrounds'⟩ :=
      returned_of_yields (yields_migrateUsers (hrounds.legible hlegible) hparse path') hdb'
    obtain ⟨rfl, hmigrated⟩ := hrounds'.taken himported.named
    exact ⟨report', hresult', hmigrated, hopens'⟩

end Migration

/-- Two users with one nickname, one without a password, and a number. -/
def legacyFile : Bytes :=
  lit "[\x7b\"id\":1,\"password\":\"p\",\"nickname\":\"ann\"\x7d," ++
    lit "\x7b\"id\":2,\"password\":\"q\",\"nickname\":\"ann\"\x7d," ++
    lit "\x7b\"id\":3,\"nickname\":\"bob\"\x7d,4]"

theorem migration_idempotent_new : ∃ items report added, Json.read legacyFile = .ok (.arr items) ∧
    (migrateUsers .ideal [] (some legacyFile) (startUp .ideal (connect .empty)).state).result = .ok report ∧
    Imported [] items added ∧
    report.users_migrated + report.users_skipped = Int32.ofNat (items.countP isObject) ∧
    ∃ report', (migrateUsers .ideal [] (some legacyFile)
        (migrateUsers .ideal [] (some legacyFile) (startUp .ideal (connect .empty)).state).state).result = .ok report' ∧
      report'.users_migrated = 0 := by
  have hidle : (startUp .ideal (connect .empty)).state.sqlite.transaction = none :=
    Option.isNone_iff_eq_none.mp (by decide +kernel)
  have hopens : Opens .ideal .users [] (startUp .ideal (connect .empty)).state :=
    .inr ⟨by decide +kernel, [], ⟨by decide +kernel, fun c hc => by rw [hidle] at hc; cases hc⟩, rfl,
      List.forall_mem_nil _, .inl rfl⟩
  obtain ⟨items, hparse⟩ : ∃ items, Json.read legacyFile = .ok (.arr items) := by
    have harray : (Json.read legacyFile).toOption.any isArray = true := by decide +kernel
    cases hvalue : Json.read legacyFile with
    | error e =>
      rw [hvalue] at harray
      cases harray
    | ok value =>
      rw [hvalue] at harray
      cases value with
      | arr items => exact ⟨items, rfl⟩
      | _ => cases harray
  obtain ⟨report, added, hresult, hadded, himported, hcount, hagain⟩ :=
    migration_idempotent hopens (List.forall_mem_nil _) hparse []
  obtain ⟨report', hresult', hmigrated, -⟩ := hagain .ideal [] _ hadded
  exact ⟨items, report, added, hparse, hresult, himported, hcount, report', hresult', hmigrated⟩

end LegacyMigrator

end LanChat
