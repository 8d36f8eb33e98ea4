import Mathlib.Data.List.Forall2
import LanChat.Db.LegacyMigrator
import LanChat.Db.Tracks
import LanChat.Server.Access

/-!
# Nicknames

A user who registers or is migrated gets a nickname that no other user has. A
change of the profile does not look at the other users (`nickname_taken`):
nicknames stay distinct in every run in which nobody takes the nickname of
another user this way (`nicknames_distinct`).
-/

namespace LanChat

open Lib Json

namespace UserRepository

open Database

/-- The nickname of a row, as `findByNickname` compares it. -/
def nicknameOf (row : Row) : Option Bytes := (row.find? (lit "nickname")).map Value.asString

/-- No two rows have the same nickname. -/
def Distinct (rows : RowList) : Prop := (rows.filterMap nicknameOf).Nodup

instance (rows : RowList) : Decidable (Distinct rows) := inferInstanceAs (Decidable (List.Nodup _))

/-- The row is that of the user, or has the nickname. -/
def Claims (userId : Int32) (nickname : Bytes) (row : Row) : Prop :=
  hasId userId row = .ok true ∨ nicknameOf row = some nickname

instance (userId : Int32) (nickname : Bytes) (row : Row) : Decidable (Claims userId nickname row) :=
  decidable_of_iff ((hasId userId row).toOption = some true ∨ nicknameOf row = some nickname)
    (or_congr_left (by cases hasId userId row <;> simp [Except.toOption]))

/-- Only one row is that of the user or has the nickname. -/
def FreeFor (userId : Int32) (nickname : Bytes) (rows : RowList) : Prop :=
  rows.Pairwise fun row row' => ¬(Claims userId nickname row ∧ Claims userId nickname row')

instance (userId : Int32) (nickname : Bytes) (rows : RowList) : Decidable (FreeFor userId nickname rows) :=
  inferInstanceAs (Decidable (rows.Pairwise _))

/-- What is known of the table while a user may ask for a nickname: the nicknames
are distinct, and this one is free for him. -/
structure Apart (wanted : Option (Int32 × Bytes)) (rows : RowList) : Prop where
  distinct : Distinct rows
  free : ∀ userId nickname, wanted = some (userId, nickname) → FreeFor userId nickname rows

section Rows

variable {rows rows' : RowList} {row : Row} {userId : Int32} {nickname : Bytes}

theorem distinct_iff : Distinct rows ↔
    rows.Pairwise fun row row' => ∀ nickname, nicknameOf row = some nickname → nicknameOf row' ≠ some nickname := by
  rw [Distinct, List.Nodup, List.pairwise_filterMap]
  refine List.Pairwise.iff fun row row' => ⟨fun h nickname hrow hrow' => ?_, fun h a ha b hb hab => ?_⟩
  · exact h nickname hrow nickname hrow' rfl
  · subst hab
    exact h a ha hb

theorem Distinct.take (h : Distinct rows) (n : Nat) : Distinct (rows.take n) :=
  h.sublist ((List.take_sublist n rows).filterMap _)

theorem FreeFor.take (h : FreeFor userId nickname rows) (n : Nat) : FreeFor userId nickname (rows.take n) :=
  h.sublist (List.take_sublist n rows)

/-- A user whose nickname nobody has. -/
theorem Distinct.concat (h : Distinct rows) (hrow : nicknameOf row = some nickname)
    (hnew : ∀ row ∈ rows, nicknameOf row ≠ some nickname) : Distinct (rows ++ [row]) := by
  have hlast : [row].filterMap nicknameOf = [nickname] := by
    rw [List.filterMap_cons, hrow]
    rfl
  rw [Distinct, List.filterMap_append, hlast, List.nodup_append]
  refine ⟨h, List.nodup_singleton _, fun a ha b hb => ?_⟩
  obtain ⟨old, hold, ha⟩ := List.mem_filterMap.mp ha
  obtain rfl := List.mem_singleton.mp hb
  rintro rfl
  exact hnew old hold ha

/-! ## Updates -/

/-- Each row is as before, or the updater has run on it. -/
theorem updateRows_forall₂ (p : Row → Except Exn Bool) (u : Row → Row) (rows : RowList) :
    List.Forall₂ (fun row row' => row' = row ∨ p row = .ok true ∧ row' = u row) rows (updateRows p u rows).1 := by
  have hsame : ∀ rows : RowList,
      List.Forall₂ (fun row row' => row' = row ∨ p row = .ok true ∧ row' = u row) rows rows := fun rows =>
    List.forall₂_same.mpr fun _ _ => .inl rfl
  induction rows with
  | nil => exact .nil
  | cons row rest ih =>
    unfold updateRows
    cases hp : p row with
    | error e => exact hsame _
    | ok hit =>
      refine .cons ?_ ih
      cases hit with
      | true => exact .inr ⟨hp, rfl⟩
      | false => exact .inl rfl

theorem exists_of_forall₂ {α : Type} {S : α → α → Prop} {l l' : List α} (h : List.Forall₂ S l l') :
    ∀ b ∈ l', ∃ a ∈ l, S a b := by
  induction h with
  | nil => exact nofun
  | cons hhead _ ih =>
    intro b hb
    rcases List.mem_cons.mp hb with rfl | hb
    · exact ⟨_, List.mem_cons_self, hhead⟩
    · obtain ⟨a, ha, hS⟩ := ih b hb
      exact ⟨a, List.mem_cons_of_mem _ ha, hS⟩

/-- What holds of each two rows holds of what becomes of them. -/
theorem pairwise_of_forall₂ {α : Type} {R S : α → α → Prop} {l l' : List α}
    (h : ∀ a b a' b', R a b → S a a' → S b b' → R a' b') (hS : List.Forall₂ S l l')
    (hR : l.Pairwise R) : l'.Pairwise R := by
  induction hS with
  | nil => exact .nil
  | cons hhead htail ih =>
    obtain ⟨hfirst, hrest⟩ := List.pairwise_cons.mp hR
    refine List.pairwise_cons.mpr ⟨fun b' hb' => ?_, ih hrest⟩
    obtain ⟨b, hb, hlast⟩ := exists_of_forall₂ htail b' hb'
    exact h _ b _ b' (hfirst b hb) hhead hlast

/-- An update of other fields. -/
theorem Apart.updateRows {wanted : Option (Int32 × Bytes)} (h : Apart wanted rows)
    {p : Row → Except Exn Bool} {u : Row → Row} (hnickname : ∀ row, nicknameOf (u row) = nicknameOf row)
    (hid : ∀ row userId, hasId userId (u row) = hasId userId row) :
    Apart wanted (Database.updateRows p u rows).1 := by
  have hsame : List.Forall₂ (fun row row' => nicknameOf row' = nicknameOf row ∧
      ∀ userId, hasId userId row' = hasId userId row) rows (Database.updateRows p u rows).1 := by
    refine (updateRows_forall₂ p u rows).imp fun row row' hrow => ?_
    rcases hrow with rfl | ⟨-, rfl⟩
    · exact ⟨rfl, fun _ => rfl⟩
    · exact ⟨hnickname row, hid row⟩
  refine ⟨distinct_iff.mpr ?_, fun userId nickname hwanted => ?_⟩
  · refine pairwise_of_forall₂ (fun a b a' b' hab ha hb => ?_) hsame (distinct_iff.mp h.distinct)
    rw [ha.1, hb.1]
    exact hab
  · refine pairwise_of_forall₂ (fun a b a' b' hab ha hb => ?_) hsame (h.free userId nickname hwanted)
    unfold Claims at hab ⊢
    rw [ha.1, hb.1, ha.2, hb.2]
    exact hab

/-- A new nickname that is free for the user. -/
theorem Apart.rename {u : Row → Row} (h : Apart (some (userId, nickname)) rows)
    (hu : ∀ row, nicknameOf (u row) = some nickname) :
    Apart (some (userId, nickname)) (Database.updateRows (hasId userId) u rows).1 := by
  have hboth : rows.Pairwise fun row row' =>
      (∀ name, nicknameOf row = some name → nicknameOf row' ≠ some name) ∧
        ¬(Claims userId nickname row ∧ Claims userId nickname row') :=
    (distinct_iff.mp h.distinct).and (h.free userId nickname rfl)
  have hafter := pairwise_of_forall₂ ?_ (updateRows_forall₂ (hasId userId) u rows) hboth
  · refine ⟨distinct_iff.mpr (hafter.imp fun h => h.1), fun userId' nickname' hwanted => ?_⟩
    cases hwanted
    exact hafter.imp fun h => h.2
  · rintro a b a' b' ⟨hdistinct, hfree⟩ (rfl | ⟨ha, rfl⟩) (rfl | ⟨hb, rfl⟩)
    · exact ⟨hdistinct, hfree⟩
    · have ha : ¬Claims userId nickname a' := fun ha => hfree ⟨ha, .inl hb⟩
      refine ⟨fun name hname hname' => ha (.inr ?_), fun hboth => ha hboth.1⟩
      rw [hname, ← hname', hu]
    · have hb : ¬Claims userId nickname b' := fun hb => hfree ⟨.inl ha, hb⟩
      refine ⟨fun name hname hname' => hb (.inr ?_), fun hboth => hb hboth.2⟩
      rw [hname', ← hname, hu]
    · exact absurd ⟨.inl ha, .inl hb⟩ hfree

end Rows

/-! ## Operations -/

section Operations

variable {env : Env} {wanted : Option (Int32 × Bytes)} {userId : Int32} {nickname : Bytes}

/-- The table of users as a run keeps it. -/
abbrev KeepsApart (env : Env) (wanted : Option (Int32 × Bytes)) : Database → Prop :=
  Tracks env False .users (Apart wanted)

theorem Apart.take (rows : RowList) (n : Nat) (h : Apart wanted rows) : Apart wanted (rows.take n) :=
  ⟨h.distinct.take n, fun userId nickname hwanted => (h.free userId nickname hwanted).take n⟩

theorem reads_apart (env : Env) (wanted : Option (Int32 × Bytes)) :
    Reads env (fun _ _ => True) (KeepsApart env wanted) (KeepsApart env wanted) :=
  reads_tracks fun _ => Apart.take

theorem harmless_apart {α : Type} (r : Except Exn α) :
    Harmless (KeepsApart env wanted) (KeepsApart env wanted) r := .inr fun _ h => h

theorem guarded_updateUser {p : Row → Except Exn Bool} {u : Row → Row}
    (hnickname : ∀ row, nicknameOf (u row) = nicknameOf row)
    (hid : ∀ row userId, hasId userId (u row) = hasId userId row) :
    Guarded (KeepsApart env wanted) (KeepsApart env wanted) (update env .users p u) :=
  guarded_updateRows_tracks (fun _ => Apart.take) fun _ hrows => hrows.updateRows hnickname hid

/-- Assignments to fields other than the id and the nickname. -/
theorem nicknameOf_put {row : Row} {key : String} {v : Value} (hkey : lit key ≠ lit "nickname") :
    nicknameOf (row.put (lit key) v) = nicknameOf row := by
  simp [nicknameOf, hkey.symm]

theorem hasId_put {row : Row} {key : String} {v : Value} (hkey : lit key ≠ lit "id") (userId : Int32) :
    hasId userId (row.put (lit key) v) = hasId userId row := by
  simp [hasId, atField, hkey.symm]

theorem guarded_setOnlineStatus (userId : Int32) (online : Bool) :
    Guarded (KeepsApart env wanted) (KeepsApart env wanted) (setOnlineStatus env userId online) := by
  refine (reads_apart env wanted).time.bind fun now => Guarded.bind (guarded_updateUser (fun row => ?_)
    fun row userId => ?_) fun _ => guarded_pure ()
  · cases online with
    | true => exact (nicknameOf_put (by decide)).trans (nicknameOf_put (by decide))
    | false => exact nicknameOf_put (by decide)
  · cases online with
    | true => exact (hasId_put (by decide) _).trans (hasId_put (by decide) _)
    | false => exact hasId_put (by decide) _

theorem guarded_verifyPassword (userId : Int32) (password : Bytes) :
    Guarded (KeepsApart env wanted) (KeepsApart env wanted) (verifyPassword env userId password) := by
  have hreads := reads_apart env wanted
  refine (hreads.query fun _ _ => harmless_apart _).bind fun rows => ?_
  cases rows with
  | nil => exact guarded_pure false
  | cons row rest =>
    refine (guarded_ofExcept (harmless_apart _)).bind fun hash => (guarded_pure _).ite <|
      (guarded_pure false).ite <| (hreads.bcryptHashPassword password 12).bind fun upgraded => ?_
    refine Guarded.bind (guarded_updateUser (fun row => ?_) fun row userId => ?_) fun _ => guarded_pure true
    · exact (nicknameOf_put (by decide)).trans (nicknameOf_put (by decide))
    · exact (hasId_put (by decide) _).trans (hasId_put (by decide) _)

/-- The change of a profile, when the nickname is free. -/
theorem guarded_updateProfile (userId : Int32) (nickname : Bytes) (avatarId : Int32) :
    Guarded (KeepsApart env (some (userId, nickname))) (KeepsApart env (some (userId, nickname)))
      (updateProfile env userId nickname avatarId) := by
  refine guarded_updateRows_tracks (fun _ => Apart.take) fun rows hrows => hrows.rename fun row => ?_
  simp [nicknameOf]

/-! ### Registration -/

theorem filterRows_eq_nil {p : Row → Except Exn Bool} {rows : RowList} (h : filterRows p rows = .ok []) :
    ∀ row ∈ rows, p row = .ok false := by
  induction rows with
  | nil => exact nofun
  | cons head rest ih =>
    obtain ⟨keep, hkeep, h⟩ := bind_eq_ok h
    obtain ⟨kept, hrest, h⟩ := bind_eq_ok h
    cases keep with
    | true => cases h
    | false =>
      cases h
      intro row hrow
      rcases List.mem_cons.mp hrow with rfl | hrow
      · exact hkeep
      · exact ih hrest row hrow

/-- The table is in memory, and nobody has the nickname. -/
def Untaken (nickname : Bytes) (db : Database) : Prop :=
  ∃ rows, db.tables .users = some rows ∧ ∀ row ∈ rows, nicknameOf row ≠ some nickname

/-- A nickname that is not found is not taken. -/
theorem sat_findByNickname (nickname : Bytes) :
    Cmd.Sat (KeepsApart env wanted) (findByNickname env nickname)
      (fun found db => KeepsApart env wanted db ∧ (found = none → Untaken nickname db))
      (fun _ => KeepsApart env wanted) fun _ => True := by
  have hquery : Cmd.Sat (KeepsApart env wanted)
      (query env .users fun r => (atField r "nickname").map fun v => v.asString = nickname)
      (fun rows db => KeepsApart env wanted db ∧ (rows = [] → Untaken nickname db))
      (fun _ => KeepsApart env wanted) fun _ => True := by
    refine (sat_load_tracks fun _ => Apart.take).bind fun _ => sat_rows_tracks.bind fun all =>
      Cmd.sat_ofExcept (fun rows db hrows hdb => ⟨hdb.1, ?_⟩) fun _ _ _ hdb => hdb.1
    rintro rfl
    refine ⟨all, hdb.2.1, fun row hrow hname => ?_⟩
    have hp := filterRows_eq_nil hrows row hrow
    obtain ⟨v, hv, hname⟩ := Option.map_eq_some_iff.mp hname
    simp [atField, hv, Except.map, hname] at hp
  refine hquery.bind fun rows => ?_
  cases rows with
  | nil => exact Cmd.sat_pure fun db hdb => ⟨hdb.1, fun _ => hdb.2 rfl⟩
  | cons row rest =>
    refine Cmd.Sat.bind (R := fun _ => KeepsApart env wanted) (Cmd.sat_ofExcept (fun _ _ _ hdb => hdb.1)
      fun _ _ _ hdb => hdb.1) fun user => Cmd.sat_pure fun db hdb => ⟨hdb, fun h => by cases h⟩

/-- What reads a table in memory does not change the users. -/
theorem reads_untaken (env : Env) (nickname : Bytes) :
    Reads env (fun _ _ => True) (fun db => KeepsApart env wanted db ∧ Untaken nickname db)
      (fun db => KeepsApart env wanted db ∧ Untaken nickname db) where
  counters _ _ _ _ h := ⟨⟨h.1.settled, h.1.rows, h.1.loads⟩, h.2⟩
  load other db hdb := by
    obtain ⟨-, hok, herr⟩ : _ ∧ (∀ _, (loadTable env other db).result = .ok _ → _) ∧ _ :=
      guarded_load_tracks (fun _ => Apart.take) other db hdb.1
    have hmem : (loadTable env other db).state.tables .users = db.tables .users := by
      rcases eq_or_ne .users other with rfl | hname
      · obtain ⟨rows, hrows, -⟩ := hdb.2
        rw [loadTable_of_cached hrows]
      · exact (spares_loadTable hname).tables db
    have huntaken : Untaken nickname (loadTable env other db).state := by
      rw [Untaken, hmem]
      exact hdb.2
    exact ⟨nofun, fun a ha => ⟨⟨hok a ha, huntaken⟩, fun _ _ => trivial⟩, fun e he => ⟨herr e he, huntaken⟩⟩
  users := .inr fun _ h => h
  thrown _ h := h

/-- A user is created only with a nickname that is not taken. -/
theorem guarded_create (password nickname : Bytes) (avatarId : Int32) :
    Guarded (KeepsApart env none) (KeepsApart env none) (create env password nickname avatarId) := by
  have hreads := @reads_untaken none env nickname
  refine (sat_findByNickname nickname).bind fun existing => ?_
  cases existing with
  | some user => exact Cmd.sat_pure fun _ hdb => hdb.1
  | none =>
    have hinsert : ∀ row, nicknameOf row = some nickname →
        Cmd.Sat (fun db => KeepsApart env none db ∧ Untaken nickname db) (insert env .users row)
          (fun _ => KeepsApart env none) (fun _ => KeepsApart env none) fun _ => True := fun row hrow =>
      sat_insert_tracks fun rows hrows hnew => ⟨hrows.distinct.concat hrow hnew, nofun⟩
    have hrest : Cmd.Sat (fun db => KeepsApart env none db ∧ Untaken nickname db) (do
        let all ← queryAll env .users
        let id ← Cmd.ofExcept (nextUserId 1000 all)
        let hash ← bcryptHashPassword env password 12
        let now ← time env
        insert env .users (newUserRow id hash nickname avatarId now)
        pure id) (fun _ => KeepsApart env none) (fun _ db => KeepsApart env none db) fun _ => True := by
      have hthrown : ∀ {α : Type} {c : DbM α}, Guarded (fun db => KeepsApart env none db ∧ Untaken nickname db)
          (fun db => KeepsApart env none db ∧ Untaken nickname db) c →
          Cmd.Sat (fun db => KeepsApart env none db ∧ Untaken nickname db) c
            (fun _ db => KeepsApart env none db ∧ Untaken nickname db) (fun _ db => KeepsApart env none db)
            fun _ => True := fun h => h.weaken (fun _ h => h) (fun _ _ h => h) (fun _ _ h => h.1) fun _ h => h
      refine (hthrown (hreads.queryAll .users)).bind fun all =>
        (hthrown (guarded_ofExcept (.inr fun _ h => h))).bind fun id =>
          (hthrown (hreads.bcryptHashPassword password 12)).bind fun hash =>
            (hthrown hreads.time).bind fun now => (hinsert _ ?_).bind fun _ => Cmd.sat_pure fun _ h => h
      simp [nicknameOf, newUserRow, find?_object]
    exact hrest.pre fun db hdb => ⟨hdb.1, hdb.2 rfl⟩

end Operations

end UserRepository

namespace LegacyMigrator

open Database UserRepository

variable {env : Env}

theorem guarded_migrateItem (item : Value) (report : MigrationReport) :
    Guarded (KeepsApart env none) (KeepsApart env none) (migrateItem env item report) := by
  cases item with
  | obj obj =>
    unfold migrateItem
    dsimp only
    split
    · unfold migrateUser
      refine Guarded.bind ((sat_findByNickname _).post fun _ _ h => h.1) fun existing => ?_
      cases existing with
      | some _ => exact guarded_pure _
      | none =>
        exact (guarded_create _ _ _).bind fun _ => (guarded_pure _).ite (guarded_pure _)
    · exact guarded_pure _
  | null => exact guarded_pure _
  | bool _ => exact guarded_pure _
  | int _ => exact guarded_pure _
  | float _ => exact guarded_pure _
  | str _ => exact guarded_pure _
  | arr _ => exact guarded_pure _

theorem guarded_migrateItems (items : List Value) (report : MigrationReport) :
    Guarded (KeepsApart env none) (KeepsApart env none) (migrateItems env items report) := by
  induction items generalizing report with
  | nil => exact guarded_pure report
  | cons item items ih => exact (guarded_migrateItem item report).bind fun _ => ih _

/-- A migration keeps the nicknames distinct. -/
theorem guarded_migrateUsers (legacyJsonPath : Bytes) (legacy : Option Bytes) :
    Guarded (KeepsApart env none) (KeepsApart env none) (migrateUsers env legacyJsonPath legacy) := by
  unfold migrateUsers
  cases legacy with
  | none => exact guarded_pure _
  | some buf =>
    dsimp only
    split
    · exact (spares_ensureTable _).tracks.bind fun _ => guarded_migrateItems _ _
    · exact guarded_pure _
    · exact Cmd.sat_throw fun _ h => h

end LegacyMigrator

namespace TcpServer

open Database UserRepository MessageRouter

/-! ## Runs -/

/-- What the server process can do that concerns nicknames: an event of the
server, or the migration of a legacy file. -/
inductive NameEvent where
  | server (event : Event)
  | migrateUsers (legacyJsonPath : Bytes) (legacy : Option Bytes)

/-- One step; `none` when an exception ends the process. -/
def nameStep (env : Env) (st : Server) : NameEvent → Option Server
  | .server event => step env st event
  | .migrateUsers legacyJsonPath legacy =>
    match (LegacyMigrator.migrateUsers env legacyJsonPath legacy st.db).result with
    | .ok _ => some { st with db := (LegacyMigrator.migrateUsers env legacyJsonPath legacy st.db).state }
    | .error _ => none

/-- The user and the nickname of a profile update that reaches the repository. -/
def wantedIn (st : Server) (session : SessionId) (request : Object) : Option (Int32 × Bytes) :=
  if typeField request = some .UserProfileUpdate ∧ 0 < st.userId session ∧ stringField request "nickname" [] ≠ []
  then some (st.userId session, stringField request "nickname" [])
  else none

/-- The user who asks for a nickname by the event, and the nickname. -/
def wantedBy (st : Server) : Event → Option (Int32 × Bytes)
  | .frame session json now _ =>
    if Handled st session now then (readObject json).bind (wantedIn st session) else none
  | _ => none

/-- Nobody asks for the nickname of another user. -/
def LeavesNames (st : Server) : NameEvent → Prop
  | .server event => ∀ userId nickname, wantedBy st event = some (userId, nickname) →
      FreeFor userId nickname (st.db.content .users)
  | .migrateUsers _ _ => True

instance (st : Server) : ∀ event, Decidable (LeavesNames st event)
  | .migrateUsers _ _ => .isTrue trivial
  | .server event =>
    match h : wantedBy st event with
    | none => .isTrue fun _ _ hwanted => nomatch h.symm.trans hwanted
    | some (userId, nickname) =>
      decidable_of_iff (FreeFor userId nickname (st.db.content .users))
        ⟨fun hfree _ _ hwanted => by cases h.symm.trans hwanted; exact hfree, fun hfree => hfree _ _ h⟩

section Runs

variable {env : Env} {uid : Int32} {session : SessionId} {request : Object} {st st' : Server}

theorem guardsCalls_apart (htype : typeField request ≠ some .UserProfileUpdate) :
    GuardsCalls env (KeepsApart env none) (KeepsApart env none) uid request := by
  have hreads := reads_apart env none
  have hmessages := @writesTo_tracks env .users .messages False (Apart none) (by decide)
  have hmembers := @writesTo_tracks env .users .group_members False (Apart none) (by decide)
  intro α c hcall
  cases hcall with
  | create _ _ _ _ => exact guarded_create _ _ _
  | verifyPassword _ _ _ => exact guarded_verifyPassword _ _
  | setOnline _ _ => exact guarded_setOnlineStatus _ _
  | setOffline _ _ => exact guarded_setOnlineStatus _ _
  | updateProfile _ _ hprofile _ => exact absurd hprofile htype
  | join _ _ => exact hmembers.join hreads _ _
  | leave _ _ => exact hmembers.leave _ _
  | createGroup _ _ _ => exact WritesTo.createGroup hreads (writesTo_tracks (by decide)) hmembers _ _
  | sendRequest _ _ => exact guarded_sendRequest hreads friendships_tracks _ _ _
  | acceptRequest _ _ => exact guarded_setStatus hreads friendships_tracks _ _ _
  | rejectOrRemove _ => exact guarded_rejectOrRemove hreads friendships_tracks _ _ _
  | offlineForUser _ _ => exact hmessages.offlineForUser hreads _ _
  | savePrivate _ _ _ _ _ _ => exact hmessages.savePrivate hreads _ _ _ _ _
  | saveGroup _ _ _ _ _ => exact hmessages.saveGroup hreads _ _ _ _
  | markReadByNobody _ _ _ => exact hmessages.markRead _ _
  | markRead _ _ _ _ => exact hmessages.markRead _ _
  | addReaction _ _ _ _ _ => exact hmessages.addReaction _ _ _
  | edit _ _ _ _ _ => exact hmessages.edit hreads _ _ _
  | softDelete _ _ _ _ => exact hmessages.softDelete hreads _ _

/-- A profile update that reaches the repository asks for what `wantedIn` says. -/
theorem guards_profileUpdate (htype : typeField request = some .UserProfileUpdate) :
    GuardsAs (KeepsApart env (wantedIn st session request)) (KeepsApart env (wantedIn st session request))
      session (st.userId session) (dispatch env session request) := by
  unfold dispatch
  rw [htype]
  refine .auth <| Guards.ite (fun _ => guards_deliver _ _) fun hvalid => ?_
  rw [not_or, Int32.not_le] at hvalid
  have hwanted : wantedIn st session request = some (st.userId session, stringField request "nickname" []) :=
    if_pos ⟨htype, hvalid⟩
  rw [hwanted]
  exact (guards_onDb (guarded_updateProfile _ _ _)).bind fun _ =>
    Guards.ite (fun _ => guards_deliver _ _) fun _ => guards_deliver _ _

/-- An event of the server keeps the nicknames apart when the one that is asked for is free. -/
theorem apart_step {event : Event} (hst : KeepsApart env none st.db)
    (hfree : LeavesNames st (.server event)) (hstep : step env st event = some st') :
    KeepsApart env none st'.db := by
  have hwanted : KeepsApart env (wantedBy st event) st.db :=
    ⟨hst.settled, ⟨hst.rows.distinct, hfree⟩, nofun⟩
  have hafter : KeepsApart env (wantedBy st event) st'.db := by
    refine invariant_step_of_dispatch (reads_apart env _) (fun id => guarded_setOnlineStatus id false)
      ?_ hwanted hstep
    rintro session json now later request rfl hhandled hparse
    have hby : wantedBy st (.frame session json now later) = wantedIn st session request := by
      rw [wantedBy, if_pos hhandled, hparse]
      rfl
    rw [hby] at hwanted ⊢
    rcases em (typeField request = some .UserProfileUpdate) with htype | htype
    · exact (guards_profileUpdate htype).pre fun s hs => ⟨hs.1, hs.2 ▸ hwanted⟩
    · have hnone : wantedIn st session request = none := if_neg fun h => htype h.1
      rw [hnone] at hwanted ⊢
      exact dispatchSat_of_calls (reads_apart env none) hwanted (guardsCalls_apart htype)
  exact ⟨hafter.settled, ⟨hafter.rows.distinct, nofun⟩, nofun⟩

theorem apart_nameStep {event : NameEvent} (hst : KeepsApart env none st.db) (hfree : LeavesNames st event)
    (hstep : nameStep env st event = some st') : KeepsApart env none st'.db := by
  cases event with
  | server event => exact apart_step hst hfree hstep
  | migrateUsers path legacy =>
    simp only [nameStep] at hstep
    cases hreport : (LegacyMigrator.migrateUsers env path legacy st.db).result with
    | error e =>
      rw [hreport] at hstep
      cases hstep
    | ok report =>
      rw [hreport] at hstep
      cases hstep
      exact (LegacyMigrator.guarded_migrateUsers path legacy st.db hst).2.1 report hreport

/-- As long as nobody asks for the nickname of another user, no two users have
the same nickname, whatever fails. -/
theorem nicknames_distinct (env : Env) (file : Content) (events : List NameEvent)
    (hfile : Distinct ((Server.boot env file).db.content .users))
    (h : Along (nameStep env) LeavesNames (.boot env file) events) :
    Throughout (nameStep env) (fun st => Distinct (st.db.content .users)) (.boot env file) events := by
  have hstart : KeepsApart env none (Server.boot env file).db :=
    ⟨settled_startUp env file .users, ⟨hfile, nofun⟩, nofun⟩
  have hkeeps : Throughout (nameStep env) (fun st => KeepsApart env none st.db) (.boot env file) events :=
    throughout_of_along (J := fun _ => True) (fun _ _ _ _ _ => trivial)
      (fun _ _ _ _ hst hstep hfree => apart_nameStep hst hfree hstep) trivial hstart h
  exact hkeeps.imp fun _ hst => hst.rows.distinct

end Runs

/-- A legacy file with the users `b` and `c`. -/
def legacyFile : Bytes :=
  Value.serialize (.arr [.obj (object [("id", .int 7), ("password", text "p"), ("nickname", text "b")]),
    .obj (object [("id", .int 8), ("password", text "p"), ("nickname", text "c")])])

/-- The users `a` and `b` register, `c` is migrated, and `a` logs in. -/
def threeNames : List NameEvent :=
  [.server (.accept 0),
    .server (request 1 .RegisterUser [("nickname", text "a"), ("password", text "p")]),
    .server (request 1 .RegisterUser [("nickname", text "b"), ("password", text "p")]),
    .migrateUsers (lit "users.json") (some legacyFile),
    .server (request 1 .Login [("id", .int 1000), ("password", text "p")])]

/-- The user who has logged in asks for a nickname. -/
def rename (nickname : String) : NameEvent :=
  .server (request 1 .UserProfileUpdate [("nickname", text nickname)])

theorem nicknames_distinct_free :
    Throughout (nameStep .ideal) (fun st => Distinct (st.db.content .users)) (.boot .ideal .empty)
      (threeNames ++ [rename "d", rename "a"]) :=
  nicknames_distinct .ideal .empty _ (by decide +kernel) (by decide +kernel)

/-- The user `a` takes the nickname of `c`. -/
theorem nickname_taken : ¬∀ (env : Env) (file : Content) (events : List NameEvent),
    Distinct ((Server.boot env file).db.content .users) →
      Throughout (nameStep env) (fun st => Distinct (st.db.content .users)) (.boot env file) events := by
  intro hall
  have hrun : ((run (nameStep .ideal) (.boot .ideal .empty) (threeNames ++ [rename "c"])).map fun st =>
      (st.db.content .users).filterMap nicknameOf) = some [lit "c", lit "b", lit "c"] := by
    decide +kernel
  obtain ⟨st, hst, hnames⟩ := Option.map_eq_some_iff.mp hrun
  have hlast : Distinct (st.db.content .users) := (hall .ideal .empty _ (by decide +kernel)).last hst
  rw [Distinct, hnames] at hlast
  exact absurd hlast (by decide)

end TcpServer

end LanChat
