import LanChat.Db.UserRepository

/-!
# The legacy migrator

The users of an old JSON file become rows of the table of users, except those
whose nickname is taken. The log is left out.
-/

namespace LanChat

open Lib Json

/-- `LegacyMigrator::MigrationReport`. -/
structure MigrationReport where
  users_migrated : Int32
  users_skipped : Int32
  errors : List Bytes
deriving DecidableEq

namespace MigrationReport

def empty : MigrationReport := ⟨0, 0, []⟩

def migrated (report : MigrationReport) : MigrationReport :=
  { report with users_migrated := report.users_migrated + 1 }

def skipped (report : MigrationReport) : MigrationReport :=
  { report with users_skipped := report.users_skipped + 1 }

def failed (report : MigrationReport) (error : Bytes) : MigrationReport :=
  { report with errors := report.errors ++ [error] }

end MigrationReport

namespace LegacyMigrator

open UserRepository

variable (env : Env)

/-- A legacy user that has all its fields. -/
def migrateUser (password nickname : Bytes) (headId : Int32) (report : MigrationReport) :
    DbM MigrationReport := do
  let existing ← findByNickname env nickname
  match existing with
  | some _ => pure report.skipped
  | none => do
    let newId ← create env password nickname headId
    if newId < 0 then pure (report.failed (lit "Failed to create user: " ++ nickname)).skipped
    else pure report.migrated

/-- `headId` of a legacy user, zero if it has none. -/
def headIdOf (obj : Object) : Int32 :=
  match obj.find? (lit "headId") with
  | some v => v.asInt.toInt32
  | none => 0

/-- One round of the loop of `migrateUsers`. -/
def migrateItem (item : Value) (report : MigrationReport) : DbM MigrationReport :=
  match item with
  | .obj obj =>
    match OrdMap.find? obj (lit "id"), OrdMap.find? obj (lit "password"), OrdMap.find? obj (lit "nickname") with
    | some _, some password, some nickname =>
      migrateUser env password.asString nickname.asString (headIdOf obj) report
    | _, _, _ => pure (report.failed (lit "Skipping legacy user with missing fields")).skipped
  | _ => pure report

/-- The loop of `migrateUsers`. -/
def migrateItems : List Value → MigrationReport → DbM MigrationReport
  | [], report => pure report
  | item :: items, report => do
    let report ← migrateItem env item report
    migrateItems items report

/-- `migrateUsers`; `legacy` is the content of the file, if it can be opened, and the
stack suffices for it. The
constructor of the repository creates the table of users if there is none. -/
def migrateUsers (legacyJsonPath : Bytes) (legacy : Option Bytes) : DbM MigrationReport :=
  match legacy with
  | none => pure (MigrationReport.empty.failed (lit "Cannot open legacy file: " ++ legacyJsonPath))
  | some buf =>
    match Json.read buf with
    | .ok (.arr items) => do
      Database.ensureTable env .users
      migrateItems env items .empty
    | .ok _ => pure (MigrationReport.empty.failed (lit "Legacy file is not a JSON array"))
    | .error fault => Cmd.throw (.json fault)

end LegacyMigrator

end LanChat
