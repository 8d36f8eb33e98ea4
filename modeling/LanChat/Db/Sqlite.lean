import LanChat.Db.Records

/-!
# SQLite, as far as the server uses it

The database file, the transaction that may be open, and the effect of each
statement. A statement outside a transaction takes effect in the file at once.
-/

namespace LanChat

open Json

/-- The tables of one `data TEXT` column that hold a JSON document in each row. -/
inductive TableName where
  | schema_version
  | users
  | messages
  | groups
  | group_members
deriving DecidableEq, Repr

/-- The contents of a database file; `none` is a table that does not exist. -/
structure Content where
  docs : TableName → Option (List Bytes)
  friendships : Option (List FriendshipRow)
  indexes : List String

namespace Content

def empty : Content := ⟨fun _ => none, none, []⟩

/-- `CREATE TABLE`. -/
def createTable (name : TableName) (c : Content) : Option Content :=
  match c.docs name with
  | some _ => none
  | none => some { c with docs := Function.update c.docs name (some []) }

/-- `DELETE FROM name`. -/
def deleteAll (name : TableName) (c : Content) : Option Content :=
  (c.docs name).map fun _ => { c with docs := Function.update c.docs name (some []) }

/-- `INSERT INTO name (data) VALUES (?)`. -/
def insertDoc (name : TableName) (text : Bytes) (c : Content) : Option Content :=
  (c.docs name).map fun texts =>
    { c with docs := Function.update c.docs name (some (texts ++ [text])) }

/-- `CREATE INDEX IF NOT EXISTS index ON name(...)`. -/
def createIndex (name : TableName) (index : String) (c : Content) : Option Content :=
  (c.docs name).map fun _ =>
    { c with indexes := if index ∈ c.indexes then c.indexes else c.indexes ++ [index] }

/-- `CREATE TABLE IF NOT EXISTS friendships`. -/
def createFriendships (c : Content) : Option Content :=
  some { c with friendships := some (c.friendships.getD []) }

/-- `CREATE INDEX IF NOT EXISTS index ON friendships(...)`. -/
def createFriendshipsIndex (index : String) (c : Content) : Option Content :=
  c.friendships.map fun _ =>
    { c with indexes := if index ∈ c.indexes then c.indexes else c.indexes ++ [index] }

/-- `INSERT INTO friendships`; the pair `(from_uid, to_uid)` is `UNIQUE`. -/
def insertFriendship (row : FriendshipRow) (c : Content) : Option Content :=
  match c.friendships with
  | none => none
  | some rows =>
    if rows.any fun r => r.from_uid = row.from_uid ∧ r.to_uid = row.to_uid then none
    else some { c with friendships := some (rows ++ [row]) }

/-- `UPDATE friendships SET ... WHERE p`. -/
def updateFriendships (p : FriendshipRow → Bool) (u : FriendshipRow → FriendshipRow)
    (c : Content) : Option Content :=
  c.friendships.map fun rows =>
    { c with friendships := some (rows.map fun r => if p r then u r else r) }

/-- `DELETE FROM friendships WHERE p`. -/
def deleteFriendships (p : FriendshipRow → Bool) (c : Content) : Option Content :=
  c.friendships.map fun rows => { c with friendships := some (rows.filter fun r => !p r) }

end Content

/-- A connection: the file, and the contents as the open transaction sees them. -/
structure Sqlite where
  file : Content
  transaction : Option Content

namespace Sqlite

/-- What a statement on the connection sees. -/
def view (s : Sqlite) : Content := s.transaction.getD s.file

/-- `BEGIN TRANSACTION`, an error inside a transaction. -/
def begin (s : Sqlite) : Option Sqlite :=
  match s.transaction with
  | none => some { s with transaction := some s.file }
  | some _ => none

/-- `COMMIT`. -/
def commit (s : Sqlite) : Option Sqlite := s.transaction.map fun c => ⟨c, none⟩

/-- `ROLLBACK`. -/
def rollback (s : Sqlite) : Option Sqlite := s.transaction.map fun _ => ⟨s.file, none⟩

/-- A statement that changes the contents. -/
def write (change : Content → Option Content) (s : Sqlite) : Option Sqlite :=
  match s.transaction with
  | none => (change s.file).map fun c => ⟨c, none⟩
  | some t => (change t).map fun c => ⟨s.file, some c⟩

/-- `sqlite3_close` rolls an open transaction back. -/
def close (s : Sqlite) : Sqlite := ⟨s.file, none⟩

end Sqlite

end LanChat
