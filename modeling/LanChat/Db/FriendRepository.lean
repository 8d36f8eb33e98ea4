import LanChat.Db.UserRepository

/-!
# The friendship repository

`FriendRepository` talks to SQLite directly; its table is not kept in memory.
-/

namespace LanChat

open Lib Json

namespace FriendRepository

open Database

variable (env : Env)

def isPair (fromUid toUid : Int32) (r : FriendshipRow) : Bool :=
  r.from_uid = fromUid && r.to_uid = toUid

def concerns (uidA uidB : Int32) (r : FriendshipRow) : Bool :=
  isPair uidA uidB r || isPair uidB uidA r

/-- `sqlite3_prepare_v2` on a statement over `friendships`. -/
def prepareFriendships : DbM Bool := do
  let serves ← call env
  let known ← Cmd.asks fun db => db.sqlite.view.friendships.isSome
  pure (serves && known)

/-- The rows that a `SELECT` on `friendships` returns, in the order of this call. -/
def select (p : FriendshipRow → Bool) : DbM (List FriendshipRow) := Cmd.asks fun db =>
  env.scan db.calls ((db.sqlite.view.friendships.getD []).filter p)

/-- The row that `SELECT ... LIMIT 1` returns, if the step succeeds. -/
def selectOne (p : FriendshipRow → Bool) : DbM (Option FriendshipRow) := do
  let found ← select env p
  let stepped ← call env
  pure (if stepped then found.head? else none)

/-- A prepared `UPDATE` and its step: does it change some row? -/
def updateWhere (p : FriendshipRow → Bool) (u : FriendshipRow → FriendshipRow) : DbM Bool := do
  let prepared ← prepareFriendships env
  if !prepared then pure false
  else do
    let changes ← Cmd.asks fun db => (db.sqlite.view.friendships.getD []).any p
    let stepped ← exec env (Sqlite.write (Content.updateFriendships p u))
    pure (stepped && changes)

/-- `static_cast<int>(std::time(nullptr))`. -/
def now : DbM Int32 := do
  let t ← time env
  pure t.toInt32

def isPending (fromUid toUid : Int32) (r : FriendshipRow) : Bool :=
  isPair fromUid toUid r && r.status = .pending

/-- The row that `sendRequest` inserts. -/
def pendingRow (fromUid toUid : Int32) (requestMsg : Bytes) (at_ : Int32) : FriendshipRow :=
  ⟨fromUid, toUid, .pending, requestMsg, at_, at_⟩

def insertRequest (fromUid toUid : Int32) (requestMsg : Bytes) (at_ : Int32) : DbM Bool := do
  let prepared ← prepareFriendships env
  if !prepared then pure false
  else
    exec env (Sqlite.write
      (Content.insertFriendship (pendingRow fromUid toUid requestMsg at_)))

def sendRequest (fromUid toUid : Int32) (requestMsg : Bytes) : DbM Bool := do
  if fromUid ≤ 0 ∨ toUid ≤ 0 ∨ fromUid = toUid then pure false
  else do
    let at_ ← now env
    let prepared ← prepareFriendships env
    if !prepared then pure false
    else do
      let existing ← selectOne env (concerns fromUid toUid)
      match existing with
      | none => insertRequest env fromUid toUid requestMsg at_
      | some row =>
        match row.status with
        | .accepted => pure false
        | .rejected =>
          -- a rejection blocks the rejected requester only
          if isPair fromUid toUid row then pure false
          else insertRequest env fromUid toUid requestMsg at_
        | .pending =>
          if !isPair fromUid toUid row then pure false
          else
            updateWhere env (isPending fromUid toUid)
              fun r => { r with request_msg := requestMsg, updated_at := at_ }

def setStatus (fromUid toUid : Int32) (status : FriendshipStatus) : DbM Bool := do
  let at_ ← now env
  updateWhere env (isPending fromUid toUid) fun r => { r with status := status, updated_at := at_ }

def acceptRequest (fromUid toUid : Int32) : DbM Bool := setStatus env fromUid toUid .accepted

def rejectRequest (fromUid toUid : Int32) : DbM Bool := setStatus env fromUid toUid .rejected

def removeFriendship (uidA uidB : Int32) : DbM Bool := do
  let prepared ← prepareFriendships env
  if !prepared then pure false
  else do
    let changes ← Cmd.asks fun db =>
      (db.sqlite.view.friendships.getD []).any (concerns uidA uidB)
    let stepped ← exec env (Sqlite.write (Content.deleteFriendships (concerns uidA uidB)))
    pure (stepped && changes)

def areFriends (uidA uidB : Int32) : DbM Bool := do
  let prepared ← prepareFriendships env
  if !prepared then pure false
  else do
    let found ← selectOne env fun r => r.status = .accepted && concerns uidA uidB r
    pure found.isSome

/-- `CASE WHEN from_uid = uid THEN to_uid ELSE from_uid END`. -/
def friendOf (uid : Int32) (r : FriendshipRow) : Int32 :=
  if r.from_uid = uid then r.to_uid else r.from_uid

/-- The `sqlite3_step` loop of `getFriends`. -/
def friendsFrom (uid : Int32) : List FriendshipRow → DbM (List UserInfo)
  | [] => do
    let _ ← call env
    pure []
  | row :: rest => do
    let stepped ← call env
    if stepped then do
      let user ← UserRepository.findById env (friendOf uid row)
      let users ← friendsFrom uid rest
      pure (user.toList ++ users)
    else pure []

def getFriends (uid : Int32) : DbM (List UserInfo) := do
  let prepared ← prepareFriendships env
  if !prepared then pure []
  else do
    let found ← select env fun r => r.status = .accepted && (r.from_uid = uid || r.to_uid = uid)
    friendsFrom env uid found

end FriendRepository

end LanChat
