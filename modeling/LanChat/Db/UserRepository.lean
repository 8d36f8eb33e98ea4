import LanChat.Db.Crypto

/-!
# The user repository
-/

namespace LanChat

open Lib Json

namespace UserRepository

open Database

variable (env : Env)

def passwordVersion (row : Row) : Int32 :=
  match row.find? (lit "password_version") with
  | some v => if v.isNumber then v.asInt.toInt32 else 0
  | none => 0

def userFromRow (r : Row) : Except Exn UserInfo := do
  let id ← atField r "id"
  let hash ← atField r "password_hash"
  let nickname ← atField r "nickname"
  let avatar ← atField r "avatar_id"
  .ok ⟨id.asInt.toInt32, hash.asString, nickname.asString, avatar.asInt.toInt32⟩

/-- `r.at("id").as_int() == id`. -/
def hasId (id : Int32) (r : Row) : Except Exn Bool :=
  (atField r "id").map fun v => v.asInt = id.toInt64

def findById (id : Int32) : DbM (Option UserInfo) := do
  let rows ← query env .users (hasId id)
  match rows with
  | [] => pure none
  | row :: _ => do
    let user ← Cmd.ofExcept (userFromRow row)
    pure (some user)

def findByNickname (nickname : Bytes) : DbM (Option UserInfo) := do
  let rows ← query env .users fun r => (atField r "nickname").map fun v => v.asString = nickname
  match rows with
  | [] => pure none
  | row :: _ => do
    let user ← Cmd.ofExcept (userFromRow row)
    pure (some user)

/-- The loop of `create` that finds an unused id. -/
def nextUserId : Int32 → RowList → Except Exn Int32
  | maxId, [] => .ok maxId
  | maxId, r :: rest => do
    let v ← atField r "id"
    let rid := v.asInt.toInt32
    nextUserId (if maxId ≤ rid then rid + 1 else maxId) rest

def newUserRow (id : Int32) (hash nickname : Bytes) (avatarId : Int32) (now : Int64) : Row :=
  object [("id", ofInt32 id), ("password_hash", .str hash), ("password_version", .int 1),
    ("nickname", .str nickname), ("avatar_id", ofInt32 avatarId), ("created_at", .int now),
    ("last_seen_at", .int 0), ("is_online", .int 0)]

def create (password nickname : Bytes) (avatarId : Int32) : DbM Int32 := do
  let existing ← findByNickname env nickname
  match existing with
  | some _ => pure (-1)
  | none => do
    let all ← queryAll env .users
    let id ← Cmd.ofExcept (nextUserId 1000 all)
    let hash ← bcryptHashPassword env password 12
    let now ← time env
    insert env .users (newUserRow id hash nickname avatarId now)
    pure id

def verifyPassword (userId : Int32) (password : Bytes) : DbM Bool := do
  let rows ← query env .users (hasId userId)
  match rows with
  | [] => pure false
  | row :: _ => do
    let hash ← Cmd.ofExcept (atField row "password_hash")
    let stored := hash.asString
    if 1 ≤ passwordVersion row then pure (bcryptVerifyPassword env password stored)
    else if !Sha256.verifyHash password stored then pure false
    else do
      let upgraded ← bcryptHashPassword env password 12
      let _ ← update env .users (hasId userId) fun r =>
        (r.put (lit "password_hash") (.str upgraded)).put (lit "password_version") (.int 1)
      pure true

def updateProfile (userId : Int32) (nickname : Bytes) (avatarId : Int32) : DbM Bool :=
  update env .users (hasId userId) fun r =>
    (r.put (lit "nickname") (.str nickname)).put (lit "avatar_id") (ofInt32 avatarId)

def setOnlineStatus (userId : Int32) (online : Bool) : DbM Unit := do
  let now ← time env
  let _ ← update env .users (hasId userId) fun r =>
    let r := r.put (lit "is_online") (.int (if online then 1 else 0))
    if online then r.put (lit "last_seen_at") (.int now) else r
  pure ()

def usersFromRows : RowList → Except Exn (List UserInfo)
  | [] => .ok []
  | r :: rest => do
    let user ← userFromRow r
    let users ← usersFromRows rest
    .ok (user :: users)

def getAllUsers : DbM (List UserInfo) := do
  let rows ← queryAll env .users
  Cmd.ofExcept (usersFromRows rows)

/-! ## Tables other than `users` -/

section Frames

variable {env} {other : TableName}

theorem spares_hashPassword (password : Bytes) (cost : Nat) :
    Spares other (bcryptHashPassword env password cost) := by
  refine Spares.bind (.of_sqlite (fun _ => rfl) fun _ => rfl) fun salt => ?_
  split
  · exact spares_pure _
  split
  · exact spares_pure _
  · exact spares_pure _

variable (h : other ≠ .users)

include h

theorem spares_findByNickname (nickname : Bytes) : Spares other (findByNickname env nickname) := by
  refine (spares_query h _).bind fun rows => ?_
  cases rows with
  | nil => exact spares_pure none
  | cons row rest => exact (spares_ofExcept _).bind fun _ => spares_pure _

theorem spares_create (password nickname : Bytes) (avatarId : Int32) :
    Spares other (create env password nickname avatarId) := by
  refine (spares_findByNickname h nickname).bind fun existing => ?_
  cases existing with
  | some _ => exact spares_pure _
  | none =>
    refine ((spares_loadTable h).bind fun _ => spares_asks _).bind fun all => (spares_ofExcept _).bind fun id => ?_
    exact (spares_hashPassword password 12).bind fun _ => spares_time.bind fun _ =>
      (spares_insert h _).bind fun _ => spares_pure _

theorem spares_verifyPassword (userId : Int32) (password : Bytes) :
    Spares other (verifyPassword env userId password) := by
  refine (spares_query h _).bind fun rows => ?_
  cases rows with
  | nil => exact spares_pure false
  | cons row rest =>
    refine (spares_ofExcept _).bind fun _ => (spares_pure _).ite <| (spares_pure false).ite ?_
    exact (spares_hashPassword password 12).bind fun _ => (spares_update h _ _).bind fun _ => spares_pure true

theorem spares_updateProfile (userId : Int32) (nickname : Bytes) (avatarId : Int32) :
    Spares other (updateProfile env userId nickname avatarId) :=
  spares_update h _ _

theorem spares_setOnlineStatus (userId : Int32) (online : Bool) :
    Spares other (setOnlineStatus env userId online) :=
  spares_time.bind fun _ => (spares_update h _ _).bind fun _ => spares_pure ()

end Frames

end UserRepository

end LanChat
