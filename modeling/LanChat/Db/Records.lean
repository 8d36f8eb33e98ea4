import Mathlib.Data.List.Sort
import LanChat.Protocol

/-!
# Records and the environment

The records the repositories hand out, and everything the server asks its
environment for: the clock, entropy, bcrypt, the outcome of each SQLite call,
and the orders that the C++ standard and SQL leave open.
-/

namespace LanChat

open Json

/-- `protocol::UserInfo`. -/
structure UserInfo where
  id : Int32
  password : Bytes
  nickname : Bytes
  avatar_id : Int32

/-- `db::ChannelInfo`. -/
structure ChannelInfo where
  group_id : Int32
  host_id : Int32
  name : Bytes

/-- `db::StoredMessage`. -/
structure StoredMessage where
  msg_id : Int64
  from_id : Int32
  to_id : Int32
  group_id : Int32
  content : Bytes
  content_type : Bytes
  timestamp : Int64
  delivered : Bool
  read : Bool
  edited : Bool
  deleted : Bool
  edited_at : Int64
  deleted_at : Int64
  reactions : Bytes
deriving DecidableEq

/-- The values that the `CHECK` on `friendships.status` admits. -/
inductive FriendshipStatus where
  | pending
  | accepted
  | rejected
deriving DecidableEq, Repr

/-- A row of the table `friendships`. -/
structure FriendshipRow where
  from_uid : Int32
  to_uid : Int32
  status : FriendshipStatus
  request_msg : Bytes
  created_at : Int32
  updated_at : Int32
deriving DecidableEq

/-- The id of an `AsyncSession`. -/
abbrev SessionId := Nat

/-- What escapes from a function as a C++ exception. -/
inductive Exn where
  /-- `vendor::json::parse` on a stored row, or the end of the stack on a request, which
  is no exception but ends the process as well -/
  | json (fault : Fault)
  /-- `std::map::at` -/
  | outOfRange
  /-- `FrameCodec::encode` -/
  | frameTooLarge
deriving DecidableEq, Repr

/-- No access to the database ends so. -/
def Exn.OutsideDb (e : Exn) : Prop := e = .frameTooLarge ∨ e = .json .stackOverflow

/-- The environment of the server process.

* `time n`: the n-th reading of `std::time(nullptr)`; `entropy n`: the n-th draw.
* `crypt_gensalt_rn`, `crypt_rn`: the bcrypt library.
* `sqliteFails n`: whether the n-th SQLite call returns an error.
* `scan n rows`: the order in which the n-th call returns the rows of a `SELECT`
  on `friendships` (it has no `ORDER BY`).
* `sort`: what `std::sort` by timestamp makes of a list (it is not stable).
* `order`: the order in which an `unordered_map` with these keys is iterated.
* `stack`: how many calls of `parse_value` inside one another the stack has room for. -/
structure Env where
  time : Nat → Int64
  entropy : Nat → Bytes
  crypt_gensalt_rn : Bytes → Nat → Bytes → Option Bytes
  crypt_rn : Bytes → Bytes → Option Bytes
  sqliteFails : Nat → Bool
  scan : Nat → List FriendshipRow → List FriendshipRow
  scan_perm : ∀ n rows, (scan n rows).Perm rows
  sort : List StoredMessage → List StoredMessage
  sort_perm : ∀ messages, (sort messages).Perm messages
  sort_sorted : ∀ messages, (sort messages).Pairwise fun a b => a.timestamp ≤ b.timestamp
  order : List SessionId → List SessionId
  order_perm : ∀ keys, (order keys).Perm keys
  stack : Nat

namespace Env

/-- Every SQLite call succeeds. -/
def Serves (env : Env) : Prop := ∀ n, env.sqliteFails n = false

/-- An environment in which every call succeeds. Its bcrypt puts the password
in plain text behind the first four characters of the setting. -/
def ideal : Env where
  time n := Int64.ofNat n
  entropy _ := []
  crypt_gensalt_rn prefix_ _ _ := some prefix_
  crypt_rn password setting := some (setting.take 4 ++ password)
  sqliteFails _ := false
  scan _ rows := rows
  scan_perm _ _ := .refl _
  sort messages := messages.insertionSort fun a b => a.timestamp.toInt ≤ b.timestamp.toInt
  sort_perm messages := List.perm_insertionSort _ messages
  sort_sorted messages :=
    have : Std.Total fun a b : StoredMessage => a.timestamp.toInt ≤ b.timestamp.toInt :=
      ⟨fun a b => Int.le_total a.timestamp.toInt b.timestamp.toInt⟩
    have : IsTrans StoredMessage fun a b => a.timestamp.toInt ≤ b.timestamp.toInt :=
      ⟨fun _ _ _ => Int.le_trans⟩
    (List.pairwise_insertionSort _ messages).imp Int64.le_iff_toInt_le.mpr
  order keys := keys
  order_perm _ := .refl _
  stack := 20000

end Env

end LanChat
