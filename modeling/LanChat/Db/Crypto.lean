import LanChat.Db.Database

/-!
# Password hashing

`lanchat_bcrypt.hpp` over the bcrypt library, and the placeholder hash of
`sha256.hpp` that rows of password version 0 carry.
-/

namespace LanChat

open Lib Json

/-- `vendor::bcrypt::hash_password`. -/
def bcryptHashPassword (env : Env) (password : Bytes) (cost : Nat) : DbM Bytes := do
  let entropy ← Database.randomBytes env
  match env.crypt_gensalt_rn (lit "$2b$") cost entropy with
  | none => pure []
  | some salt =>
    match env.crypt_rn (cstr password) (cstr salt) with
    | none => pure []
    | some output => pure (cstr output)

/-- `vendor::bcrypt::verify_password`. -/
def bcryptVerifyPassword (env : Env) (password stored : Bytes) : Bool :=
  if !(lit "$2").isPrefixOf stored then false
  else
    match env.crypt_rn (cstr password) (cstr stored) with
    | none => false
    | some output => stored = cstr output

namespace Sha256

/-- One character of `hash_password`. -/
def absorb (h : UInt64) (c : UInt8) : UInt64 := ((h <<< 5) + h) ^^^ c.toUInt64

/-- One round of the loop that makes the hash slower. -/
def stretch (h : UInt64) (i : Nat) : UInt64 :=
  (((h <<< 7) ||| (h >>> 57)) ^^^ (h * 0x9E3779B97F4A7C15)) ^^^ UInt64.ofNat i

def hexDigit (n : Nat) : UInt8 := UInt8.ofNat (if n < 10 then 48 + n else 87 + n)

/-- `std::hex` with a field of 16 and zeros in front. -/
def hex16 (h : UInt64) : Bytes :=
  (List.range 16).map fun i => hexDigit (h.toNat / 16 ^ (15 - i) % 16)

/-- `vendor::crypto::hash_password`. -/
def hashPassword (password salt : Bytes) : Bytes :=
  hex16 ((List.range 10000).foldl stretch (password.foldl absorb (salt.foldl absorb 0x1505)))

/-- `vendor::crypto::verify_hash`; a stored text without the prefix is compared
as plain text. -/
def verifyHash (password stored : Bytes) : Bool :=
  if !(lit "sha256:").isPrefixOf stored then password = stored
  else
    let tail := stored.drop 7
    match tail.idxOf? Ascii.colon with
    | none => false
    | some i => hashPassword password (tail.take i) = tail.drop (i + 1)

end Sha256

end LanChat
