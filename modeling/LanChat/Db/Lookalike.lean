import LanChat.Db.Access
import LanChat.Db.FriendRepository
import LanChat.Lib.Similar

/-!
# Databases that look alike

Two databases are `Alike` when they hold the same rows, whichever of their tables
are in memory; with `secret`, the columns of a password may differ. As long as
SQLite serves, the repositories answer both in the same way, and leave them
alike. Only the check of a password looks at what may differ.
-/

namespace LanChat

open Lib Json

/-- The columns of a user that its password is checked against. -/
def passwordColumns : List String := ["password_hash", "password_version"]

/-- SQLite returns the same rows in the same order, whenever it is asked. -/
def Env.ScansSteadily (env : Env) : Prop := ∀ n m, env.scan n = env.scan m

namespace Database

/-- The rows are the same; with `secret`, two users are the same up to the password. -/
structure SameRow (secret : Prop) (name : TableName) (row row' : Row) : Prop where
  left : RowShape name row
  right : RowShape name row'
  same : row = row' ∨
    secret ∧ name = .users ∧ ∀ key, key ∉ passwordColumns.map lit → row.find? key = row'.find? key

structure Alike (secret : Prop) (db db' : Database) : Prop where
  rows : ∃ rows rows', db.Holds rows ∧ db'.Holds rows' ∧
    ∀ name, List.Forall₂ (SameRow secret name) (rows name) (rows' name)
  friendships : db.sqlite.file.friendships = db'.sqlite.file.friendships
  readings : db.readings = db'.readings
  draws : ¬secret → db.draws = db'.draws

section Rows

variable {secret : Prop} {name : TableName} {row row' : Row} {rows rows' : RowList}

theorem SameRow.field (h : SameRow secret name row row') {key : Bytes} (hkey : key ∉ passwordColumns.map lit) :
    row.find? key = row'.find? key := by
  rcases h.same with rfl | ⟨-, -, hsame⟩
  · rfl
  · exact hsame key hkey

theorem SameRow.eq (h : SameRow secret name row row') (hname : name ≠ .users) : row = row' :=
  h.same.resolve_right fun h => hname h.2.1

theorem SameRow.eq_of_not (h : SameRow secret name row row') (hsecret : ¬secret) : row = row' :=
  h.same.resolve_right fun h => hsecret h.1

theorem SameRow.symm (h : SameRow secret name row row') : SameRow secret name row' row :=
  ⟨h.right, h.left, h.same.imp Eq.symm fun ⟨hsecret, hname, hkeys⟩ =>
    ⟨hsecret, hname, fun key hkey => (hkeys key hkey).symm⟩⟩

/-- The same value is put into a column of both. -/
theorem SameRow.put (h : SameRow secret name row row') (key : Bytes) {v : Value} (hv : v.Plain) :
    SameRow secret name (row.put key v) (row'.put key v) where
  left := h.left.put key hv
  right := h.right.put key hv
  same := by
    refine h.same.imp (fun heq => by rw [heq]) fun ⟨hsecret, hname, hsame⟩ => ⟨hsecret, hname, fun key' hkey' => ?_⟩
    rw [OrdMap.find?_put, OrdMap.find?_put, hsame key' hkey']

theorem Holds.same {db : Database} {rows : TableName → RowList} (h : db.Holds rows) (name : TableName) :
    List.Forall₂ (SameRow secret name) (rows name) (rows name) :=
  List.forall₂_same.mpr fun row hrow => ⟨h.shape name row hrow, h.shape name row hrow, .inl rfl⟩

theorem shapes_left (h : List.Forall₂ (SameRow secret name) rows rows') : ∀ row ∈ rows, RowShape name row :=
  ((List.forall₂_and_left _ _).mp (h.imp fun _ _ hrow => ⟨hrow.left, hrow⟩)).1

theorem eq_of_same (h : List.Forall₂ (SameRow secret name) rows rows') (hname : name ≠ .users) : rows = rows' := by
  rw [← List.forall₂_eq_eq_eq (α := Row)]
  exact h.imp fun _ _ hrow => hrow.eq hname

theorem any_eq {q : Row → Bool} (h : List.Forall₂ (SameRow secret name) rows rows')
    (hq : ∀ row row', SameRow secret name row row' → q row = q row') : rows.any q = rows'.any q := by
  induction h with
  | nil => rfl
  | cons hrow _ ih => rw [List.any_cons, List.any_cons, hq _ _ hrow, ih]

theorem filter_same {q : Row → Bool} (h : List.Forall₂ (SameRow secret name) rows rows')
    (hq : ∀ row row', SameRow secret name row row' → q row = q row') :
    List.Forall₂ (SameRow secret name) (rows.filter q) (rows'.filter q) :=
  List.rel_filter (fun row row' hrow => by simp only [hq row row' hrow]) h

theorem map_same {q : Row → Bool} {u u' : Row → Row} (h : List.Forall₂ (SameRow secret name) rows rows')
    (hq : ∀ row row', SameRow secret name row row' → q row = q row')
    (hu : ∀ row row', SameRow secret name row row' → SameRow secret name (u row) (u' row')) :
    List.Forall₂ (SameRow secret name) (rows.map fun row => if q row then u row else row)
      (rows'.map fun row => if q row then u' row else row) := by
  refine List.rel_map (fun row row' hrow => ?_) h
  simp only [hq row row' hrow]
  split
  · exact hu row row' hrow
  · exact hrow

end Rows

theorem Alike.symm {secret : Prop} {db db' : Database} (h : Alike secret db db') : Alike secret db' db where
  rows := by
    obtain ⟨rows, rows', hrows, hrows', hsame⟩ := h.rows
    exact ⟨rows', rows, hrows', hrows, fun name => (hsame name).flip.imp fun _ _ => SameRow.symm⟩
  friendships := h.friendships.symm
  readings := h.readings.symm
  draws hsecret := (h.draws hsecret).symm

/-! ## The operations of the document store -/

/-- The commands keep databases alike. -/
abbrev AgreeOn {α β : Type} (secret : Prop) (V : α → β → Prop) (c : DbM α) (d : DbM β) : Prop :=
  Cmd.Agree (Alike secret) (fun _ _ => True) V c d

section Operations

variable {env : Env} {secret : Prop} {name : TableName} {db db' : Database} {rows rows' : TableName → RowList}

theorem Alike.load (h : Alike secret db db') (hrows : db.Holds rows) (hrows' : db'.Holds rows')
    (hsame : ∀ name, List.Forall₂ (SameRow secret name) (rows name) (rows' name)) (name : TableName) (calls calls' : Nat) :
    Alike secret (db.withTable name (rows name) calls) (db'.withTable name (rows' name) calls') :=
  ⟨⟨rows, rows', hrows.load name calls, hrows'.load name calls', hsame⟩, h.friendships, h.readings, h.draws⟩

theorem Alike.store {list list' : RowList} (h : Alike secret db db') (hrows : db.Holds rows) (hrows' : db'.Holds rows')
    (hsame : ∀ name, List.Forall₂ (SameRow secret name) (rows name) (rows' name))
    (hlist : List.Forall₂ (SameRow secret name) list list') (calls calls' : Nat) :
    Alike secret ((db.withDocs name (list.map serialize)).withTable name list calls)
      ((db'.withDocs name (list'.map serialize)).withTable name list' calls') := by
  have hright : ∀ row ∈ list', RowShape name row := shapes_left (hlist.flip.imp fun _ _ => SameRow.symm)
  refine ⟨⟨_, _, hrows.store (shapes_left hlist) calls, hrows'.store hright calls', fun other => ?_⟩, h.friendships,
    h.readings, h.draws⟩
  by_cases hname : other = name
  · subst hname
    rwa [Function.update_self, Function.update_self]
  · rw [Function.update_of_ne hname, Function.update_of_ne hname]
    exact hsame other

variable {p : Row → Except Exn Bool} {q : Row → Bool}

theorem agree_query (henv : env.Serves) (hp : ∀ row, RowShape name row → p row = .ok (q row))
    (hq : ∀ row row', SameRow secret name row row' → q row = q row') :
    AgreeOn secret (List.Forall₂ (SameRow secret name)) (query env name p) (query env name p) :=
  Cmd.agree_of_run fun db db' h => by
    obtain ⟨rows, rows', hrows, hrows', hsame⟩ := h.rows
    obtain ⟨calls, hrun⟩ := run_query henv hrows fun row hrow => hp row (hrows.shape name row hrow)
    obtain ⟨calls', hrun'⟩ := run_query henv hrows' fun row hrow => hp row (hrows'.shape name row hrow)
    exact ⟨_, _, _, _, hrun, hrun', filter_same (hsame name) hq, h.load hrows hrows' hsame name calls calls'⟩

/-- On a table without passwords. -/
theorem agree_query_eq (henv : env.Serves) (hname : name ≠ .users) (q : Row → Bool) :
    AgreeOn secret Eq (query env name fun row => .ok (q row)) (query env name fun row => .ok (q row)) :=
  (agree_query henv (fun _ _ => rfl) fun row row' h => by rw [h.eq hname]).post fun _ _ h => eq_of_same h hname

theorem agree_queryAll (henv : env.Serves) (name : TableName) :
    AgreeOn secret (List.Forall₂ (SameRow secret name)) (queryAll env name) (queryAll env name) :=
  Cmd.agree_of_run fun db db' h => by
    obtain ⟨rows, rows', hrows, hrows', hsame⟩ := h.rows
    obtain ⟨calls, hrun⟩ := run_queryAll henv hrows name
    obtain ⟨calls', hrun'⟩ := run_queryAll henv hrows' name
    exact ⟨_, _, _, _, hrun, hrun', hsame name, h.load hrows hrows' hsame name calls calls'⟩

theorem agree_insert (henv : env.Serves) {row row' : Row} (hrow : SameRow secret name row row') :
    AgreeOn secret Eq (insert env name row) (insert env name row') :=
  Cmd.agree_of_run fun db db' h => by
    obtain ⟨rows, rows', hrows, hrows', hsame⟩ := h.rows
    obtain ⟨calls, hrun⟩ := run_insert henv hrows name row
    obtain ⟨calls', hrun'⟩ := run_insert henv hrows' name row'
    exact ⟨_, _, _, _, hrun, hrun', rfl, h.store hrows hrows' hsame
      (List.rel_append (hsame name) (.cons hrow .nil)) calls calls'⟩

theorem agree_insert_eq (henv : env.Serves) {row : Row} (hrow : RowShape name row) :
    AgreeOn secret Eq (insert env name row) (insert env name row) :=
  agree_insert henv ⟨hrow, hrow, .inl rfl⟩

theorem agree_update (henv : env.Serves) (hp : ∀ row, RowShape name row → p row = .ok (q row))
    (hq : ∀ row row', SameRow secret name row row' → q row = q row') {u u' : Row → Row}
    (hu : ∀ row row', SameRow secret name row row' → SameRow secret name (u row) (u' row')) :
    AgreeOn secret Eq (update env name p u) (update env name p u') :=
  Cmd.agree_of_run fun db db' h => by
    obtain ⟨rows, rows', hrows, hrows', hsame⟩ := h.rows
    obtain ⟨calls, hrun⟩ := run_update henv hrows (fun row hrow => hp row (hrows.shape name row hrow)) u
    obtain ⟨calls', hrun'⟩ := run_update henv hrows' (fun row hrow => hp row (hrows'.shape name row hrow)) u'
    exact ⟨_, _, _, _, hrun, hrun', any_eq (hsame name) hq, h.store hrows hrows' hsame
      (map_same (hsame name) hq hu) calls calls'⟩

theorem agree_update_eq (henv : env.Serves) (hname : name ≠ .users) (q : Row → Bool) {u : Row → Row}
    (hu : ∀ row, RowShape name row → RowShape name (u row)) :
    AgreeOn secret Eq (update env name (fun row => .ok (q row)) u) (update env name (fun row => .ok (q row)) u) :=
  agree_update henv (fun _ _ => rfl) (fun row row' h => by rw [h.eq hname]) fun row row' h =>
    ⟨hu row h.left, hu row' h.right, .inl (congrArg u (h.eq hname))⟩

theorem agree_remove_eq (henv : env.Serves) (hname : name ≠ .users) (q : Row → Bool) :
    AgreeOn secret Eq (remove env name q) (remove env name q) :=
  Cmd.agree_of_run fun db db' h => by
    obtain ⟨rows, rows', hrows, hrows', hsame⟩ := h.rows
    obtain ⟨calls, hrun⟩ := run_remove henv hrows name q
    obtain ⟨calls', hrun'⟩ := run_remove henv hrows' name q
    have hq : ∀ row row', SameRow secret name row row' → q row = q row' := fun _ _ h => by rw [h.eq hname]
    exact ⟨_, _, _, _, hrun, hrun', any_eq (hsame name) hq, h.store hrows hrows' hsame
      (filter_same (hsame name) fun row row' h => by rw [hq row row' h]) calls calls'⟩

/-- The counters of what has been read say nothing about the rows. -/
theorem Alike.counters (h : Alike secret db db') {calls calls' readings readings' draws draws' : Nat}
    (hreadings : readings = readings') (hdraws : ¬secret → draws = draws') :
    Alike secret { db with calls := calls, readings := readings, draws := draws }
      { db' with calls := calls', readings := readings', draws := draws' } := by
  obtain ⟨rows, rows', hrows, hrows', hsame⟩ := h.rows
  exact ⟨⟨rows, rows', hrows.of_eq rfl rfl, hrows'.of_eq rfl rfl, hsame⟩, h.friendships, hreadings, hdraws⟩

theorem agree_time (env : Env) : AgreeOn secret Eq (time env) (time env) :=
  Cmd.agree_of_run fun db db' h => ⟨_, _, _, _, run_time db, run_time db', by rw [h.readings],
    h.counters (congrArg (· + 1) h.readings) h.draws⟩

theorem agree_randomBytes (env : Env) : AgreeOn secret (fun a b => ¬secret → a = b) (randomBytes env) (randomBytes env) :=
  Cmd.agree_of_run fun _ _ h => ⟨_, _, _, _, rfl, rfl, fun hsecret => by rw [h.draws hsecret],
    h.counters h.readings fun hsecret => congrArg (· + 1) (h.draws hsecret)⟩

end Operations

end Database

open Database

/-! ## Users -/

/-- What others see of a user. -/
structure SameUser (user user' : UserInfo) : Prop where
  id : user.id = user'.id
  nickname : user.nickname = user'.nickname
  avatar_id : user.avatar_id = user'.avatar_id

namespace UserRepository

section Users

variable {env : Env} {secret : Prop} {row row' : Row} {rows rows' : RowList}

theorem exists_atField (h : RowShape .users row) {key : String} (hkey : key ∈ userFields) :
    ∃ v, row.find? (lit key) = some v ∧ atField row key = .ok v := by
  obtain ⟨v, hv⟩ := Option.isSome_iff_exists.mp (h.user rfl key hkey)
  exact ⟨v, hv, by rw [atField, hv]⟩

/-- A user row has the columns that are read. -/
theorem atField_same (h : SameRow secret .users row row') {key : String} (hkey : key ∈ userFields)
    (hshown : lit key ∉ passwordColumns.map lit) : ∃ v, atField row key = .ok v ∧ atField row' key = .ok v := by
  obtain ⟨v, hv, hat⟩ := exists_atField h.left hkey
  refine ⟨v, hat, ?_⟩
  rw [atField, ← h.field hshown, hv]

theorem ends_userFromRow (h : SameRow secret .users row row') :
    Ends SameUser True (userFromRow row) (userFromRow row') := by
  obtain ⟨id, hid, hid'⟩ := atField_same h (by decide : "id" ∈ userFields) (by decide)
  obtain ⟨nickname, hnickname, hnickname'⟩ := atField_same h (by decide : "nickname" ∈ userFields) (by decide)
  obtain ⟨avatar, havatar, havatar'⟩ := atField_same h (by decide : "avatar_id" ∈ userFields) (by decide)
  obtain ⟨hash, -, hhash⟩ := exists_atField h.left (by decide : "password_hash" ∈ userFields)
  obtain ⟨hash', -, hhash'⟩ := exists_atField h.right (by decide : "password_hash" ∈ userFields)
  rw [userFromRow, userFromRow, hid, hid', hnickname, hnickname', havatar, havatar', hhash, hhash']
  exact .ok ⟨rfl, rfl, rfl⟩

theorem ends_usersFromRows (h : List.Forall₂ (SameRow secret .users) rows rows') :
    Ends (List.Forall₂ SameUser) True (usersFromRows rows) (usersFromRows rows') := by
  induction h with
  | nil => exact .ok .nil
  | cons hrow _ ih => exact (ends_userFromRow hrow).bind fun _ _ huser => ih.bind fun _ _ husers => .ok (.cons huser husers)

theorem hasId_ok (id : Int32) (h : RowShape .users row) : hasId id row = .ok (decided (hasId id) row) := by
  obtain ⟨v, -, hv⟩ := exists_atField h (by decide : "id" ∈ userFields)
  simp only [hasId, decided, hv, Except.map]

theorem decided_hasId (id : Int32) (h : SameRow secret .users row row') :
    decided (hasId id) row = decided (hasId id) row' := by
  obtain ⟨v, hv, hv'⟩ := atField_same h (by decide : "id" ∈ userFields) (by decide)
  simp only [decided, hasId, hv, hv']

/-- The user of the first row, if there is one. -/
theorem agree_firstUser {c d : DbM RowList} (h : AgreeOn secret (List.Forall₂ (SameRow secret .users)) c d) :
    AgreeOn secret (Option.Rel SameUser)
      (do
        let rows ← c
        match rows with
        | [] => pure none
        | row :: _ => do
          let user ← Cmd.ofExcept (userFromRow row)
          pure (some user))
      (do
        let rows ← d
        match rows with
        | [] => pure none
        | row :: _ => do
          let user ← Cmd.ofExcept (userFromRow row)
          pure (some user)) := by
  refine h.bind fun rows rows' hrows => ?_
  cases hrows with
  | nil => exact Cmd.agree_pure .none
  | cons hrow _ =>
    exact (Cmd.agree_ofExcept (ends_userFromRow hrow)).bind fun _ _ huser => Cmd.agree_pure (.some huser)

variable (henv : env.Serves)

include henv

theorem agree_queryUser (id : Int32) :
    AgreeOn secret (List.Forall₂ (SameRow secret .users)) (query env .users (hasId id)) (query env .users (hasId id)) :=
  agree_query henv (fun _ h => hasId_ok id h) fun _ _ h => decided_hasId id h

theorem agree_findById (id : Int32) : AgreeOn secret (Option.Rel SameUser) (findById env id) (findById env id) :=
  agree_firstUser (agree_queryUser henv id)

theorem agree_findByNickname (nickname : Bytes) :
    AgreeOn secret (Option.Rel SameUser) (findByNickname env nickname) (findByNickname env nickname) := by
  refine agree_firstUser (agree_query (q := decided fun r => (atField r "nickname").map fun v => v.asString = nickname)
    henv (fun row h => ?_) fun row row' h => ?_)
  · obtain ⟨v, -, hv⟩ := exists_atField h (by decide : "nickname" ∈ userFields)
    simp only [decided, hv, Except.map]
  · obtain ⟨v, hv, hv'⟩ := atField_same h (by decide : "nickname" ∈ userFields) (by decide)
    simp only [decided, hv, hv']

theorem agree_getAllUsers : AgreeOn secret (List.Forall₂ SameUser) (getAllUsers env) (getAllUsers env) :=
  (agree_queryAll henv .users).bind fun _ _ hrows => Cmd.agree_ofExcept (ends_usersFromRows hrows)

theorem agree_updateUser (id : Int32) {u u' : Row → Row}
    (hu : ∀ row row', SameRow secret .users row row' → SameRow secret .users (u row) (u' row')) :
    AgreeOn secret Eq (update env .users (hasId id) u) (update env .users (hasId id) u') :=
  agree_update henv (fun _ h => hasId_ok id h) (fun _ _ h => decided_hasId id h) hu

theorem agree_updateProfile (userId : Int32) (nickname : Bytes) (avatarId : Int32) :
    AgreeOn secret Eq (updateProfile env userId nickname avatarId) (updateProfile env userId nickname avatarId) :=
  agree_updateUser henv userId fun _ _ h => (h.put _ (.str _)).put _ (.int _)

theorem agree_setOnlineStatus (userId : Int32) (online : Bool) :
    AgreeOn secret Eq (setOnlineStatus env userId online) (setOnlineStatus env userId online) := by
  refine (agree_time env).bind_eq fun now => (agree_updateUser henv userId fun row row' h => ?_).bind_eq fun _ =>
    Cmd.agree_pure rfl
  cases online with
  | false => exact h.put _ (.int 0)
  | true => exact (h.put _ (.int 1)).put _ (.int now)

/-! ### Passwords -/

omit henv in
theorem ends_nextUserId (h : List.Forall₂ (SameRow secret .users) rows rows') (maxId : Int32) :
    Ends Eq True (nextUserId maxId rows) (nextUserId maxId rows') := by
  induction h generalizing maxId with
  | nil => exact .ok rfl
  | cons hrow _ ih =>
    obtain ⟨v, hv, hv'⟩ := atField_same hrow (by decide : "id" ∈ userFields) (by decide)
    rw [nextUserId, nextUserId, hv, hv']
    exact ih _

omit henv in
/-- Hashing draws entropy, and the rest is a function of it. -/
theorem exists_hash (password : Bytes) (cost : Nat) : ∃ hash : Bytes → Bytes,
    bcryptHashPassword env password cost = randomBytes env >>= fun entropy => pure (hash entropy) := by
  refine ⟨fun entropy => (env.crypt_gensalt_rn (lit "$2b$") cost entropy).elim [] fun salt =>
    (env.crypt_rn (cstr password) (cstr salt)).elim [] cstr, ?_⟩
  unfold bcryptHashPassword
  congr 1
  funext entropy
  cases hsalt : env.crypt_gensalt_rn (lit "$2b$") cost entropy with
  | none => simp only [hsalt, Option.elim_none]
  | some salt =>
    cases hcrypt : env.crypt_rn (cstr password) (cstr salt) with
    | none => simp only [hsalt, hcrypt, Option.elim_some, Option.elim_none]
    | some output => simp only [hsalt, hcrypt, Option.elim_some]

omit henv in
theorem agree_hashPassword (password : Bytes) (cost : Nat) : AgreeOn secret (fun a b => ¬secret → a = b)
    (bcryptHashPassword env password cost) (bcryptHashPassword env password cost) := by
  obtain ⟨hash, heq⟩ := @exists_hash env password cost
  rw [heq]
  exact (agree_randomBytes env).bind fun a b hab => Cmd.agree_pure fun hsecret => by rw [hab hsecret]

omit henv in
theorem newUserRow_same (id : Int32) {hash hash' : Bytes} (nickname : Bytes) (avatarId : Int32) (now : Int64)
    (h : ¬secret → hash = hash') : SameRow secret .users (newUserRow id hash nickname avatarId now)
      (newUserRow id hash' nickname avatarId now) where
  left := newUserRow_shape id hash nickname avatarId now
  right := newUserRow_shape id hash' nickname avatarId now
  same := by
    by_cases hsecret : secret
    · refine .inr ⟨hsecret, rfl, fun key hkey => ?_⟩
      have hne : key ≠ lit "password_hash" := fun h => hkey (h ▸ by decide)
      simp [newUserRow, find?_object, List.find?_cons, hne.symm]
    · exact .inl (by rw [h hsecret])

theorem agree_create (password nickname : Bytes) (avatarId : Int32) :
    AgreeOn secret Eq (create env password nickname avatarId) (create env password nickname avatarId) := by
  refine (agree_findByNickname henv nickname).bind fun existing existing' hexisting => ?_
  cases hexisting with
  | some _ => exact Cmd.agree_pure rfl
  | none =>
    exact (agree_queryAll henv .users).bind fun _ _ hrows => (Cmd.agree_ofExcept (ends_nextUserId hrows 1000)).bind_eq
      fun id => (agree_hashPassword password 12).bind fun _ _ hhash => (agree_time env).bind_eq fun now =>
        (agree_insert henv (newUserRow_same id nickname avatarId now hhash)).bind_eq fun _ => Cmd.agree_pure rfl

/-- The updater of `verifyPassword`. -/
def upgraded (hash : Bytes) (row : Row) : Row :=
  (row.put (lit "password_hash") (.str hash)).put (lit "password_version") (.int 1)

omit henv in
/-- An upgraded password is all that changes in the row. -/
theorem upgraded_left (hsecret : secret) (h : SameRow secret .users row row') (hash : Bytes) :
    SameRow secret .users (upgraded hash row) row' where
  left := (h.left.put _ (.str _)).put _ (.int _)
  right := h.right
  same := by
    refine .inr ⟨hsecret, rfl, fun key hkey => ?_⟩
    have hhash : key ≠ lit "password_hash" := fun h => hkey (h ▸ by decide)
    have hversion : key ≠ lit "password_version" := fun h => hkey (h ▸ by decide)
    simp only [upgraded, OrdMap.find?_put, hhash, hversion, if_false, h.field hkey]

omit henv in
theorem upgraded_same (h : SameRow secret .users row row') {hash hash' : Bytes} (hhash : ¬secret → hash = hash') :
    SameRow secret .users (upgraded hash row) (upgraded hash' row') := by
  by_cases hsecret : secret
  · exact (upgraded_left hsecret (upgraded_left hsecret h hash).symm hash').symm
  · rw [hhash hsecret]
    exact (h.put _ (.str _)).put _ (.int _)

/-- With the same password columns, a password is checked in the same way. -/
theorem agree_verifyPassword (hsecret : ¬secret) (userId : Int32) (password : Bytes) :
    AgreeOn secret Eq (verifyPassword env userId password) (verifyPassword env userId password) := by
  refine (agree_queryUser henv userId).bind fun rows rows' hrows => ?_
  cases hrows with
  | nil => exact Cmd.agree_pure rfl
  | @cons row row' _ _ hrow _ =>
    cases hrow.eq_of_not hsecret
    obtain ⟨hash, -, hhash⟩ := exists_atField hrow.left (by decide : "password_hash" ∈ userFields)
    have hends : Ends Eq True (atField row "password_hash") (atField row "password_hash") := by
      rw [hhash]
      exact .ok rfl
    refine (Cmd.agree_ofExcept hends).bind_eq fun hash => (Cmd.agree_pure rfl).ite <| (Cmd.agree_pure rfl).ite ?_
    exact (agree_hashPassword password 12).bind fun _ _ hupgraded =>
      (agree_updateUser henv userId fun _ _ h => upgraded_same h hupgraded).bind_eq fun _ => Cmd.agree_pure rfl

/-- Checking a password changes nothing but password columns. -/
theorem run_verifyPassword (hsecret : secret) {db db' : Database} (h : Alike secret db db') (userId : Int32)
    (password : Bytes) :
    ∃ verified db₁, verifyPassword env userId password db = ⟨.ok verified, db₁, []⟩ ∧ Alike secret db₁ db' := by
  obtain ⟨rows, rows', hrows, hrows', hsame⟩ := h.rows
  obtain ⟨calls, hquery⟩ := run_query henv hrows fun row hrow => hasId_ok userId (hrows.shape .users row hrow)
  have hdb : ∀ db₁ : Database, db₁.Holds rows → db₁.sqlite = db.sqlite → db₁.readings = db.readings →
      Alike secret db₁ db' := fun db₁ hdb₁ hsqlite hreadings =>
    ⟨⟨rows, rows', hdb₁, hrows', hsame⟩, hsqlite ▸ h.friendships, hreadings.trans h.readings, fun h => absurd hsecret h⟩
  have hloaded := hdb _ (hrows.load .users calls) rfl rfl
  unfold verifyPassword
  rw [Cmd.bind_of_run _ hquery]
  cases hfound : (rows .users).filter (decided (hasId userId)) with
  | nil => exact ⟨false, _, rfl, hloaded⟩
  | cons row rest =>
    have hmem : row ∈ (rows .users).filter (decided (hasId userId)) := hfound ▸ List.mem_cons_self
    obtain ⟨stored, -, hstored⟩ :=
      exists_atField (hrows.shape .users row (List.mem_filter.mp hmem).1) (by decide : "password_hash" ∈ userFields)
    dsimp only
    rw [hstored, Cmd.bind_of_run _ (Cmd.ofExcept_apply ..)]
    split
    · exact ⟨_, _, rfl, hloaded⟩
    split
    · exact ⟨_, _, rfl, hloaded⟩
    obtain ⟨hash, heq⟩ := @exists_hash env password 12
    have hdrawn : bcryptHashPassword env password 12 (db.withTable .users (rows .users) calls) =
        ⟨.ok (hash (env.entropy db.draws)), { db.withTable .users (rows .users) calls with draws := db.draws + 1 }, []⟩ := by
      rw [heq]
      rfl
    have hholds : Database.Holds rows { db.withTable .users (rows .users) calls with draws := db.draws + 1 } :=
      (hrows.load .users calls).of_eq rfl rfl
    obtain ⟨calls', hupdate⟩ := run_update henv hholds
      (fun row hrow => hasId_ok userId (hrows.shape .users row hrow)) (upgraded (hash (env.entropy db.draws)))
    have hlist : List.Forall₂ (SameRow secret .users) ((rows .users).map fun row =>
        if decided (hasId userId) row then upgraded (hash (env.entropy db.draws)) row else row) (rows' .users) :=
      List.forall₂_map_left_iff.mpr <| (hsame .users).imp fun row row' hrow => by
        split
        · exact upgraded_left hsecret hrow _
        · exact hrow
    rw [Cmd.bind_of_run _ hdrawn]
    refine ⟨true, _, Cmd.bind_of_run (fun _ => pure true) hupdate,
      ⟨_, rows', hholds.store (shapes_left hlist) calls', hrows', fun name => ?_⟩, h.friendships, h.readings,
      fun h => absurd hsecret h⟩
    by_cases hname : name = .users
    · subst hname
      rwa [Function.update_self]
    · rw [Function.update_of_ne hname]
      exact hsame name

/-- Where a password is decided alike, nothing else is told apart. -/
theorem similar_verifyPassword (userId : Int32) (password : Bytes) :
    Cmd.Similar
      (fun db db' => Alike secret db db' ∧ (secret →
        (verifyPassword env userId password db).result = (verifyPassword env userId password db').result))
      (verifyPassword env userId password) (verifyPassword env userId password)
      (fun a b db db' => a = b ∧ Alike secret db db') (Alike secret) fun _ _ => True := by
  rintro db db' ⟨h, hsame⟩
  by_cases hsecret : secret
  · obtain ⟨verified, db₁, hrun, h₁⟩ := run_verifyPassword henv hsecret h userId password
    obtain ⟨verified', db₂, hrun', h₂⟩ := run_verifyPassword henv hsecret h₁.symm userId password
    rw [hrun, hrun'] at hsame
    rw [hrun, hrun']
    exact ⟨.nil, .ok ⟨Except.ok.inj (hsame hsecret), h₂.symm⟩⟩
  · exact agree_verifyPassword henv hsecret userId password db db' h

end Users

end UserRepository

/-! ## Groups -/

namespace ChannelRepository

section Groups

variable {env : Env} {secret : Prop} (henv : env.Serves)

theorem groupRow_shape (group : ChannelInfo) (now : Int64) : RowShape .groups (groupRow group now) := by
  refine .of_object ?_ (by decide)
  simp only [List.mem_cons, List.not_mem_nil, or_false, forall_eq_or_imp, forall_eq]
  exact ⟨.int _, .int _, .str _, .int _⟩

include henv

theorem agree_exists (groupId : Int32) : AgreeOn secret Eq («exists» env groupId) («exists» env groupId) :=
  (agree_query_eq henv (by decide) _).bind_eq fun _ => Cmd.agree_pure rfl

theorem agree_join (userId groupId : Int32) : AgreeOn secret Eq (join env userId groupId) (join env userId groupId) :=
  (agree_exists henv groupId).bind_eq fun _ => (Cmd.agree_pure rfl).ite <|
    (agree_query_eq henv (by decide) _).bind_eq fun _ => (Cmd.agree_pure rfl).ite <| (agree_time env).bind_eq fun now =>
      (agree_insert_eq henv (memberRow_shape userId groupId now)).bind_eq fun _ => Cmd.agree_pure rfl

theorem agree_leave (userId groupId : Int32) : AgreeOn secret Eq (leave env userId groupId) (leave env userId groupId) :=
  agree_remove_eq henv (by decide) _

theorem agree_members (groupId : Int32) : AgreeOn secret Eq (members env groupId) (members env groupId) :=
  (agree_query_eq henv (by decide) _).bind_eq fun _ => Cmd.agree_pure rfl

theorem agree_createGroup (hostId : Int32) (name : Bytes) :
    AgreeOn secret Eq (createGroup env hostId name) (createGroup env hostId name) :=
  ((agree_queryAll henv .groups).bind fun _ _ hrows => Cmd.agree_pure (by rw [eq_of_same hrows (by decide)])).bind_eq
    fun id => (agree_time env).bind_eq fun now => (agree_insert_eq henv (groupRow_shape _ now)).bind_eq fun _ =>
      (agree_join henv hostId id).bind_eq fun _ => Cmd.agree_pure rfl

theorem agree_searchGroups (keyword : Bytes) (limit : Int32) :
    AgreeOn secret Eq (searchGroups env keyword limit) (searchGroups env keyword limit) :=
  (agree_query_eq henv (by decide) _).bind_eq fun _ => Cmd.agree_pure rfl

theorem agree_groupsOf (memberships : RowList) :
    AgreeOn secret Eq (groupsOf env memberships) (groupsOf env memberships) := by
  induction memberships with
  | nil => exact Cmd.agree_pure rfl
  | cons membership rest ih =>
    exact (agree_query_eq henv (by decide) _).bind_eq fun _ => ih.bind_eq fun _ => Cmd.agree_pure rfl

theorem agree_groupsForUser (userId : Int32) :
    AgreeOn secret Eq (groupsForUser env userId) (groupsForUser env userId) :=
  (agree_query_eq henv (by decide) _).bind_eq fun memberships => agree_groupsOf henv memberships

end Groups

end ChannelRepository

/-! ## Messages -/

namespace MessageRepository

section Messages

variable {env : Env} {secret : Prop} (henv : env.Serves)

theorem toRow_shape (m : StoredMessage) : RowShape .messages (toRow m) := by
  refine .of_object ?_ (by decide)
  simp only [List.mem_cons, List.not_mem_nil, or_false, forall_eq_or_imp, forall_eq]
  exact ⟨.int _, .int _, .int _, .int _, .str _, .str _, .int _, .bool _, .bool _, .bool _, .bool _,
    .int _, .int _, .str _⟩

include henv

theorem agree_nextMessageId : AgreeOn secret Eq (nextMessageId env) (nextMessageId env) :=
  (agree_queryAll henv .messages).bind fun _ _ hrows => Cmd.agree_pure (by rw [eq_of_same hrows (by decide)])

theorem agree_savePrivate (fromId toId : Int32) (content contentType : Bytes) (delivered : Bool) :
    AgreeOn secret Eq (savePrivate env fromId toId content contentType delivered)
      (savePrivate env fromId toId content contentType delivered) :=
  (agree_nextMessageId henv).bind_eq fun _ => (agree_time env).bind_eq fun _ =>
    (agree_insert_eq henv (toRow_shape _)).bind_eq fun _ => Cmd.agree_pure rfl

theorem agree_saveGroup (fromId groupId : Int32) (content contentType : Bytes) :
    AgreeOn secret Eq (saveGroup env fromId groupId content contentType)
      (saveGroup env fromId groupId content contentType) :=
  (agree_nextMessageId henv).bind_eq fun _ => (agree_time env).bind_eq fun _ =>
    (agree_insert_eq henv (toRow_shape _)).bind_eq fun _ => Cmd.agree_pure rfl

theorem agree_select (p : Row → Bool) (limit : Int32) : AgreeOn secret Eq (select env p limit) (select env p limit) :=
  (agree_query_eq henv (by decide) p).bind_eq fun _ => Cmd.agree_pure rfl

theorem agree_markDelivered (msgId : Int64) : AgreeOn secret Eq (markDelivered env msgId) (markDelivered env msgId) :=
  (agree_update_eq henv (by decide) _ fun _ h => h.put _ (.bool _)).bind_eq fun _ => Cmd.agree_pure rfl

theorem agree_offlineForUser (userId limit : Int32) :
    AgreeOn secret Eq (offlineForUser env userId limit) (offlineForUser env userId limit) :=
  (agree_select henv _ limit).bind_eq fun _ =>
    (Cmd.agree_each_same fun _ => agree_markDelivered henv _).bind_eq fun _ => Cmd.agree_pure rfl

theorem agree_search (keyword : Bytes) (limit : Int32) :
    AgreeOn secret Eq (search env keyword limit) (search env keyword limit) :=
  (Cmd.agree_pure rfl).ite (agree_select henv _ limit)

theorem agree_edit (msgId : Int64) (actorId : Int32) (content : Bytes) :
    AgreeOn secret Eq (edit env msgId actorId content) (edit env msgId actorId content) :=
  (agree_time env).bind_eq fun _ => agree_update_eq henv (by decide) _ fun _ h =>
    ((h.put _ (.str _)).put _ (.bool _)).put _ (.int _)

theorem agree_softDelete (msgId : Int64) (actorId : Int32) :
    AgreeOn secret Eq (softDelete env msgId actorId) (softDelete env msgId actorId) :=
  (agree_time env).bind_eq fun _ => agree_update_eq henv (by decide) _ fun _ h =>
    ((h.put _ (.str _)).put _ (.bool _)).put _ (.int _)

theorem agree_addReaction (msgId : Int64) (actorId : Int32) (reaction : Bytes) :
    AgreeOn secret Eq (addReaction env msgId actorId reaction) (addReaction env msgId actorId reaction) :=
  (Cmd.agree_pure rfl).ite <| agree_update_eq henv (by decide) _ fun _ h => by
    simp only [withReaction]
    split
    · exact h
    · exact h.put _ (.str _)

theorem agree_markRead (msgId : Int64) (readerId : Int32) :
    AgreeOn secret Eq (markRead env msgId readerId) (markRead env msgId readerId) :=
  agree_update_eq henv (by decide) _ fun _ h => (h.put _ (.bool _)).put _ (.int _)

end Messages

end MessageRepository

/-! ## Friends -/

namespace FriendRepository

section Friends

variable {env : Env} {secret : Prop} {db db' : Database}

theorem view_friendships (h : Alike secret db db') : db.sqlite.view.friendships = db'.sqlite.view.friendships := by
  obtain ⟨rows, rows', hrows, hrows', -⟩ := h.rows
  rw [Sqlite.view, Sqlite.view, hrows.idle, hrows'.idle]
  exact h.friendships

theorem agree_now : AgreeOn secret Eq (now env) (now env) :=
  (agree_time env).bind_eq fun _ => Cmd.agree_pure rfl

/-- The friendships that `Content.insertFriendship` makes of these. -/
def withFriendship (row : FriendshipRow) (friendships : Option (List FriendshipRow)) : Option (List FriendshipRow) :=
  friendships.bind fun rows =>
    if rows.any fun r => r.from_uid = row.from_uid ∧ r.to_uid = row.to_uid then none else some (rows ++ [row])

theorem insertFriendship_eq (row : FriendshipRow) (c : Content) : Content.insertFriendship row c =
    (withFriendship row c.friendships).map fun rows => { c with friendships := some rows } := by
  unfold Content.insertFriendship withFriendship
  cases c.friendships with
  | none => rfl
  | some rows =>
    rw [Option.bind_some]
    dsimp only
    split
    · rfl
    · rfl

variable (henv : env.Serves)

include henv

theorem agree_call : AgreeOn secret Eq (call env) (call env) :=
  Cmd.agree_of_run fun db db' h =>
    ⟨_, _, _, _, run_call henv db, run_call henv db', rfl, h.counters h.readings h.draws⟩

theorem agree_prepareFriendships : AgreeOn secret Eq (prepareFriendships env) (prepareFriendships env) :=
  (agree_call henv).bind_eq fun _ =>
    (Cmd.agree_asks (V := Eq) fun _ _ h => by rw [view_friendships h]).bind_eq fun _ => Cmd.agree_pure rfl

/-- A statement over the friendships, as a change of them. -/
theorem agree_execFriendships {change : Content → Option Content}
    {f : Option (List FriendshipRow) → Option (List FriendshipRow)}
    (hchange : ∀ c, change c = (f c.friendships).map fun rows => { c with friendships := some rows }) :
    AgreeOn secret Eq (exec env (Sqlite.write change)) (exec env (Sqlite.write change)) :=
  Cmd.agree_of_run fun db db' h => by
    obtain ⟨rows, rows', hrows, hrows', hsame⟩ := h.rows
    have hwrite : ∀ (db : Database) rows, db.Holds rows → Sqlite.write change db.sqlite =
        (f db.sqlite.file.friendships).map fun rows => ⟨{ db.sqlite.file with friendships := some rows }, none⟩ :=
      fun db rows hrows => by simp only [Sqlite.write, hrows.idle, hchange, Option.map_map, Function.comp_def]
    have hleft := hwrite db rows hrows
    have hright := hwrite db' rows' hrows'
    rw [← h.friendships] at hright
    cases hf : f db.sqlite.file.friendships with
    | none =>
      rw [hf] at hleft hright
      exact ⟨_, _, _, _, run_exec_none hleft, run_exec_none hright, rfl, h.counters h.readings h.draws⟩
    | some found =>
      rw [hf] at hleft hright
      refine ⟨_, _, _, _, run_exec henv hleft, run_exec henv hright, rfl, ⟨rows, rows', ?_, ?_, hsame⟩, rfl, h.readings,
        h.draws⟩
      · exact ⟨rfl, hrows.docs, hrows.cached, hrows.readable, hrows.shape⟩
      · exact ⟨rfl, hrows'.docs, hrows'.cached, hrows'.readable, hrows'.shape⟩

theorem agree_insertRequest (fromUid toUid : Int32) (requestMsg : Bytes) (at_ : Int32) :
    AgreeOn secret Eq (insertRequest env fromUid toUid requestMsg at_) (insertRequest env fromUid toUid requestMsg at_) :=
  (agree_prepareFriendships henv).bind_eq fun _ => (Cmd.agree_pure rfl).ite <|
    agree_execFriendships henv (f := withFriendship _) (insertFriendship_eq _)

theorem agree_updateWhere (p : FriendshipRow → Bool) (u : FriendshipRow → FriendshipRow) :
    AgreeOn secret Eq (updateWhere env p u) (updateWhere env p u) :=
  (agree_prepareFriendships henv).bind_eq fun _ => (Cmd.agree_pure rfl).ite <|
    (Cmd.agree_asks (V := Eq) fun _ _ h => by rw [view_friendships h]).bind_eq fun _ =>
      (agree_execFriendships henv (f := Option.map fun rows => rows.map fun r => if p r then u r else r) fun c => by
        rw [Content.updateFriendships, Option.map_map]
        rfl).bind_eq fun _ => Cmd.agree_pure rfl

theorem agree_setStatus (fromUid toUid : Int32) (status : FriendshipStatus) :
    AgreeOn secret Eq (setStatus env fromUid toUid status) (setStatus env fromUid toUid status) :=
  agree_now.bind_eq fun _ => agree_updateWhere henv _ _

theorem agree_removeFriendship (uidA uidB : Int32) :
    AgreeOn secret Eq (removeFriendship env uidA uidB) (removeFriendship env uidA uidB) :=
  (agree_prepareFriendships henv).bind_eq fun _ => (Cmd.agree_pure rfl).ite <|
    (Cmd.agree_asks (V := Eq) fun _ _ h => by rw [view_friendships h]).bind_eq fun _ =>
      (agree_execFriendships henv (f := Option.map fun rows => rows.filter fun r => !concerns uidA uidB r) fun c => by
        rw [Content.deleteFriendships, Option.map_map]
        rfl).bind_eq fun _ => Cmd.agree_pure rfl

theorem agree_friendsFrom (uid : Int32) (found : List FriendshipRow) :
    AgreeOn secret (List.Forall₂ SameUser) (friendsFrom env uid found) (friendsFrom env uid found) := by
  induction found with
  | nil => exact (agree_call henv).bind_eq fun _ => Cmd.agree_pure .nil
  | cons row rest ih =>
    refine (agree_call henv).bind_eq fun stepped => Cmd.Agree.ite ?_ (Cmd.agree_pure .nil)
    refine (UserRepository.agree_findById henv _).bind fun user user' huser => ih.bind fun users users' husers => ?_
    cases huser with
    | none => exact Cmd.agree_pure husers
    | some huser => exact Cmd.agree_pure (.cons huser husers)

variable (hscan : env.ScansSteadily)

include hscan

omit henv in
theorem agree_select (p : FriendshipRow → Bool) : AgreeOn secret Eq (select env p) (select env p) :=
  Cmd.agree_asks fun db db' h => by rw [view_friendships h, hscan db.calls db'.calls]

theorem agree_selectOne (p : FriendshipRow → Bool) : AgreeOn secret Eq (selectOne env p) (selectOne env p) :=
  (agree_select hscan p).bind_eq fun _ => (agree_call henv).bind_eq fun _ => Cmd.agree_pure rfl

theorem agree_sendRequest (fromUid toUid : Int32) (requestMsg : Bytes) :
    AgreeOn secret Eq (sendRequest env fromUid toUid requestMsg) (sendRequest env fromUid toUid requestMsg) := by
  refine (Cmd.agree_pure rfl).ite <| agree_now.bind_eq fun at_ => (agree_prepareFriendships henv).bind_eq fun _ =>
    (Cmd.agree_pure rfl).ite <| (agree_selectOne henv hscan _).bind_eq fun existing => ?_
  cases existing with
  | none => exact agree_insertRequest henv _ _ _ _
  | some row =>
    dsimp only
    split
    · exact Cmd.agree_pure rfl
    · exact (Cmd.agree_pure rfl).ite (agree_insertRequest henv _ _ _ _)
    · exact (Cmd.agree_pure rfl).ite (agree_updateWhere henv _ _)

theorem agree_getFriends (uid : Int32) :
    AgreeOn secret (List.Forall₂ SameUser) (getFriends env uid) (getFriends env uid) :=
  (agree_prepareFriendships henv).bind_eq fun _ => (Cmd.agree_pure .nil).ite <|
    (agree_select hscan _).bind_eq fun found => agree_friendsFrom henv uid found

end Friends

end FriendRepository

end LanChat
