import LanChat.Db.Store
import LanChat.Db.ChannelRepository
import LanChat.Db.FriendRepository

/-!
# What the repositories do with the database

An invariant of the database that the operations of `Database` keep is kept by
every operation of the repositories. `Reads` and `Writes` list what has to be
shown of an invariant `I` once; `Guarded` says that a repository operation keeps
it, and leaves `E` when it throws. `R` is what is known of the rows of a table.
-/

namespace LanChat

open Lib Json

namespace Database

/-- The operation keeps `I`, and leaves `E` when it throws. -/
def Guarded {α : Type} (I E : Database → Prop) (c : DbM α) : Prop :=
  Cmd.Sat I c (fun _ => I) (fun _ => E) fun _ => True

/-- An exception that the row may cause does no harm. -/
def Harmless {α : Type} (I E : Database → Prop) (r : Except Exn α) : Prop :=
  (∃ a, r = .ok a) ∨ ∀ db, I db → E db

/-- What an invariant needs for the operations that only read. -/
structure Reads (env : Env) (R : TableName → Row → Prop) (I E : Database → Prop) : Prop where
  counters : ∀ db calls readings draws, I db →
    I { db with calls := calls, readings := readings, draws := draws }
  load : ∀ name, Cmd.Sat I (loadTable env name)
    (fun _ db => I db ∧ ∀ row ∈ (db.tables name).getD [], R name row) (fun _ => E) fun _ => True
  users : (∀ row, R .users row → RowShape .users row) ∨ ∀ db, I db → E db
  thrown : ∀ db, E db → I db

/-- What it needs for the operations that write. -/
structure Writes (env : Env) (R : TableName → Row → Prop) (I E : Database → Prop) : Prop
    extends Reads env R I E where
  shape : ∀ name row, RowShape name row → R name row
  put : ∀ name row key v, R name row → v.Plain → R name (row.put key v)
  insert : ∀ name row, R name row → Guarded I E (insert env name row)
  update : ∀ name p u, (∀ row, R name row → Harmless I E (p row)) →
    (∀ row, R name row → R name (u row)) → Guarded I E (update env name p u)
  remove : ∀ name p, Guarded I E (remove env name p)
  friendships : ∀ change : Content → Option Content,
    (∀ c c', change c = some c' → c'.docs = c.docs) → Guarded I E (exec env (Sqlite.write change))

/-- What it needs for the operations that write to one table. -/
structure WritesTo (env : Env) (R : TableName → Row → Prop) (I E : Database → Prop)
    (name : TableName) : Prop where
  shape : ∀ row, RowShape name row → R name row
  put : ∀ row key v, R name row → v.Plain → R name (row.put key v)
  insert : ∀ row, R name row → Guarded I E (insert env name row)
  update : ∀ p u, (∀ row, R name row → Harmless I E (p row)) →
    (∀ row, R name row → R name (u row)) → Guarded I E (update env name p u)
  remove : ∀ p, Guarded I E (remove env name p)

theorem Writes.to {env : Env} {R : TableName → Row → Prop} {I E : Database → Prop}
    (h : Writes env R I E) (name : TableName) : WritesTo env R I E name :=
  ⟨h.shape name, h.put name, h.insert name, h.update name, h.remove name⟩

section Guarded

variable {α β : Type} {env : Env} {R : TableName → Row → Prop} {I E : Database → Prop}

theorem guarded_pure (a : α) : Guarded I E (pure a : DbM α) := Cmd.sat_pure fun _ h => h

theorem guarded_asks (f : Database → α) : Guarded I E (Cmd.asks f : DbM α) :=
  Cmd.sat_asks fun _ h => h

theorem Guarded.bind {c : DbM α} {f : α → DbM β} (hc : Guarded I E c) (hf : ∀ a, Guarded I E (f a)) :
    Guarded I E (c >>= f) :=
  Cmd.Sat.bind hc hf

theorem Guarded.ite {b : Prop} [Decidable b] {c d : DbM α} (hc : Guarded I E c)
    (hd : Guarded I E d) : Guarded I E (if b then c else d) :=
  Cmd.sat_ite (fun _ => hc) fun _ => hd

theorem Guarded.when {b : Prop} [Decidable b] {c : DbM Unit} (hc : Guarded I E c) :
    Guarded I E (Cmd.when b c) :=
  Guarded.ite hc (guarded_pure ())

theorem Guarded.andAlso {b : Prop} [Decidable b] {c : DbM Bool} (hc : b → Guarded I E c) :
    Guarded I E (Cmd.andAlso b c) :=
  Cmd.sat_ite hc fun _ => guarded_pure false

theorem guarded_each {xs : List β} {body : β → DbM Unit} (h : ∀ x, Guarded I E (body x)) :
    Guarded I E (Cmd.each xs body) :=
  Cmd.sat_each fun x _ => h x

theorem guarded_ofExcept {r : Except Exn α} (h : Harmless I E r) :
    Guarded I E (Cmd.ofExcept r : DbM α) := by
  refine Cmd.sat_ofExcept (fun _ _ _ h => h) fun e db he hdb => ?_
  rcases h with ⟨a, ha⟩ | hlax
  · rw [ha] at he
    cases he
  · exact hlax db hdb

theorem harmless_ok (a : α) : Harmless I E (.ok a) := .inl ⟨a, rfl⟩

theorem Harmless.bind {r : Except Exn α} {f : α → Except Exn β} (hr : Harmless I E r)
    (hf : ∀ a, Harmless I E (f a)) : Harmless I E (r >>= f) := by
  rcases hr with ⟨a, rfl⟩ | hlax
  · exact hf a
  · exact .inr hlax

theorem harmless_filterRows {p : Row → Except Exn Bool} {rows : RowList}
    (hp : ∀ row ∈ rows, Harmless I E (p row)) : Harmless I E (filterRows p rows) := by
  induction rows with
  | nil => exact harmless_ok []
  | cons row rest ih =>
    refine (hp row List.mem_cons_self).bind fun keep => ?_
    exact (ih fun r hr => hp r (List.mem_cons_of_mem _ hr)).bind fun _ => harmless_ok _

theorem mem_filterRows {p : Row → Except Exn Bool} {rows out : RowList}
    (h : filterRows p rows = .ok out) {row : Row} (hrow : row ∈ out) : row ∈ rows := by
  induction rows generalizing out with
  | nil =>
    cases h
    exact hrow
  | cons head rest ih =>
    obtain ⟨keep, -, h⟩ := bind_eq_ok h
    obtain ⟨kept, hrest, h⟩ := bind_eq_ok h
    cases h
    cases keep with
    | false => exact List.mem_cons_of_mem _ (ih hrest hrow)
    | true =>
      rcases List.mem_cons.mp hrow with rfl | hrow
      · exact List.mem_cons_self
      · exact List.mem_cons_of_mem _ (ih hrest hrow)

/-! ## Reading -/

namespace Reads

variable (h : Reads env R I E)

include h

theorem time : Guarded I E (Database.time env) := fun db hdb =>
  ⟨fun w => w.elim, fun _ _ => h.counters db db.calls (db.readings + 1) db.draws hdb, nofun⟩

theorem randomBytes : Guarded I E (Database.randomBytes env) := fun db hdb =>
  ⟨fun w => w.elim, fun _ _ => h.counters db db.calls db.readings (db.draws + 1) hdb, nofun⟩

theorem call : Guarded I E (Database.call env) := fun db hdb =>
  ⟨fun w => w.elim, fun _ _ => h.counters db (db.calls + 1) db.readings db.draws hdb, nofun⟩

/-- The rows of a query are rows of the table. -/
theorem sat_query {name : TableName} {p : Row → Except Exn Bool}
    (hp : ∀ row, R name row → Harmless I E (p row)) :
    Cmd.Sat I (query env name p) (fun rows db => (∀ row ∈ rows, R name row) ∧ I db)
      (fun _ => E) fun _ => True := by
  refine (h.load name).bind fun _ => ?_
  refine (Cmd.sat_asks (Q := fun rows db => (∀ row ∈ rows, R name row) ∧ I db)
    fun db hdb => ⟨hdb.2, hdb.1⟩).bind fun rows => Cmd.Sat.of_fact fun hrows => ?_
  refine Cmd.sat_ofExcept (fun out db hout hdb =>
    ⟨fun row hrow => hrows row (mem_filterRows hout hrow), hdb⟩) fun e db he hdb => ?_
  rcases harmless_filterRows fun row hrow => hp row (hrows row hrow) with ⟨out, hout⟩ | hlax
  · rw [hout] at he
    cases he
  · exact hlax db hdb

theorem query {name : TableName} {p : Row → Except Exn Bool}
    (hp : ∀ row, R name row → Harmless I E (p row)) : Guarded I E (Database.query env name p) :=
  (h.sat_query hp).post fun _ _ hdb => hdb.2

theorem sat_queryAll (name : TableName) :
    Cmd.Sat I (queryAll env name) (fun rows db => (∀ row ∈ rows, R name row) ∧ I db)
      (fun _ => E) fun _ => True :=
  (h.load name).bind fun _ => Cmd.sat_asks fun _ hdb => ⟨hdb.2, hdb.1⟩

/-- A field of a user that every user has. -/
theorem harmless_atField {row : Row} (hrow : R .users row) {key : String} (hkey : key ∈ userFields) :
    Harmless I E (atField row key) := by
  rcases h.users with hshape | hlax
  · obtain ⟨v, hv⟩ := Option.isSome_iff_exists.mp ((hshape row hrow).user rfl key hkey)
    exact .inl ⟨v, by rw [atField, hv]⟩
  · exact .inr hlax

theorem harmless_userFromRow {row : Row} (hrow : R .users row) :
    Harmless I E (UserRepository.userFromRow row) :=
  (h.harmless_atField hrow (by decide)).bind fun _ =>
    (h.harmless_atField hrow (by decide)).bind fun _ =>
      (h.harmless_atField hrow (by decide)).bind fun _ =>
        (h.harmless_atField hrow (by decide)).bind fun _ => harmless_ok _

theorem harmless_hasId {row : Row} (hrow : R .users row) (id : Int32) :
    Harmless I E (UserRepository.hasId id row) :=
  (h.harmless_atField hrow (by decide)).bind fun _ => harmless_ok _

/-- A query whose first row is read as a user. -/
theorem firstUser {p : Row → Except Exn Bool} (hp : ∀ row, R .users row → Harmless I E (p row)) :
    Guarded I E (Database.query env .users p >>= fun rows =>
      match rows with
      | [] => pure none
      | row :: _ => do
        let user ← Cmd.ofExcept (UserRepository.userFromRow row)
        pure (some user)) := by
  refine (h.sat_query hp).bind fun rows => Cmd.Sat.of_fact fun hrows => ?_
  cases rows with
  | nil => exact guarded_pure none
  | cons row rest =>
    exact (guarded_ofExcept (h.harmless_userFromRow (hrows row List.mem_cons_self))).bind fun _ =>
      guarded_pure _

theorem findById (id : Int32) : Guarded I E (UserRepository.findById env id) :=
  h.firstUser fun _ hrow => h.harmless_hasId hrow id

theorem findByNickname (nickname : Bytes) : Guarded I E (UserRepository.findByNickname env nickname) :=
  h.firstUser fun _ hrow => (h.harmless_atField hrow (by decide)).bind fun _ => harmless_ok _

theorem harmless_usersFromRows {rows : RowList} (hrows : ∀ row ∈ rows, R .users row) :
    Harmless I E (UserRepository.usersFromRows rows) := by
  induction rows with
  | nil => exact harmless_ok []
  | cons row rest ih =>
    refine (h.harmless_userFromRow (hrows row List.mem_cons_self)).bind fun _ => ?_
    exact (ih fun r hr => hrows r (List.mem_cons_of_mem _ hr)).bind fun _ => harmless_ok _

theorem getAllUsers : Guarded I E (UserRepository.getAllUsers env) :=
  (h.sat_queryAll .users).bind fun _ => Cmd.Sat.of_fact fun hrows =>
    guarded_ofExcept (h.harmless_usersFromRows hrows)

/-- A query with a predicate that does not throw. -/
theorem queryOk (name : TableName) (p : Row → Bool) :
    Guarded I E (Database.query env name fun row => .ok (p row)) :=
  h.query fun _ _ => harmless_ok _

theorem queryAll (name : TableName) : Guarded I E (Database.queryAll env name) :=
  (h.sat_queryAll name).post fun _ _ hdb => hdb.2

theorem select (p : Row → Bool) (limit : Int32) : Guarded I E (MessageRepository.select env p limit) :=
  (h.queryOk _ _).bind fun _ => guarded_pure _

theorem search (keyword : Bytes) (limit : Int32) :
    Guarded I E (MessageRepository.search env keyword limit) :=
  (guarded_pure []).ite (h.select _ limit)

theorem nextMessageId : Guarded I E (MessageRepository.nextMessageId env) :=
  (h.queryAll _).bind fun _ => guarded_pure _

theorem nextGroupId : Guarded I E (ChannelRepository.nextGroupId env) :=
  (h.queryAll _).bind fun _ => guarded_pure _

theorem groupExists (groupId : Int32) : Guarded I E (ChannelRepository.exists env groupId) :=
  (h.queryOk _ _).bind fun _ => guarded_pure _

theorem members (groupId : Int32) : Guarded I E (ChannelRepository.members env groupId) :=
  (h.queryOk _ _).bind fun _ => guarded_pure _

theorem searchGroups (keyword : Bytes) (limit : Int32) :
    Guarded I E (ChannelRepository.searchGroups env keyword limit) :=
  (h.queryOk _ _).bind fun _ => guarded_pure _

theorem groupsOf (memberships : RowList) : Guarded I E (ChannelRepository.groupsOf env memberships) := by
  induction memberships with
  | nil => exact guarded_pure []
  | cons membership rest ih =>
    exact (h.queryOk _ _).bind fun _ => ih.bind fun _ => guarded_pure _

theorem groupsForUser (userId : Int32) : Guarded I E (ChannelRepository.groupsForUser env userId) :=
  (h.queryOk _ _).bind fun _ => h.groupsOf _

theorem prepareFriendships : Guarded I E (FriendRepository.prepareFriendships env) :=
  h.call.bind fun _ => (guarded_asks _).bind fun _ => guarded_pure _

theorem selectOne (p : FriendshipRow → Bool) : Guarded I E (FriendRepository.selectOne env p) :=
  (guarded_asks _).bind fun _ => h.call.bind fun _ => guarded_pure _

theorem friendsFrom (uid : Int32) (found : List FriendshipRow) :
    Guarded I E (FriendRepository.friendsFrom env uid found) := by
  induction found with
  | nil => exact h.call.bind fun _ => guarded_pure []
  | cons row rest ih =>
    exact h.call.bind fun _ => Guarded.ite
      ((h.findById _).bind fun _ => ih.bind fun _ => guarded_pure _) (guarded_pure [])

theorem getFriends (uid : Int32) : Guarded I E (FriendRepository.getFriends env uid) :=
  h.prepareFriendships.bind fun _ => (guarded_pure []).ite <|
    (guarded_asks _).bind fun _ => h.friendsFrom uid _

theorem bcryptHashPassword (password : Bytes) (cost : Nat) :
    Guarded I E (LanChat.bcryptHashPassword env password cost) := by
  refine h.randomBytes.bind fun _ => ?_
  split
  · exact guarded_pure []
  split
  · exact guarded_pure []
  · exact guarded_pure _

theorem harmless_nextUserId {rows : RowList} (hrows : ∀ row ∈ rows, R .users row) (maxId : Int32) :
    Harmless I E (UserRepository.nextUserId maxId rows) := by
  induction rows generalizing maxId with
  | nil => exact harmless_ok maxId
  | cons row rest ih =>
    refine (h.harmless_atField (hrows row List.mem_cons_self) (by decide)).bind fun _ => ?_
    exact ih (fun r hr => hrows r (List.mem_cons_of_mem _ hr)) _

end Reads

/-! ## Writing -/

theorem memberRow_shape (userId groupId : Int32) (now : Int64) :
    RowShape .group_members (ChannelRepository.memberRow userId groupId now) := by
  refine .of_object ?_ (by decide)
  simp only [List.mem_cons, List.not_mem_nil, or_false, forall_eq_or_imp, forall_eq]
  exact ⟨.int _, .int _, .int _⟩

theorem newUserRow_shape (id : Int32) (hash nickname : Bytes) (avatarId : Int32) (now : Int64) :
    RowShape .users (UserRepository.newUserRow id hash nickname avatarId now) where
  plain := by
    refine plain_object ?_
    simp only [List.mem_cons, List.not_mem_nil, or_false, forall_eq_or_imp, forall_eq]
    exact ⟨.int _, .str _, .int _, .str _, .int _, .int _, .int _, .int _⟩
  user _ key hkey := by
    have hfields : ∀ key ∈ userFields, ((object [("id", ofInt32 id), ("password_hash", .str hash),
        ("password_version", .int 1), ("nickname", .str nickname), ("avatar_id", ofInt32 avatarId),
        ("created_at", .int now), ("last_seen_at", .int 0), ("is_online", .int 0)]).find?
          (lit key)).isSome := by
      simp [userFields, find?_object]
    exact hfields key hkey

namespace WritesTo

variable {name : TableName}

/-- An update with a predicate that does not throw, of single fields. -/
theorem updateOk (h : WritesTo env R I E name) (p : Row → Bool) {u : Row → Row}
    (hu : ∀ row, R name row → R name (u row)) :
    Guarded I E (Database.update env name (fun row => .ok (p row)) u) :=
  h.update _ u (fun _ _ => harmless_ok _) hu

theorem insertShape (h : WritesTo env R I E name) {row : Row} (hrow : RowShape name row) :
    Guarded I E (Database.insert env name row) :=
  h.insert row (h.shape row hrow)

theorem putShape (h : WritesTo env R I E name) {key : Bytes} {v : Value} (hv : v.Plain) :
    ∀ row, R name row → R name (row.put key v) :=
  fun row hrow => h.put row key v hrow hv

/-! ### Messages -/

section Messages

variable (hr : Reads env R I E) (h : WritesTo env R I E .messages)

include h

theorem saveMessage (m : StoredMessage) :
    Guarded I E (Database.insert env .messages (MessageRepository.toRow m)) := by
  refine h.insertShape (.of_object ?_ (by decide))
  simp only [List.mem_cons, List.not_mem_nil, or_false, forall_eq_or_imp, forall_eq]
  exact ⟨.int _, .int _, .int _, .int _, .str _, .str _, .int _, .bool _, .bool _, .bool _, .bool _,
    .int _, .int _, .str _⟩

theorem markDelivered (msgId : Int64) : Guarded I E (MessageRepository.markDelivered env msgId) :=
  (h.updateOk _ (h.putShape (.bool _))).bind fun _ => guarded_pure ()

theorem addReaction (msgId : Int64) (actorId : Int32) (reaction : Bytes) :
    Guarded I E (MessageRepository.addReaction env msgId actorId reaction) := by
  refine (guarded_pure false).ite (h.updateOk _ fun row hrow => ?_)
  simp only [MessageRepository.withReaction]
  split
  · exact hrow
  · exact h.putShape (.str _) row hrow

theorem markRead (msgId : Int64) (readerId : Int32) :
    Guarded I E (MessageRepository.markRead env msgId readerId) :=
  h.updateOk _ fun row hrow => h.putShape (.int _) _ (h.putShape (.bool _) row hrow)

include hr

theorem savePrivate (fromId toId : Int32) (content contentType : Bytes) (delivered : Bool) :
    Guarded I E (MessageRepository.savePrivate env fromId toId content contentType delivered) :=
  hr.nextMessageId.bind fun _ => hr.time.bind fun _ => (h.saveMessage _).bind fun _ => guarded_pure _

theorem saveGroup (fromId groupId : Int32) (content contentType : Bytes) :
    Guarded I E (MessageRepository.saveGroup env fromId groupId content contentType) :=
  hr.nextMessageId.bind fun _ => hr.time.bind fun _ => (h.saveMessage _).bind fun _ => guarded_pure _

theorem offlineForUser (userId limit : Int32) :
    Guarded I E (MessageRepository.offlineForUser env userId limit) :=
  (hr.select _ limit).bind fun _ => (guarded_each fun _ => h.markDelivered _).bind fun _ =>
    guarded_pure _

theorem edit (msgId : Int64) (actorId : Int32) (content : Bytes) :
    Guarded I E (MessageRepository.edit env msgId actorId content) :=
  hr.time.bind fun _ => h.updateOk _ fun row hrow =>
    h.putShape (.int _) _ (h.putShape (.bool _) _ (h.putShape (.str _) row hrow))

theorem softDelete (msgId : Int64) (actorId : Int32) :
    Guarded I E (MessageRepository.softDelete env msgId actorId) :=
  hr.time.bind fun _ => h.updateOk _ fun row hrow =>
    h.putShape (.int _) _ (h.putShape (.bool _) _ (h.putShape (.str _) row hrow))

end Messages

/-! ### Groups -/

section Groups

variable (hr : Reads env R I E) (hg : WritesTo env R I E .groups)
  (h : WritesTo env R I E .group_members)

include h

theorem leave (userId groupId : Int32) : Guarded I E (ChannelRepository.leave env userId groupId) :=
  h.remove _

include hr

theorem join (userId groupId : Int32) : Guarded I E (ChannelRepository.join env userId groupId) := by
  refine (hr.groupExists groupId).bind fun _ => (guarded_pure false).ite <|
    (hr.queryOk _ _).bind fun _ => (guarded_pure true).ite <| hr.time.bind fun now => ?_
  exact Guarded.bind (h.insertShape (memberRow_shape userId groupId now)) fun _ => guarded_pure true

include hg

theorem createGroup (hostId : Int32) (name : Bytes) :
    Guarded I E (ChannelRepository.createGroup env hostId name) := by
  refine hr.nextGroupId.bind fun id => hr.time.bind fun now => ?_
  refine Guarded.bind (hg.insertShape (.of_object ?_ (by decide))) fun _ =>
    (h.join hr hostId id).bind fun _ => guarded_pure _
  simp only [List.mem_cons, List.not_mem_nil, or_false, forall_eq_or_imp, forall_eq]
  exact ⟨.int _, .int _, .str _, .int _⟩

end Groups

/-! ### Users -/

section Users

variable (hr : Reads env R I E) (h : WritesTo env R I E .users)

include hr h

theorem create (password nickname : Bytes) (avatarId : Int32) :
    Guarded I E (UserRepository.create env password nickname avatarId) := by
  refine (hr.findByNickname nickname).bind fun existing => ?_
  cases existing with
  | some _ => exact guarded_pure _
  | none =>
    refine (hr.sat_queryAll .users).bind fun rows => Cmd.Sat.of_fact fun hrows => ?_
    refine (guarded_ofExcept (hr.harmless_nextUserId hrows 1000)).bind fun id => ?_
    refine (hr.bcryptHashPassword password 12).bind fun hash => hr.time.bind fun now => ?_
    exact Guarded.bind (h.insertShape (newUserRow_shape id hash nickname avatarId now)) fun _ =>
      guarded_pure _

theorem updateUser (userId : Int32) {u : Row → Row} (hu : ∀ row, R .users row → R .users (u row)) :
    Guarded I E (Database.update env .users (UserRepository.hasId userId) u) :=
  h.update _ u (fun _ hrow => hr.harmless_hasId hrow userId) hu

theorem verifyPassword (userId : Int32) (password : Bytes) :
    Guarded I E (UserRepository.verifyPassword env userId password) := by
  refine (hr.sat_query fun _ hrow => hr.harmless_hasId hrow userId).bind fun rows =>
    Cmd.Sat.of_fact fun hrows => ?_
  cases rows with
  | nil => exact guarded_pure false
  | cons row rest =>
    have hhash : Harmless I E (atField row "password_hash") :=
      hr.harmless_atField (hrows row List.mem_cons_self) (by decide)
    refine (guarded_ofExcept hhash).bind fun hash => ?_
    refine (guarded_pure _).ite <| (guarded_pure false).ite ?_
    refine (hr.bcryptHashPassword password 12).bind fun upgraded => ?_
    exact (h.updateUser hr userId fun row hrow =>
      h.putShape (.int _) _ (h.putShape (.str _) row hrow)).bind fun _ => guarded_pure true

theorem updateProfile (userId : Int32) (nickname : Bytes) (avatarId : Int32) :
    Guarded I E (UserRepository.updateProfile env userId nickname avatarId) :=
  h.updateUser hr userId fun row hrow => h.putShape (.int _) _ (h.putShape (.str _) row hrow)

theorem setOnlineStatus (userId : Int32) (online : Bool) :
    Guarded I E (UserRepository.setOnlineStatus env userId online) := by
  refine hr.time.bind fun now => (h.updateUser hr userId fun row hrow => ?_).bind fun _ =>
    guarded_pure ()
  cases online with
  | false => exact h.putShape (.int 0) row hrow
  | true => exact h.putShape (.int now) _ (h.putShape (.int 1) row hrow)

end Users

end WritesTo

/-! ### Friendships -/

section Friendships

variable (hr : Reads env R I E) (h : ∀ change : Content → Option Content,
  (∀ c c', change c = some c' → c'.docs = c.docs) → Guarded I E (exec env (Sqlite.write change)))

include hr h

theorem guarded_updateWhere (p : FriendshipRow → Bool) (u : FriendshipRow → FriendshipRow) :
    Guarded I E (FriendRepository.updateWhere env p u) := by
  have hchange : ∀ c c', Content.updateFriendships p u c = some c' → c'.docs = c.docs := by
    intro c c' hc
    obtain ⟨rows, -, rfl⟩ := Option.map_eq_some_iff.mp hc
    rfl
  exact hr.prepareFriendships.bind fun _ => (guarded_pure false).ite <| (guarded_asks _).bind fun _ =>
    (h _ hchange).bind fun _ => guarded_pure _

theorem guarded_insertRequest (fromUid toUid : Int32) (requestMsg : Bytes) (at_ : Int32) :
    Guarded I E (FriendRepository.insertRequest env fromUid toUid requestMsg at_) := by
  refine hr.prepareFriendships.bind fun _ => (guarded_pure false).ite <| h _ fun c c' hc => ?_
  unfold Content.insertFriendship at hc
  split at hc
  · cases hc
  split at hc
  · cases hc
  · cases hc
    rfl

theorem guarded_sendRequest (fromUid toUid : Int32) (requestMsg : Bytes) :
    Guarded I E (FriendRepository.sendRequest env fromUid toUid requestMsg) := by
  refine (guarded_pure false).ite <| (hr.time.bind fun _ => guarded_pure _).bind fun at_ =>
    hr.prepareFriendships.bind fun _ => (guarded_pure false).ite <| (hr.selectOne _).bind fun existing => ?_
  cases existing with
  | none => exact guarded_insertRequest hr h _ _ _ _
  | some row =>
    dsimp only
    split
    · exact guarded_pure false
    · exact (guarded_pure false).ite (guarded_insertRequest hr h _ _ _ _)
    · exact (guarded_pure false).ite (guarded_updateWhere hr h _ _)

theorem guarded_setStatus (fromUid toUid : Int32) (status : FriendshipStatus) :
    Guarded I E (FriendRepository.setStatus env fromUid toUid status) :=
  (hr.time.bind fun _ => guarded_pure _).bind fun _ => guarded_updateWhere hr h _ _

theorem guarded_removeFriendship (uidA uidB : Int32) :
    Guarded I E (FriendRepository.removeFriendship env uidA uidB) := by
  refine hr.prepareFriendships.bind fun _ => (guarded_pure false).ite <| (guarded_asks _).bind fun _ =>
    (h _ fun c c' hc => ?_).bind fun _ => guarded_pure _
  obtain ⟨rows, -, rfl⟩ := Option.map_eq_some_iff.mp hc
  rfl

end Friendships

end Guarded

/-! ## Rows are kept -/

/-- The database holds some rows. -/
def Stored (db : Database) : Prop := ∃ rows, db.Holds rows

section Stored

variable {env : Env} {rows : TableName → RowList} {db : Database}

theorem Holds.of_eq (h : db.Holds rows) {db' : Database} (hsqlite : db'.sqlite = db.sqlite)
    (htables : db'.tables = db.tables) : db'.Holds rows where
  idle := by rw [hsqlite]; exact h.idle
  docs := by rw [hsqlite]; exact h.docs
  cached := by rw [htables]; exact h.cached
  readable := by rw [htables]; exact h.readable
  shape := h.shape

/-- A command that returns, and leaves the database holding rows. -/
theorem guarded_of_run {α : Type} {c : DbM α}
    (h : ∀ rows db, db.Holds rows → ∃ a db', c db = ⟨.ok a, db', []⟩ ∧ db'.Stored) :
    Guarded Stored (fun _ => False) c := by
  rintro db ⟨rows, hdb⟩
  obtain ⟨a, db', hrun, hstored⟩ := h rows db hdb
  rw [hrun]
  exact ⟨nofun, fun _ _ => hstored, nofun⟩

theorem sat_load_stored (henv : env.Serves) (name : TableName) :
    Cmd.Sat Stored (loadTable env name)
      (fun _ db => Stored db ∧ ∀ row ∈ (db.tables name).getD [], RowShape name row)
      (fun _ _ => False) fun _ => True := by
  rintro db ⟨rows, hdb⟩
  obtain ⟨calls, hrun⟩ := run_loadTable henv hdb name
  rw [hrun]
  refine ⟨nofun, fun _ _ => ⟨⟨rows, hdb.load name calls⟩, fun row hrow => ?_⟩, nofun⟩
  simp only [withTable, Function.update_self, Option.getD_some] at hrow
  exact hdb.shape name row hrow

/-- The predicate where it does not throw. -/
def decided (p : Row → Except Exn Bool) (row : Row) : Bool :=
  match p row with
  | .ok b => b
  | .error _ => false

theorem eq_decided {p : Row → Except Exn Bool} {row : Row} (hdb : db.Stored)
    (h : Harmless Stored (fun _ => False) (p row)) : p row = .ok (decided p row) := by
  rcases h with ⟨b, hb⟩ | hlax
  · simp only [decided, hb]
  · exact (hlax db hdb).elim

/-- As long as SQLite serves, whatever the repositories do leaves a database
that holds rows, and none of it throws. -/
theorem writes_stored (henv : env.Serves) : Writes env RowShape Stored fun _ => False where
  counters db calls readings draws := fun ⟨rows, hdb⟩ => ⟨rows, hdb.of_eq rfl rfl⟩
  load := sat_load_stored henv
  users := .inl fun _ h => h
  thrown _ := False.elim
  shape _ _ h := h
  put _ _ key _ h hv := h.put key hv
  insert name row hrow := guarded_of_run fun rows db hdb => by
    obtain ⟨calls, hrun⟩ := run_insert henv hdb name row
    refine ⟨_, _, hrun, _, hdb.store (fun r hr => ?_) calls⟩
    rcases List.mem_append.mp hr with hr | hr
    · exact hdb.shape name r hr
    · exact List.mem_singleton.mp hr ▸ hrow
  update name p u hp hu := guarded_of_run fun rows db hdb => by
    obtain ⟨calls, hrun⟩ := run_update henv hdb
      (fun row hrow => eq_decided ⟨rows, hdb⟩ (hp row (hdb.shape name row hrow))) u
    refine ⟨_, _, hrun, _, hdb.store (fun r hr => ?_) calls⟩
    obtain ⟨row, hrow, rfl⟩ := List.mem_map.mp hr
    split
    · exact hu row (hdb.shape name row hrow)
    · exact hdb.shape name row hrow
  remove name p := guarded_of_run fun rows db hdb => by
    obtain ⟨calls, hrun⟩ := run_remove henv hdb name p
    exact ⟨_, _, hrun, _, hdb.store (fun r hr => hdb.shape name r (List.mem_filter.mp hr).1) calls⟩
  friendships change hdocs := guarded_of_run fun rows db hdb => by
    have hwrite : Sqlite.write change db.sqlite = (change db.sqlite.file).map fun c => ⟨c, none⟩ := by
      simp only [Sqlite.write, hdb.idle]
    cases hchange : change db.sqlite.file with
    | none =>
      rw [hchange] at hwrite
      exact ⟨_, _, run_exec_none hwrite, rows, hdb.of_eq rfl rfl⟩
    | some c =>
      rw [hchange] at hwrite
      refine ⟨_, _, run_exec henv hwrite, rows, ⟨rfl, fun name => ?_, hdb.cached, hdb.readable, hdb.shape⟩⟩
      exact (congrFun (hdocs _ _ hchange) name).trans (hdb.docs name)

end Stored

end Database

end LanChat
