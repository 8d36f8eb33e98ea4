import LanChat.Db.FriendPairs

/-!
# The users and the friends that are listed

Whoever is listed as a friend is one (`sat_getFriends`). When SQLite serves and
the users are legible, all users and all friends that are users are listed, and
logins and logouts keep it so (`Standing`).
-/

namespace LanChat

open Lib Json

namespace FriendRepository

open Database Cmd

section Queries

variable {env : Env} {uid : Int32} {s : Sqlite}

theorem holds_of_filterRows {p : Row → Except Exn Bool} {rows out : RowList} (h : filterRows p rows = .ok out)
    {row : Row} (hrow : row ∈ out) : p row = .ok true := by
  induction rows generalizing out with
  | nil =>
    cases h
    cases hrow
  | cons head rest ih =>
    obtain ⟨keep, hkeep, h⟩ := bind_eq_ok h
    obtain ⟨kept, hrest, h⟩ := bind_eq_ok h
    cases h
    cases keep with
    | false => exact ih hrest hrow
    | true =>
      rcases List.mem_cons.mp hrow with rfl | hrow
      · exact hkeep
      · exact ih hrest hrow

theorem id_of_userFromRow {row : Row} {id : Int32} {user : UserInfo} (hid : UserRepository.hasId id row = .ok true)
    (huser : UserRepository.userFromRow row = .ok user) : user.id = id := by
  obtain ⟨v, hv, huser⟩ := bind_eq_ok huser
  obtain ⟨hash, -, huser⟩ := bind_eq_ok huser
  obtain ⟨nickname, -, huser⟩ := bind_eq_ok huser
  obtain ⟨avatar, -, huser⟩ := bind_eq_ok huser
  cases huser
  have hv' : v.asInt = id.toInt64 := by simpa [UserRepository.hasId, hv, Except.map] using hid
  show v.asInt.toInt32 = id
  rw [hv', Int32.toInt32_toInt64]

/-- The user that is found has the id. -/
theorem sat_findById (id : Int32) :
    Sat (fun db => db.sqlite = s) (UserRepository.findById env id)
      (fun found db => (∀ user, found = some user → user.id = id) ∧ db.sqlite = s) (fun _ _ => True)
      fun _ => True := by
  have hload : Sat (fun db => db.sqlite = s) (loadTable env .users) (fun _ db => db.sqlite = s)
      (fun _ _ => True) fun _ => True :=
    fun db hdb => ⟨nofun, fun _ _ => (leaves_sqlite_loadTable .users db).trans hdb, fun _ _ => trivial⟩
  have hquery : Sat (fun db => db.sqlite = s) (query env .users (UserRepository.hasId id))
      (fun rows db => (∀ row ∈ rows, UserRepository.hasId id row = .ok true) ∧ db.sqlite = s)
      (fun _ _ => True) fun _ => True := by
    refine hload.bind fun _ => Sat.bind (R := fun _ db => db.sqlite = s) (sat_asks fun _ h => h) fun all => ?_
    exact sat_ofExcept (fun rows db hrows hdb => ⟨fun row hrow => holds_of_filterRows hrows hrow, hdb⟩)
      fun _ _ _ _ => trivial
  refine hquery.bind fun rows => Sat.of_fact fun hrows => ?_
  cases rows with
  | nil => exact sat_pure fun db hdb => ⟨nofun, hdb⟩
  | cons row rest =>
    have hid := hrows row List.mem_cons_self
    refine Sat.bind (R := fun user db => user.id = id ∧ db.sqlite = s)
      (sat_ofExcept (fun user db huser hdb => ⟨id_of_userFromRow hid huser, hdb⟩) fun _ _ _ _ => trivial)
      fun user => sat_pure fun db hdb => ⟨fun _ h => by cases h; exact hdb.1, hdb.2⟩

/-- The users that are listed are on the other side of the rows. -/
theorem sat_friendsFrom (found : List FriendshipRow) :
    Sat (fun db => db.sqlite = s) (friendsFrom env uid found)
      (fun friends db => (∀ friend ∈ friends, ∃ row ∈ found, friend.id = friendOf uid row) ∧ db.sqlite = s)
      (fun _ _ => True) fun _ => True := by
  have hcall : Sat (fun db => db.sqlite = s) (call env) (fun _ db => db.sqlite = s) (fun _ _ => True)
      fun _ => True := fun db hdb => ⟨nofun, fun _ _ => hdb, fun _ _ => trivial⟩
  induction found with
  | nil => exact hcall.bind fun _ => sat_pure fun db hdb => ⟨nofun, hdb⟩
  | cons row rest ih =>
    refine hcall.bind fun stepped => sat_ite (fun _ => ?_) fun _ => sat_pure fun db hdb => ⟨nofun, hdb⟩
    refine (sat_findById (friendOf uid row)).bind fun user => Sat.of_fact fun huser => ih.bind fun friends =>
      Sat.of_fact fun hfriends => sat_pure fun db hdb => ⟨fun friend hmem => ?_, hdb⟩
    rcases List.mem_append.mp hmem with hmem | hmem
    · exact ⟨row, List.mem_cons_self, huser friend (Option.mem_toList.mp hmem)⟩
    · obtain ⟨other, hother, hid⟩ := hfriends friend hmem
      exact ⟨other, List.mem_cons_of_mem _ hother, hid⟩

theorem isAccepted_friendOf {row : FriendshipRow}
    (h : (row.status = .accepted && (row.from_uid = uid || row.to_uid = uid)) = true) :
    isAccepted uid (friendOf uid row) row = true := by
  simp only [Bool.and_eq_true, Bool.or_eq_true, decide_eq_true_eq] at h
  rw [isAccepted, Bool.and_eq_true, decide_eq_true_eq, concerns_iff, friendOf]
  refine ⟨h.1, ?_⟩
  split
  · next hfrom => exact .inl ⟨hfrom, rfl⟩
  · next hfrom => exact .inr ⟨rfl, h.2.resolve_left hfrom⟩

/-- Whoever is listed is a friend. -/
theorem sat_getFriends (uid : Int32) :
    Sat (fun _ => True) (getFriends env uid)
      (fun friends db => ∀ friend ∈ friends, db.friendRows.any (isAccepted uid friend.id) = true)
      (fun _ _ => True) fun _ => True := by
  refine Sat.bind (R := fun _ _ => True) (fun _ _ => ⟨nofun, fun _ _ => trivial, fun _ _ => trivial⟩) fun prepared =>
    sat_ite (fun _ => sat_pure fun _ _ => nofun) fun _ => Sat.of_forall fun db _ => ?_
  refine Sat.bind (R := fun found db' => (∀ row ∈ found, row ∈ db.friendRows ∧
    (row.status = .accepted && (row.from_uid = uid || row.to_uid = uid)) = true) ∧ db'.sqlite = db.sqlite)
    (sat_asks fun db' hdb => ?_) fun found => Sat.of_fact fun hfound => ?_
  · subst hdb
    exact ⟨fun row hrow => List.mem_filter.mp ((env.scan_perm _ _).mem_iff.mp hrow), rfl⟩
  · refine (sat_friendsFrom found).post fun friends db' hdb friend hmem => ?_
    obtain ⟨row, hrow, hid⟩ := hdb.1 friend hmem
    obtain ⟨hmem, hrow⟩ := hfound row hrow
    rw [friendRows_of_sqlite hdb.2, hid]
    exact List.any_eq_true.mpr ⟨row, hmem, isAccepted_friendOf hrow⟩

end Queries

/-! ## Tables that can be read -/

/-- The users can be read, `known` are their ids, and `rows` are the friendships. -/
structure Standing (env : Env) (known : Int32 → Bool) (rows : List FriendshipRow) (db : Database) : Prop where
  users : ∃ users, Opens env .users users db ∧ Legible users ∧ ∀ id, users.any (isRowOf id) = known id
  friendships : FriendsShow (fun shown => shown = rows) db

section Standing

variable {env : Env} {known : Int32 → Bool} {rows : List FriendshipRow} {α : Type}

theorem Standing.friendRows {db : Database} (h : Standing env known rows db) : db.friendRows = rows :=
  h.friendships.view

theorem reads_standing : Reads env (fun _ _ => True) (Standing env known rows) (Standing env known rows) where
  counters _ _ _ _ h := ⟨h.users, h.friendships⟩
  load name := by
    have hkeeps : Keeps (Standing env known rows) (fun _ => True) (loadTable env name) := keeps_iff.mpr fun db hdb => by
      refine ⟨⟨?_, (keeps_iff.mp keeps_load db hdb.friendships).1⟩, nofun⟩
      obtain ⟨users, hopens, hlegible, hknown⟩ := hdb.users
      refine ⟨users, ?_, hlegible, hknown⟩
      rcases eq_or_ne name .users with rfl | hname
      · obtain ⟨a, -, hmem⟩ := returned_of_yields yields_opens hopens
        exact .inl hmem
      · exact (spares_loadTable hname.symm).opens hopens
    exact hkeeps.post fun _ _ h => ⟨h, fun _ _ => trivial⟩
  users := .inr fun _ h => h
  thrown _ h := h

theorem writesTo_standing {name : TableName} (hname : .users ≠ name) :
    WritesTo env (fun _ _ => True) (Standing env known rows) (Standing env known rows) name := by
  have hw := writesTo_friends env (fun shown => shown = rows) name
  have hkeeps : ∀ {α : Type} {c : DbM α}, Spares .users c → Guarded (FriendsShow fun shown => shown = rows)
      (FriendsShow fun shown => shown = rows) c → Guarded (Standing env known rows) (Standing env known rows) c := by
    intro α c hspares hguarded db hdb
    obtain ⟨users, hopens, hlegible, hknown⟩ := hdb.users
    obtain ⟨-, hok, herr⟩ := hguarded db hdb.friendships
    have husers := hspares.opens hopens
    exact ⟨nofun, fun a ha => ⟨⟨users, husers, hlegible, hknown⟩, hok a ha⟩,
      fun e he => ⟨⟨users, husers, hlegible, hknown⟩, herr e he⟩⟩
  exact
    { shape := fun _ _ => trivial
      put := fun _ _ _ _ _ => trivial
      insert := fun row _ => hkeeps (spares_insert hname row) (hw.insert row trivial)
      update := fun p u _ _ => hkeeps (spares_update hname p u) (hw.update p u (fun _ _ => .inr fun _ h => h)
        fun _ _ => trivial)
      remove := fun p => hkeeps (spares_remove hname p) (hw.remove p) }

theorem yields_update_user {users : RowList} (hlegible : Legible users) (id : Int32) (u : Row → Row) :
    Yields (Opens env .users users) (update env .users (UserRepository.hasId id) u) fun _ db =>
      db.tables .users = some (users.map fun row => if isRowOf id row then u row else row) := by
  refine yields_first fun db hmem => ?_
  have hid := fun row (hrow : row ∈ users) => hasId_of_legible hlegible hrow id
  have hsame : update env .users (UserRepository.hasId id) u db =
      update env .users (fun row => .ok (isRowOf id row)) u db := by
    unfold update Database.rows
    rw [bind_of_run _ (loadTable_of_cached hmem), bind_of_run _ (loadTable_of_cached hmem),
      bind_of_run _ (asks_apply ..), bind_of_run _ (asks_apply ..)]
    simp only [hmem, Option.getD_some]
    rw [updateRows_eq hid, updateRows_eq (q := isRowOf id) fun _ _ => rfl]
  have hupdate : Yields (Lists .users users) (update env .users (fun row => .ok (isRowOf id row)) u) fun _ db =>
      db.tables .users = some (users.map fun row => if isRowOf id row then u row else row) :=
    (yields_update (isRowOf id) u).post fun _ _ h => h.2
  have hrun := hupdate db (.inl hmem)
  rwa [← hsame] at hrun

/-- An assignment to a user that keeps the fields and the id. -/
theorem standing_update {u : Row → Row}
    (hfields : ∀ row key, (row.find? (lit key)).isSome → ((u row).find? (lit key)).isSome)
    (hid : ∀ row : Row, (u row).find? (lit "id") = row.find? (lit "id")) (id : Int32) :
    Guarded (Standing env known rows) (Standing env known rows) (update env .users (UserRepository.hasId id) u) := by
  intro db hdb
  obtain ⟨users, hopens, hlegible, hknown⟩ := hdb.users
  have hfriends := (writesTo_friends env (fun shown => shown = rows) .users).update (UserRepository.hasId id) u
    (fun _ _ => .inr fun _ h => h) (fun _ _ => trivial) db hdb.friendships
  have hsame : ∀ id' row, isRowOf id' (if isRowOf id row then u row else row) = isRowOf id' row := by
    intro id' row
    unfold isRowOf
    split
    · rw [hid]
    · rfl
  obtain ⟨hit, hresult, hmem⟩ := returned_of_yields (yields_update_user hlegible id u) hopens
  refine ⟨nofun, fun a ha => ⟨⟨_, .inl hmem, fun row hrow key hkey => ?_, fun id' => ?_⟩, hfriends.2.1 a ha⟩, fun e he => ?_⟩
  · obtain ⟨old, hold, rfl⟩ := List.mem_map.mp hrow
    have hhas := hlegible old hold key hkey
    split
    · exact hfields old key hhas
    · exact hhas
  · rw [← hknown id', List.any_map]
    exact congrArg users.any (funext fun row => hsame id' row)
  · rw [hresult] at he
    cases he

theorem isSome_put {row : Row} {key : String} (other : String) (v : Value) (h : (row.find? (lit key)).isSome) :
    (OrdMap.find? (row.put (lit other) v) (lit key)).isSome := by
  rw [OrdMap.find?_put]
  split
  · rfl
  · exact h

theorem find?_id_put {row : Row} {other : String} (hother : other ≠ "id") (v : Value) :
    OrdMap.find? (row.put (lit other) v) (lit "id") = row.find? (lit "id") :=
  OrdMap.find?_put_of_ne fun h => hother (lit_inj.mp h).symm

theorem standing_setOnlineStatus (id : Int32) (online : Bool) :
    Guarded (Standing env known rows) (Standing env known rows) (UserRepository.setOnlineStatus env id online) := by
  refine reads_standing.time.bind fun now => Guarded.bind (standing_update (fun row key h => ?_) (fun row => ?_) id)
    fun _ => guarded_pure ()
  · cases online with
    | false => exact isSome_put _ _ h
    | true => exact isSome_put _ _ (isSome_put _ _ h)
  · cases online with
    | false => exact find?_id_put (by decide) _
    | true => exact (find?_id_put (by decide) _).trans (find?_id_put (by decide) _)

theorem standing_verifyPassword (id : Int32) (password : Bytes) :
    Guarded (Standing env known rows) (Standing env known rows) (UserRepository.verifyPassword env id password) := by
  have hr := @reads_standing env known rows
  refine (hr.query fun _ _ => .inr fun _ h => h).bind fun found => ?_
  cases found with
  | nil => exact guarded_pure false
  | cons row rest =>
    refine (guarded_ofExcept (.inr fun _ h => h)).bind fun hash => (guarded_pure _).ite <| (guarded_pure false).ite ?_
    refine (hr.bcryptHashPassword password 12).bind fun upgraded => Guarded.bind (standing_update (fun row key h => ?_)
      (fun row => ?_) id) fun _ => guarded_pure true
    · exact isSome_put _ _ (isSome_put _ _ h)
    · exact (find?_id_put (by decide) _).trans (find?_id_put (by decide) _)

/-! ## What is listed -/

/-- A user is found by the id if it is known. -/
theorem sat_findById_known (id : Int32) :
    Sat (Standing env known rows) (UserRepository.findById env id)
      (fun found db => found.map (·.id) = (if known id then some id else none) ∧ Standing env known rows db)
      (fun _ _ => True) fun _ => True := by
  intro db hdb
  obtain ⟨users, hopens, hlegible, hknown⟩ := hdb.users
  have hkeeps := reads_standing.findById id db hdb
  refine ⟨nofun, fun found hfound => ⟨?_, hkeeps.2.1 found hfound⟩, fun _ _ => trivial⟩
  rw [← hknown id]
  exact ((yields_findById hlegible id db hopens).2.1 found hfound).1

/-- Exactly the friends that are known are listed. -/
theorem sat_getFriends_known (henv : env.Serves) (uid : Int32) :
    Sat (Standing env known rows) (getFriends env uid)
      (fun friends db => (∀ id, known id = true → (id ∈ friends.map (·.id) ↔ rows.any (isAccepted uid id) = true)) ∧
        Standing env known rows db)
      (fun _ _ => True) fun _ => True := by
  intro db hdb
  obtain ⟨users, hopens, hlegible, hknown⟩ := hdb.users
  have hkeeps := reads_standing.getFriends uid db hdb
  refine ⟨nofun, fun friends hfriends => ⟨fun id hid => ?_, hkeeps.2.1 friends hfriends⟩, fun _ _ => trivial⟩
  obtain ⟨listed, hlisted, hcount⟩ : ∃ listed, (getFriends env uid db).result = .ok listed ∧
      (listed.map (·.id)).count id = (db.friendRows.filter (isAccepted uid id)).length :=
    yields_getFriends henv hlegible hopens ((hknown id).trans hid)
  cases hfriends.symm.trans hlisted
  rw [← List.count_pos_iff, hcount, hdb.friendRows, List.length_pos_iff, ne_eq, List.filter_eq_nil_iff, List.any_eq_true]
  simp

theorem ids_usersFromRows {users : RowList} {infos : List UserInfo} (hlegible : Legible users)
    (h : UserRepository.usersFromRows users = .ok infos) {id : Int32} (hid : users.any (isRowOf id) = true) :
    id ∈ infos.map (·.id) := by
  induction users generalizing infos with
  | nil => cases hid
  | cons row rest ih =>
    obtain ⟨info, hinfo, h⟩ := bind_eq_ok h
    obtain ⟨others, hothers, h⟩ := bind_eq_ok h
    cases h
    have hrest : Legible rest := fun r hr => hlegible r (List.mem_cons_of_mem _ hr)
    rw [List.any_cons, Bool.or_eq_true] at hid
    rcases hid with hrow | hid
    · have hhas := hasId_of_legible hlegible List.mem_cons_self id
      rw [hrow] at hhas
      exact List.mem_map.mpr ⟨info, List.mem_cons_self, id_of_userFromRow hhas hinfo⟩
    · exact List.mem_cons_of_mem _ (ih hrest hothers hid)

/-- Every known user is listed. -/
theorem sat_getAllUsers_known :
    Sat (Standing env known rows) (UserRepository.getAllUsers env)
      (fun users db => (∀ id, known id = true → id ∈ users.map (·.id)) ∧ Standing env known rows db)
      (fun _ _ => True) fun _ => True := by
  intro db hdb
  obtain ⟨users, hopens, hlegible, hknown⟩ := hdb.users
  have hkeeps := reads_standing.getAllUsers db hdb
  refine ⟨nofun, fun infos hinfos => ⟨fun id hid => ?_, hkeeps.2.1 infos hinfos⟩, fun _ _ => trivial⟩
  have hquery : Yields (Opens env .users users) (queryAll env .users) fun all _ => all = users :=
    yields_opens.bind fun _ => (yields_asks _).post fun all db h => by
      obtain ⟨rfl, hmem⟩ := h
      rw [hmem]
      rfl
  obtain ⟨all, hall, hinfos⟩ := result_bind_eq_ok.mp hinfos
  cases (hquery db hopens).2.1 all hall
  exact ids_usersFromRows hlegible hinfos ((hknown id).trans hid)

end Standing

end FriendRepository

end LanChat
