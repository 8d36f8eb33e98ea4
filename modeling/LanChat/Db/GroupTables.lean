import LanChat.Lib.Run
import LanChat.Db.Tracks

/-!
# The two tables of the groups

`groups` and `group_members` are linked by the scans of the repository alone.
Its operations keep them consistent, whatever fails: a membership belongs to a
group, and none is there twice (`groups_agree`). The groups of a user are then
those that have the user as a member.
-/

namespace LanChat

open Lib Json

namespace Database

open Cmd

/-- Loading the table gives these rows: they are in memory, or they are all that
is stored, and SQLite serves if that is anything. -/
def Opens (env : Env) (name : TableName) (rows : RowList) (db : Database) : Prop :=
  db.tables name = some rows ∨
    (db.tables name = none ∧ ∃ texts, Shows name (· = texts) db.sqlite ∧ readable texts = rows ∧
      (∀ text ∈ texts, ∃ row, loadRow text = .ok row) ∧ (texts = [] ∨ env.Serves))

section Opens

variable {env : Env} {name other : TableName} {rows : RowList} {db : Database} {α : Type} {c : DbM α}

theorem view_of_shows {s : Sqlite} {texts : List Bytes} (h : Shows name (· = texts) s) :
    (s.view.docs name).getD [] = texts := by
  obtain ⟨file, _ | t⟩ := s
  · exact h.1
  · exact h.2 t rfl

theorem Opens.content (h : Opens env name rows db) : db.content name = rows := by
  rcases h with hmem | ⟨hmem, texts, hshows, hrows, -⟩
  · exact content_of_cached hmem
  · rw [Database.content, hmem]
    simp only [view_of_shows hshows, hrows]

theorem Spares.opens (hc : Spares name c) (h : Opens env name rows db) : Opens env name rows (c db).state := by
  have htables : (c db).state.tables name = db.tables name := hc.tables db
  rcases h with hmem | ⟨hmem, texts, hshows, hrest⟩
  · exact .inl (htables.trans hmem)
  · exact .inr ⟨htables.trans hmem, texts, hc.docs _ db hshows, hrest⟩

theorem returns_readRows {texts : List Bytes} (h : ∀ text ∈ texts, ∃ row, loadRow text = .ok row) :
    Returns (readRows env texts) := by
  have hcall : Returns (call env) := fun _ => ⟨_, rfl⟩
  induction texts with
  | nil => exact returns_bind hcall fun _ => returns_pure []
  | cons text texts ih =>
    obtain ⟨row, hrow⟩ := h text List.mem_cons_self
    refine returns_bind hcall fun served => returns_ite ?_ (returns_pure [])
    rw [hrow]
    exact returns_bind (fun _ => ⟨row, rfl⟩) fun _ =>
      returns_bind (ih fun t ht => h t (List.mem_cons_of_mem _ ht)) fun _ => returns_pure _

theorem yields_opens : Yields (Opens env name rows) (loadTable env name) fun _ db => db.tables name = some rows := by
  rintro db (hmem | ⟨hmem, texts, hshows, hrows, hread, rfl | henv⟩)
  · exact yields_load db (.inl hmem)
  · exact yields_load db (.inr ⟨hmem, hrows.symm, view_of_shows hshows⟩)
  · have hprepare : prepare env name db = ⟨.ok (!env.sqliteFails db.calls &&
        (db.sqlite.view.docs name).isSome), { db with calls := db.calls + 1 }, []⟩ := rfl
    have hresult : (loadTable env name db).result = .ok () := by
      unfold loadTable
      rw [bind_of_run _ (asks_apply ..)]
      simp only [hmem, Option.isSome_none, Bool.false_eq_true, if_false]
      rw [bind_of_run _ hprepare]
      split
      · rw [bind_of_run _ (asks_apply ..)]
        simp only [view_of_shows hshows]
        obtain ⟨read, hok⟩ := returns_readRows hread { db with calls := db.calls + 1 }
        exact result_bind_eq_ok.mpr ⟨read, hok, rfl⟩
      · rfl
    have hloaded := (@sat_loadTable env (fun _ => True) (fun _ => True) name db trivial).2.1 () hresult
    obtain ⟨found, hfound⟩ := Option.isSome_iff_exists.mp hloaded
    have hcontent := (content_loadTable env name db).2 (.inl henv)
    rw [content_of_cached hfound, Opens.content (.inr ⟨hmem, texts, hshows, hrows, hread, .inr henv⟩)] at hcontent
    rw [hresult]
    exact ⟨nofun, fun _ _ => hcontent ▸ hfound, nofun⟩

/-- A scan whose condition fails on no row finds the rows that satisfy it. -/
theorem yields_scan {p : Row → Except Exn Bool} {q : Row → Bool} (h : ∀ row ∈ rows, p row = .ok (q row)) :
    Yields (Opens env name rows) (query env name p) fun found db =>
      found = rows.filter q ∧ db.tables name = some rows := by
  refine yields_opens.bind fun _ => (yields_asks _).bind fun all => ?_
  refine sat_ofExcept (fun found db hfound hdb => ?_) fun e db he hdb => ?_
  · obtain ⟨rfl, hmem⟩ := hdb
    simp only [hmem, Option.getD_some, filterRows_eq h, Except.ok.injEq] at hfound
    exact ⟨hfound.symm, hmem⟩
  · obtain ⟨rfl, hmem⟩ := hdb
    simp only [hmem, Option.getD_some, filterRows_eq h] at he
    cases he

/-- An operation that loads the table first may rely on it being in memory. -/
theorem yields_first {f : Unit → DbM α} {Q : α → Database → Prop}
    (h : Yields (fun db => db.tables name = some rows) (loadTable env name >>= f) Q) :
    Yields (Opens env name rows) (loadTable env name >>= f) Q :=
  yields_opens.bind fun _ db hdb => by
    have hrun := h db hdb
    rwa [bind_of_run f (loadTable_of_cached hdb)] at hrun

/-- An operation beside a table that it leaves alone. -/
theorem Yields.beside {P : Database → Prop} {Q : α → Database → Prop} (h : Yields P c Q) (hc : Spares other c) :
    Yields (fun db => P db ∧ Opens env other rows db) c fun a db => Q a db ∧ Opens env other rows db :=
  fun db hdb => ⟨nofun, fun a ha => ⟨(h db hdb.1).2.1 a ha, hc.opens hdb.2⟩, (h db hdb.1).2.2⟩

theorem returned_of_yields {P : Database → Prop} {Q : α → Database → Prop} (h : Yields P c Q) (hdb : P db) :
    ∃ a, (c db).result = .ok a ∧ Q a (c db).state := by
  obtain ⟨-, hok, herr⟩ := h db hdb
  cases hr : (c db).result with
  | ok a => exact ⟨a, rfl, hok a hr⟩
  | error e => exact (herr e hr).elim

theorem yields_remove (p : Row → Bool) :
    Yields (Lists name rows) (remove env name p) fun _ db => db.tables name = some (rows.filter fun row => !p row) := by
  refine yields_load.bind fun _ => (yields_asks _).bind fun all db hdb => ?_
  obtain ⟨hall, hmem⟩ := hdb
  have hrows : all = rows := by rw [hall, hmem]; rfl
  have hsave : Yields (fun _ => True) ((setTable name (rows.filter fun row => !p row) >>=
      fun _ => saveTable env name) >>= fun _ => pure (rows.any p)) fun _ db =>
      db.tables name = some (rows.filter fun row => !p row) :=
    (yields_setSave _).bind fun _ => sat_pure fun _ h => h
  rw [bind_assoc] at hsave
  rw [hrows]
  exact hsave db trivial

end Opens

end Database

namespace ChannelRepository

open Database Cmd

/-! ## Consistent tables -/

/-- What a membership is: a user and a group. -/
def pair (row : Row) : Int32 × Int32 := (rowInt row "user_id", rowInt row "group_id")

/-- Every membership belongs to a group, and no two are the same. -/
structure Consistent (groups members : RowList) : Prop where
  refers : ∀ member ∈ members, ∃ group ∈ groups, isGroup (rowInt member "group_id") group = true
  distinct : (members.map pair).Nodup

/-- The rows of the two tables. -/
def Stands (env : Env) (groups members : RowList) (db : Database) : Prop :=
  Opens env .groups groups db ∧ Opens env .group_members members db

section Consistent

variable {env : Env} {groups members : RowList} {userId groupId : Int32} {row : Row}

theorem isMembership_iff : isMembership userId groupId row = true ↔ pair row = (userId, groupId) := by
  simp [isMembership, pair]

theorem pair_memberRow (now : Int64) : pair (memberRow userId groupId now) = (userId, groupId) := by
  simp [pair, memberRow, rowInt, rowInt64, find?_object, ofInt32, Value.asInt, Value.isNumber]

theorem Consistent.addGroup (h : Consistent groups members) (row : Row) : Consistent (groups ++ [row]) members := by
  refine ⟨fun member hmember => ?_, h.distinct⟩
  obtain ⟨group, hgroup, hid⟩ := h.refers member hmember
  exact ⟨group, List.mem_append_left _ hgroup, hid⟩

theorem Consistent.addMember (h : Consistent groups members) (hknown : ∃ group ∈ groups, isGroup groupId group = true)
    (hnew : members.filter (isMembership userId groupId) = []) (now : Int64) :
    Consistent groups (members ++ [memberRow userId groupId now]) := by
  refine ⟨fun member hmember => ?_, ?_⟩
  · rcases List.mem_append.mp hmember with hold | hadded
    · exact h.refers member hold
    · rw [List.mem_singleton.mp hadded,
        show rowInt (memberRow userId groupId now) "group_id" = groupId from congrArg Prod.snd (pair_memberRow now)]
      exact hknown
  · rw [List.map_append, List.map_singleton, pair_memberRow]
    refine List.nodup_append.mpr ⟨h.distinct, List.nodup_singleton _, fun p hp q hq heq => ?_⟩
    rw [heq, List.mem_singleton.mp hq] at hp
    obtain ⟨member, hmember, hpair⟩ := List.mem_map.mp hp
    exact List.filter_eq_nil_iff.mp hnew member hmember (isMembership_iff.mpr hpair)

theorem Consistent.filter (h : Consistent groups members) (p : Row → Bool) :
    Consistent groups (members.filter p) :=
  ⟨fun member hmember => h.refers member (List.mem_filter.mp hmember).1,
    h.distinct.sublist (List.filter_sublist.map _)⟩

/-! ## The operations -/

/-- A query of one table. -/
theorem yields_groups (p : Row → Bool) :
    Yields (Stands env groups members) (query env .groups fun row => .ok (p row)) fun found db =>
      found = groups.filter p ∧ Stands env groups members db :=
  (Yields.beside (yields_first ((yields_query p).pre fun _ h => .inl h)) (spares_query (by decide) _)).post
    fun _ _ h => ⟨h.1.1, .inl h.1.2, h.2⟩

theorem yields_memberships (p : Row → Bool) :
    Yields (Stands env groups members) (query env .group_members fun row => .ok (p row)) fun found db =>
      found = members.filter p ∧ Stands env groups members db :=
  ((Yields.beside (yields_first ((yields_query p).pre fun _ h => .inl h)) (spares_query (by decide) _)).pre
    fun _ h => ⟨h.2, h.1⟩).post fun _ _ h => ⟨h.1.1, h.2, .inl h.1.2⟩

theorem yields_clock : Yields (Stands env groups members) (time env) fun _ => Stands env groups members :=
  fun _ h => ⟨nofun, fun _ _ => h, nofun⟩

/-- Who joins a group that exists is a member. -/
theorem yields_join (h : Consistent groups members) (userId groupId : Int32) :
    Yields (Stands env groups members) (join env userId groupId) fun _ db => ∃ members',
      Stands env groups members' db ∧ Consistent groups members' ∧
        ((∃ group ∈ groups, isGroup groupId group = true) → (userId, groupId) ∈ members'.map pair) := by
  have hexists : Yields (Stands env groups members) («exists» env groupId) fun known db =>
      (known = true ↔ ∃ group ∈ groups, isGroup groupId group = true) ∧ Stands env groups members db :=
    (yields_groups _).bind fun found => sat_pure fun db hdb => ⟨by rw [hdb.1]; simp, hdb.2⟩
  refine hexists.bind fun known => Sat.of_fact fun hknown => sat_ite (fun hno => ?_) fun hyes => ?_
  · refine sat_pure fun db hdb => ⟨members, hdb, h, fun hgroup => ?_⟩
    rw [hknown.mpr hgroup] at hno
    cases hno
  refine (yields_memberships _).bind fun found => Sat.of_fact fun hfound => sat_ite (fun hthere => ?_) fun hnew => ?_
  · refine sat_pure fun db hdb => ⟨members, hdb, h, fun _ => ?_⟩
    obtain ⟨row, hrow⟩ := List.exists_mem_of_ne_nil found (by simpa using hthere)
    rw [hfound] at hrow
    exact List.mem_map.mpr ⟨row, (List.mem_filter.mp hrow).1, isMembership_iff.mp (List.mem_filter.mp hrow).2⟩
  refine yields_clock.bind fun now => Sat.bind (((Yields.beside (yields_first ((yields_insert _).pre
    fun _ h => .inl h)) (spares_insert (by decide) _)).pre fun _ hdb => ⟨hdb.2, hdb.1⟩)) fun _ =>
    sat_pure fun db hdb => ⟨members ++ [memberRow userId groupId now], ⟨hdb.2, .inl hdb.1⟩, ?_, fun _ => ?_⟩
  · have hnil : members.filter (isMembership userId groupId) = [] := by
      rw [← hfound]
      simpa using hnew
    exact h.addMember (hknown.mp (by simpa using hyes)) hnil now
  · rw [List.map_append, List.map_singleton, pair_memberRow]
    exact List.mem_append_right _ List.mem_cons_self

/-- The host of a new group is a member. -/
theorem yields_createGroup (h : Consistent groups members) (hostId : Int32) (name : Bytes) :
    Yields (Stands env groups members) (createGroup env hostId name) fun group db => ∃ groups' members',
      Stands env groups' members' db ∧ Consistent groups' members' ∧
        (hostId, group.group_id) ∈ members'.map pair := by
  have hnext : Yields (Stands env groups members) (nextGroupId env) fun _ => Stands env groups members :=
    ((Yields.beside (yields_first (yields_queryAll.pre fun _ h => .inl h))
      ((spares_loadTable (by decide)).bind fun _ => spares_asks _)).post fun _ _ hdb =>
        (⟨.inl hdb.1.2, hdb.2⟩ : Stands env groups members _)).bind fun _ => sat_pure fun _ hdb => hdb
  refine hnext.bind fun id => yields_clock.bind fun now => ?_
  refine Sat.bind (Yields.beside (yields_first ((yields_insert (groupRow ⟨id, hostId, name⟩ now)).pre
    fun _ h => .inl h)) (spares_insert (by decide) _)) fun _ => ?_
  refine Sat.bind ((yields_join (h.addGroup (groupRow ⟨id, hostId, name⟩ now)) hostId id).pre fun _ hdb =>
    ⟨.inl hdb.1, hdb.2⟩) fun _ => sat_pure fun db hdb => ?_
  obtain ⟨members', hstands, hconsistent, hhost⟩ := hdb
  have hid : isGroup id (groupRow ⟨id, hostId, name⟩ now) = true := by
    simp [isGroup, groupRow, rowInt, rowInt64, find?_object, ofInt32, Value.asInt, Value.isNumber]
  exact ⟨_, members', hstands, hconsistent, hhost ⟨_, List.mem_append_right _ List.mem_cons_self, hid⟩⟩

theorem yields_leave (h : Consistent groups members) (userId groupId : Int32) :
    Yields (Stands env groups members) (leave env userId groupId) fun _ db => ∃ members',
      Stands env groups members' db ∧ Consistent groups members' :=
  ((Yields.beside (yields_first ((yields_remove _).pre fun _ h => .inl h)) (spares_remove (by decide) _)).pre
    fun _ hdb => ⟨hdb.2, hdb.1⟩).post fun _ _ hdb => ⟨_, ⟨hdb.2, .inl hdb.1⟩, h.filter _⟩

/-! ## The two directions -/

theorem yields_members (groupId : Int32) :
    Yields (Stands env groups members) (ChannelRepository.members env groupId) fun ids _ =>
      ids = (members.filter (isGroup groupId)).map fun row => rowInt row "user_id" :=
  (yields_memberships _).bind fun _ => sat_pure fun _ hdb => by rw [hdb.1]

/-- Each membership is listed as its group. -/
theorem yields_groupsOf (list : RowList)
    (hrefers : ∀ member ∈ list, ∃ group ∈ groups, isGroup (rowInt member "group_id") group = true) :
    Yields (Stands env groups members) (groupsOf env list) fun listed db =>
      listed.map (·.group_id) = list.map (fun row => rowInt row "group_id") ∧ Stands env groups members db := by
  induction list with
  | nil => exact sat_pure fun _ hdb => ⟨rfl, hdb⟩
  | cons member rest ih =>
    refine (yields_groups _).bind fun found => Sat.of_fact fun hfound => ?_
    refine (ih fun row hrow => hrefers row (List.mem_cons_of_mem _ hrow)).bind fun listed =>
      sat_pure fun db hdb => ⟨?_, hdb.2⟩
    obtain ⟨group, hgroup, hid⟩ := hrefers member List.mem_cons_self
    have hmem : group ∈ found := by
      rw [hfound]
      exact List.mem_filter.mpr ⟨hgroup, hid⟩
    obtain ⟨first, more, rfl⟩ := List.exists_cons_of_ne_nil (List.ne_nil_of_mem hmem)
    have hfirst : isGroup (rowInt member "group_id") first = true :=
      (List.mem_filter.mp (hfound ▸ List.mem_cons_self (l := more))).2
    have hhead : (fromRow first).group_id = rowInt member "group_id" := by simpa [isGroup, fromRow] using hfirst
    simp [hdb.1, hhead]

theorem yields_groupsForUser (h : Consistent groups members) (userId : Int32) :
    Yields (Stands env groups members) (groupsForUser env userId) fun listed _ =>
      listed.map (·.group_id) = (members.filter (isUser userId)).map fun row => rowInt row "group_id" := by
  refine (yields_memberships _).bind fun found => Sat.of_fact fun hfound => ?_
  refine (yields_groupsOf found fun row hrow => ?_).post fun listed _ hdb => by rw [hdb.1, hfound]
  rw [hfound] at hrow
  exact h.refers row (List.mem_filter.mp hrow).1

/-- The groups of a user and the members of a group are read off the same pairs. -/
theorem mem_groups_iff :
    groupId ∈ (members.filter (isUser userId)).map (fun row => rowInt row "group_id") ↔
      userId ∈ (members.filter (isGroup groupId)).map fun row => rowInt row "user_id" := by
  simp only [List.mem_map, List.mem_filter, isUser, isGroup, decide_eq_true_eq]
  constructor
  · rintro ⟨row, ⟨hrow, huser⟩, hgroup⟩
    exact ⟨row, ⟨hrow, hgroup⟩, huser⟩
  · rintro ⟨row, ⟨hrow, hgroup⟩, huser⟩
    exact ⟨row, ⟨hrow, huser⟩, hgroup⟩

theorem Consistent.nodup_groups (h : Consistent groups members) (userId : Int32) :
    ((members.filter (isUser userId)).map fun row => rowInt row "group_id").Nodup := by
  have hpairs : ((members.filter (isUser userId)).map pair).Nodup :=
    h.distinct.sublist (List.filter_sublist.map _)
  have hsame : (members.filter (isUser userId)).map pair =
      ((members.filter (isUser userId)).map fun row => rowInt row "group_id").map fun id => (userId, id) := by
    rw [List.map_map]
    refine List.map_congr_left fun row hrow => ?_
    have huser : rowInt row "user_id" = userId := of_decide_eq_true (List.mem_filter.mp hrow).2
    exact congrArg (·, rowInt row "group_id") huser
  rw [hsame] at hpairs
  exact hpairs.of_map

theorem Consistent.nodup_members (h : Consistent groups members) (groupId : Int32) :
    ((members.filter (isGroup groupId)).map fun row => rowInt row "user_id").Nodup := by
  have hpairs : ((members.filter (isGroup groupId)).map pair).Nodup :=
    h.distinct.sublist (List.filter_sublist.map _)
  have hsame : (members.filter (isGroup groupId)).map pair =
      ((members.filter (isGroup groupId)).map fun row => rowInt row "user_id").map fun id => (id, groupId) := by
    rw [List.map_map]
    refine List.map_congr_left fun row hrow => ?_
    have hgroup : rowInt row "group_id" = groupId := of_decide_eq_true (List.mem_filter.mp hrow).2
    exact congrArg (rowInt row "user_id", ·) hgroup
  rw [hsame] at hpairs
  exact hpairs.of_map

end Consistent

/-! ## Runs -/

/-- An operation on the groups, with arbitrary ids. -/
inductive GroupCall where
  | createGroup (hostId : Int32) (name : Bytes)
  | join (userId groupId : Int32)
  | leave (userId groupId : Int32)
deriving DecidableEq

namespace GroupCall

variable (env : Env)

def execute : GroupCall → DbM Unit
  | createGroup hostId name => do
    let _ ← ChannelRepository.createGroup env hostId name
    pure ()
  | join userId groupId => do
    let _ ← ChannelRepository.join env userId groupId
    pure ()
  | leave userId groupId => do
    let _ ← ChannelRepository.leave env userId groupId
    pure ()

/-- The database after the operation, also if it throws. -/
def step (db : Database) (call : GroupCall) : Option Database := some (call.execute env db).state

end GroupCall

/-- The two tables are consistent, and so is what is read off them. -/
structure GroupsAgree (env : Env) (db : Database) : Prop where
  consistent : Consistent (db.content .groups) (db.content .group_members)
  /-- A group that is created has its host as a member. -/
  host : ∀ hostId name, ∃ group ids, (createGroup env hostId name db).result = .ok group ∧
    (members env group.group_id (createGroup env hostId name db).state).result = .ok ids ∧ hostId ∈ ids
  /-- A group is listed for a user exactly if the user is one of its members, each once. -/
  agree : ∀ userId groupId, ∃ groups ids, (groupsForUser env userId db).result = .ok groups ∧
    (members env groupId db).result = .ok ids ∧
    (groupId ∈ groups.map (·.group_id) ↔ userId ∈ ids) ∧ (groups.map (·.group_id)).Nodup ∧ ids.Nodup

section Runs

variable {env : Env} {groups members : RowList} {db : Database}

theorem groupsAgree_of_stands (h : Consistent groups members) (hdb : Stands env groups members db) :
    GroupsAgree env db where
  consistent := by
    rw [hdb.1.content, hdb.2.content]
    exact h
  host hostId name := by
    obtain ⟨group, hgroup, groups', members', hstands, -, hhost⟩ := returned_of_yields (yields_createGroup h hostId name) hdb
    obtain ⟨ids, hids, rfl⟩ := returned_of_yields (yields_members group.group_id) hstands
    refine ⟨group, _, hgroup, hids, ?_⟩
    obtain ⟨row, hrow, hpair⟩ := List.mem_map.mp hhost
    refine List.mem_map.mpr ⟨row, List.mem_filter.mpr ⟨hrow, ?_⟩, congrArg Prod.fst hpair⟩
    exact decide_eq_true (congrArg Prod.snd hpair)
  agree userId groupId := by
    obtain ⟨listed, hlisted, hgroups⟩ := returned_of_yields (yields_groupsForUser h userId) hdb
    obtain ⟨ids, hids, rfl⟩ := returned_of_yields (yields_members groupId) hdb
    refine ⟨listed, _, hlisted, hids, ?_, ?_, h.nodup_members groupId⟩
    · rw [hgroups]
      exact mem_groups_iff
    · rw [hgroups]
      exact h.nodup_groups userId

/-- The tables of the groups stay consistent. -/
theorem stands_step (h : Consistent groups members) (hdb : Stands env groups members db) (call : GroupCall) :
    ∃ groups' members', Stands env groups' members' (call.execute env db).state ∧ Consistent groups' members' := by
  cases call with
  | createGroup hostId name =>
    obtain ⟨_, -, groups', members', hstands, hconsistent, -⟩ := returned_of_yields (yields_createGroup h hostId name) hdb
    refine ⟨groups', members', ?_, hconsistent⟩
    rw [GroupCall.execute, state_bind_pure]
    exact hstands
  | join userId groupId =>
    obtain ⟨_, -, members', hstands, hconsistent, -⟩ := returned_of_yields (yields_join h userId groupId) hdb
    refine ⟨groups, members', ?_, hconsistent⟩
    rw [GroupCall.execute, state_bind_pure]
    exact hstands
  | leave userId groupId =>
    obtain ⟨_, -, members', hstands, hconsistent⟩ := returned_of_yields (yields_leave h userId groupId) hdb
    refine ⟨groups, members', ?_, hconsistent⟩
    rw [GroupCall.execute, state_bind_pure]
    exact hstands

/-- In every state of a run that starts with consistent tables, whatever fails,
the tables are consistent and the groups of the users agree with the members of
the groups. -/
theorem groups_agree (hdb : Stands env groups members db) (h : Consistent groups members)
    (calls : List GroupCall) : Throughout (GroupCall.step env) (GroupsAgree env) db calls := by
  have hrun : Throughout (GroupCall.step env)
      (fun db => ∃ groups members, Stands env groups members db ∧ Consistent groups members) db calls := by
    refine throughout_of_step (fun db call db' ⟨_, _, hdb, h⟩ hstep => ?_) ⟨groups, members, hdb, h⟩ calls
    cases hstep
    exact stands_step h hdb call
  exact hrun.imp fun db ⟨_, _, hdb, h⟩ => groupsAgree_of_stands h hdb

/-- Nothing is known yet of the groups in a new file. -/
theorem groups_agree_empty :
    Throughout (GroupCall.step .ideal) (GroupsAgree .ideal) (startUp .ideal (connect .empty)).state
      [.createGroup 7 (lit "g"), .join 8 2001, .join 8 2001, .join 8 9, .createGroup 8 (lit "g"), .leave 7 2001] := by
  have hidle : (startUp .ideal (connect .empty)).state.sqlite.transaction = none :=
    Option.isNone_iff_eq_none.mp (by decide +kernel)
  have hopens : ∀ name, name = .groups ∨ name = .group_members →
      Opens .ideal name [] (startUp .ideal (connect .empty)).state := by
    rintro name (rfl | rfl) <;>
      exact .inr ⟨by decide +kernel, [], ⟨by decide +kernel, fun c hc => absurd hc (by rw [hidle]; nofun)⟩, rfl,
        nofun, .inl rfl⟩
  exact groups_agree ⟨hopens _ (.inl rfl), hopens _ (.inr rfl)⟩ ⟨nofun, List.nodup_nil⟩ _

end Runs

end ChannelRepository

end LanChat
