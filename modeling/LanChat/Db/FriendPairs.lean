import LanChat.Lib.Run
import LanChat.Db.Friendships
import LanChat.Db.GroupTables

/-!
# The friendships of a pair

The table may hold a row in each direction of a pair. A request is new only if
no row of the pair is pending or accepted, whichever of them its query returns,
so that of the two rows at most one is (`friends_agree`). Friendship is then
symmetric, and a friend is listed once.
-/

namespace LanChat

open Lib Json

namespace FriendRepository

open Database Cmd

/-- `pending` or `accepted`. -/
def isLive (r : FriendshipRow) : Bool := r.status != .rejected

/-- At most one row in each direction of a pair, and at most one of a pair is live. -/
structure Proper (rows : List FriendshipRow) : Prop where
  distinct : PairsDistinct rows
  alone : rows.Pairwise fun r r' => isLive r = true → isLive r' = true → concerns r.from_uid r.to_uid r' = false

section Proper

variable {uidA uidB fromUid toUid : Int32} {rows rows' : List FriendshipRow} {row : FriendshipRow}

theorem concerns_comm (uidA uidB : Int32) (r : FriendshipRow) : concerns uidA uidB r = concerns uidB uidA r := by
  rw [Bool.eq_iff_iff, concerns_iff, concerns_iff, or_comm]

/-- Two rows of one pair. -/
theorem concerns_of_rows {r r' : FriendshipRow} (h : concerns uidA uidB r = true)
    (h' : concerns uidA uidB r' = true) : concerns r.from_uid r.to_uid r' = true := by
  rw [concerns_iff] at h h' ⊢
  rcases h with ⟨rfl, rfl⟩ | ⟨rfl, rfl⟩
  · exact h'
  · exact h'.symm

theorem Proper.live_le_one (h : Proper rows) (uidA uidB : Int32) :
    (rows.filter fun r => concerns uidA uidB r && isLive r).length ≤ 1 := by
  have hpairs := h.alone.filter fun r => concerns uidA uidB r && isLive r
  have hall : ∀ r ∈ rows.filter fun r => concerns uidA uidB r && isLive r,
      concerns uidA uidB r = true ∧ isLive r = true := fun r hr => by
    simpa using (List.mem_filter.mp hr).2
  match hfound : rows.filter fun r => concerns uidA uidB r && isLive r with
  | [] => exact Nat.zero_le 1
  | [_] => exact Nat.le_refl 1
  | r :: r' :: _ =>
    rw [hfound] at hpairs hall
    obtain ⟨hr, hlive⟩ := hall r List.mem_cons_self
    obtain ⟨hr', hlive'⟩ := hall r' (List.mem_cons_of_mem _ List.mem_cons_self)
    have hapart := List.rel_of_pairwise_cons hpairs List.mem_cons_self hlive hlive'
    rw [concerns_of_rows hr hr'] at hapart
    cases hapart

/-! ## What keeps the rows proper -/

/-- A new request: no row of the pair is live. -/
structure Asked (fromUid toUid : Int32) (rows rows' : List FriendshipRow) : Prop where
  inserted : Inserted fromUid toUid rows rows'
  unanswered : (∀ r ∈ rows, concerns fromUid toUid r = false) ∨
    ∃ r ∈ rows, isPair toUid fromUid r = true ∧ isLive r = false

theorem Asked.proper (h : Asked fromUid toUid rows rows') (hrows : Proper rows) : Proper rows' := by
  have hdistinct := Requested.pairsDistinct (.inl h.inserted) hrows.distinct
  obtain ⟨hfresh, row, rfl, rfl, -, rfl⟩ := h.inserted
  refine ⟨hdistinct, List.pairwise_append.mpr ⟨hrows.alone, List.pairwise_singleton .., ?_⟩⟩
  intro r hr r' hr' hlive _
  rw [List.mem_singleton.mp hr', Bool.eq_false_iff, ne_eq, concerns_iff]
  rintro (⟨hfrom, hto⟩ | ⟨hfrom, hto⟩)
  · have hnone := hfresh r hr
    rw [isPair_iff.mpr ⟨hfrom.symm, hto.symm⟩] at hnone
    cases hnone
  · rcases h.unanswered with hnone | ⟨q, hq, hpair, hdead⟩
    · have hother := hnone r hr
      rw [concerns_iff.mpr (.inr ⟨hto.symm, hfrom.symm⟩)] at hother
      cases hother
    · obtain ⟨hqfrom, hqto⟩ := isPair_iff.mp hpair
      have hsame : q = r := hrows.distinct.eq hr hq (isPair_iff.mpr ⟨hqfrom.trans hto, hqto.trans hfrom⟩)
      rw [← hsame, hdead] at hlive
      cases hlive

/-- An update that leaves the users of a row alone and revives none. -/
theorem Proper.updated {p : FriendshipRow → Bool} {u : FriendshipRow → FriendshipRow} (h : Proper rows)
    (hu : ∀ r, (u r).from_uid = r.from_uid ∧ (u r).to_uid = r.to_uid)
    (hlive : ∀ r, p r = true → isLive r = true) : Proper (updated p u rows) := by
  refine ⟨pairsDistinct_updated hu h.distinct, List.pairwise_map.mpr (h.alone.imp fun {r r'} halone => ?_)⟩
  have hsame : ∀ r, (if p r then u r else r).from_uid = r.from_uid ∧ (if p r then u r else r).to_uid = r.to_uid := by
    intro r
    split
    · exact hu r
    · exact ⟨rfl, rfl⟩
  have hbefore : ∀ r, isLive (if p r then u r else r) = true → isLive r = true := by
    intro r hr
    split at hr
    · next hp => exact hlive r hp
    · exact hr
  intro hr hr'
  have hapart := halone (hbefore r hr) (hbefore r' hr')
  rw [Bool.eq_false_iff, ne_eq, concerns_iff] at hapart ⊢
  rwa [(hsame r).1, (hsame r).2, (hsame r').1, (hsame r').2]

theorem isLive_of_isPending (r : FriendshipRow) (h : isPending fromUid toUid r = true) : isLive r = true := by
  rw [isLive, (isPending_iff.mp h).2]
  rfl

theorem Proper.filter (h : Proper rows) (p : FriendshipRow → Bool) : Proper (rows.filter p) :=
  ⟨h.distinct.filter p, h.alone.filter p⟩

end Proper

/-! ## The operations -/

/-- An operation on the friendships, with arbitrary ids. -/
inductive FriendCall where
  | sendRequest (fromUid toUid : Int32) (requestMsg : Bytes)
  | acceptRequest (fromUid toUid : Int32)
  | rejectRequest (fromUid toUid : Int32)
  | removeFriendship (uidA uidB : Int32)
deriving DecidableEq

namespace FriendCall

variable (env : Env)

def execute : FriendCall → DbM Bool
  | sendRequest fromUid toUid requestMsg => FriendRepository.sendRequest env fromUid toUid requestMsg
  | acceptRequest fromUid toUid => FriendRepository.acceptRequest env fromUid toUid
  | rejectRequest fromUid toUid => FriendRepository.rejectRequest env fromUid toUid
  | removeFriendship uidA uidB => FriendRepository.removeFriendship env uidA uidB

def step (db : Database) (call : FriendCall) : Option Database := some (call.execute env db).state

/-- The step of the `SELECT` of a request returns a row if there is one. -/
def Finds (db : Database) : FriendCall → Prop
  | sendRequest .. => env.sqliteFails (db.calls + 1) = false
  | _ => True

end FriendCall

section Operations

variable {env : Env} {db : Database} {α : Type}

/-- The open transaction as the file. -/
def flat (db : Database) : Database := { db with sqlite := ⟨db.sqlite.view, none⟩ }

theorem friendRows_flat (db : Database) : (flat db).friendRows = db.friendRows := rfl

/-- The operations do not see whether a transaction is open. -/
theorem blind_write (change : Content → Option Content) : Blind flat (exec env (Sqlite.write change)) := by
  have hwrite : ∀ s : Sqlite, Sqlite.write change ⟨s.view, none⟩ =
      (Sqlite.write change s).map fun s => ⟨s.view, none⟩ := by
    rintro ⟨file, _ | t⟩
    · simp only [Sqlite.write, Sqlite.view, Option.getD_none, Option.map_map]
      rfl
    · simp only [Sqlite.write, Sqlite.view, Option.getD_some, Option.map_map]
      rfl
  intro db
  cases hs : Sqlite.write change db.sqlite with
  | none =>
    rw [run_exec_none hs, run_exec_none (show Sqlite.write change (flat db).sqlite = none by
      rw [flat, hwrite, hs]; rfl)]
    rfl
  | some s =>
    rw [run_exec_eq hs, run_exec_eq (show Sqlite.write change (flat db).sqlite = some ⟨s.view, none⟩ by
      rw [flat, hwrite, hs]; rfl)]
    cases hfails : env.sqliteFails db.calls <;> simp [flat, hfails]

theorem blind_prepareFriendships : Blind flat (prepareFriendships env) := fun _ => rfl

theorem blind_updateWhere (p : FriendshipRow → Bool) (u : FriendshipRow → FriendshipRow) :
    Blind flat (updateWhere env p u) :=
  blind_prepareFriendships.bind fun _ => Blind.ite (blind_pure false) <|
    Blind.bind (blind_asks fun _ => rfl) fun _ => (blind_write _).bind fun _ => blind_pure _

theorem blind_setStatus (fromUid toUid : Int32) (status : FriendshipStatus) :
    Blind flat (setStatus env fromUid toUid status) :=
  Blind.bind (fun _ => rfl) fun _ => blind_updateWhere _ _

theorem blind_insertRequest (fromUid toUid : Int32) (requestMsg : Bytes) (at_ : Int32) :
    Blind flat (insertRequest env fromUid toUid requestMsg at_) :=
  blind_prepareFriendships.bind fun _ => Blind.ite (blind_pure false) (blind_write _)

theorem blind_execute (call : FriendCall) : Blind flat (call.execute env) := by
  cases call with
  | sendRequest fromUid toUid requestMsg =>
    have hnow : Blind flat (now env) := fun _ => rfl
    have hselect : Blind flat (selectOne env (concerns fromUid toUid)) := fun _ => rfl
    refine Blind.ite (blind_pure false) (hnow.bind fun at_ => blind_prepareFriendships.bind fun _ =>
      Blind.ite (blind_pure false) (hselect.bind fun existing => ?_))
    cases existing with
    | none => exact blind_insertRequest _ _ _ _
    | some row =>
      dsimp only
      split
      · exact blind_pure false
      · exact Blind.ite (blind_pure false) (blind_insertRequest _ _ _ _)
      · exact Blind.ite (blind_pure false) (blind_updateWhere _ _)
  | acceptRequest fromUid toUid => exact blind_setStatus _ _ _
  | rejectRequest fromUid toUid => exact blind_setStatus _ _ _
  | removeFriendship uidA uidB =>
    exact blind_prepareFriendships.bind fun _ => Blind.ite (blind_pure false) <|
      Blind.bind (blind_asks fun _ => rfl) fun _ => (blind_write _).bind fun _ => blind_pure _

/-- If the step succeeds, no row is returned only if there is none. -/
theorem run_selectOne_served (p : FriendshipRow → Bool) (hserved : env.sqliteFails db.calls = false) :
    ∃ found db', selectOne env p db = ⟨.ok found, db', []⟩ ∧ db'.sqlite = db.sqlite ∧
      (found = none → ∀ row ∈ db.friendRows, p row = false) ∧
      ∀ row, found = some row → row ∈ db.friendRows ∧ p row = true := by
  have hscan := env.scan_perm db.calls (db.friendRows.filter p)
  have hrun : selectOne env p db = ⟨.ok (if !env.sqliteFails db.calls then
      (env.scan db.calls (db.friendRows.filter p)).head? else none), { db with calls := db.calls + 1 }, []⟩ := rfl
  rw [hserved] at hrun
  refine ⟨_, _, hrun, rfl, fun hnone row hrow => ?_, fun row hrow => ?_⟩
  · rw [List.head?_eq_none_iff.mp hnone] at hscan
    exact Bool.eq_false_iff.mpr (List.filter_eq_nil_iff.mp hscan.symm.eq_nil row hrow)
  · exact List.mem_filter.mp (hscan.mem_iff.mp (List.mem_of_mem_head? (Option.mem_def.mpr hrow)))

/-- A first command whose run is known, and that leaves the file alone. -/
theorem alters_of_run {A : List FriendshipRow → List FriendshipRow → Prop} {c : DbM α} {f : α → DbM Bool} {a : α}
    {db₁ : Database} (hrun : c db = ⟨.ok a, db₁, []⟩) (hsqlite : db₁.sqlite = db.sqlite)
    (hf : Alters A (f a) db₁) : Alters A (c >>= f) db := by
  obtain ⟨b, db', hrest, hidle, hrows⟩ := hf
  rw [friendRows_of_sqlite hsqlite] at hrows
  exact ⟨b, db', (bind_of_run f hrun).trans hrest, hidle, hrows⟩

/-- What a request does when its query is served. -/
def Sends (fromUid toUid : Int32) (rows rows' : List FriendshipRow) : Prop :=
  Asked fromUid toUid rows rows' ∨ ∃ requestMsg at_, Updated (isPending fromUid toUid)
    (fun r => { r with request_msg := requestMsg, updated_at := at_ }) rows rows'

theorem alters_sendRequest_served (hidle : db.Idle) {fromUid toUid : Int32} {requestMsg : Bytes}
    (hserved : env.sqliteFails (db.calls + 1) = false) :
    Alters (Sends fromUid toUid) (sendRequest env fromUid toUid requestMsg) db := by
  unfold sendRequest
  split
  · exact alters_false hidle
  have hnow : now env db = ⟨.ok (env.time db.readings).toInt32, { db with readings := db.readings + 1 }, []⟩ := rfl
  have hprepare : prepareFriendships env { db with readings := db.readings + 1 } =
      ⟨.ok (!env.sqliteFails db.calls && db.sqlite.view.friendships.isSome),
        { db with readings := db.readings + 1, calls := db.calls + 1 }, []⟩ := rfl
  refine alters_of_run hnow rfl (alters_of_run hprepare rfl ?_)
  split
  · exact alters_false hidle
  obtain ⟨existing, db₁, hrun, hsqlite, hnone, hsome⟩ := @run_selectOne_served env
    { db with readings := db.readings + 1, calls := db.calls + 1 } (concerns fromUid toUid) hserved
  refine alters_of_run hrun hsqlite ?_
  have hidle₁ : db₁.Idle := hidle.of_sqlite hsqlite
  have hrows : db₁.friendRows = db.friendRows := friendRows_of_sqlite hsqlite
  have hinsert : ((∀ r ∈ db.friendRows, concerns fromUid toUid r = false) ∨
      ∃ r ∈ db.friendRows, isPair toUid fromUid r = true ∧ isLive r = false) →
      Alters (Sends fromUid toUid) (insertRequest env fromUid toUid requestMsg (env.time db.readings).toInt32) db₁ := by
    intro hclear
    rw [← hrows] at hclear
    obtain ⟨b, db', hrun, hidle', hinserted⟩ :=
      @alters_insertRequest env _ hidle₁ fromUid toUid requestMsg (env.time db.readings).toInt32
    exact ⟨b, db', hrun, hidle', hinserted.imp id fun h => ⟨h.1, .inl ⟨h.2, hclear⟩⟩⟩
  cases existing with
  | none => exact hinsert (.inl (hnone rfl))
  | some row =>
    obtain ⟨hmem, hconcerns⟩ := hsome row rfl
    dsimp only
    split
    · exact alters_false hidle₁
    · next hstatus =>
      split
      · exact alters_false hidle₁
      · next hother =>
        have hback : isPair toUid fromUid row = true := by
          rcases Bool.or_eq_true_iff.mp hconcerns with hsame | hback
          · exact absurd hsame hother
          · exact hback
        exact hinsert (.inr ⟨row, hmem, hback, by rw [isLive, hstatus]; rfl⟩)
    · split
      · exact alters_false hidle₁
      · exact (alters_updateWhere hidle₁ _ _).imp fun h => .inr ⟨_, _, h⟩

/-- Every operation whose query is served keeps the rows proper. -/
theorem proper_execute (call : FriendCall) (hfinds : call.Finds env db) (h : Proper db.friendRows) :
    Proper (call.execute env db).state.friendRows := by
  have hflat : (call.execute env db).state.friendRows = (call.execute env (flat db)).state.friendRows := by
    rw [blind_execute call db, friendRows_flat]
  have hidle : (flat db).Idle := rfl
  have hkeeps : Alters (fun rows rows' => Proper rows → Proper rows') (call.execute env) (flat db) := by
    cases call with
    | sendRequest fromUid toUid requestMsg =>
      refine (alters_sendRequest_served hidle hfinds).imp fun {rows rows'} hsends hrows => ?_
      rcases hsends with hasked | ⟨requestMsg, at_, -, rfl⟩
      · exact hasked.proper hrows
      · exact hrows.updated (fun _ => ⟨rfl, rfl⟩) isLive_of_isPending
    | acceptRequest fromUid toUid =>
      refine (alters_setStatus hidle fromUid toUid .accepted).imp fun {rows rows'} hanswered hrows => ?_
      obtain ⟨at_, -, rfl⟩ := hanswered
      exact hrows.updated (fun _ => ⟨rfl, rfl⟩) isLive_of_isPending
    | rejectRequest fromUid toUid =>
      refine (alters_setStatus hidle fromUid toUid .rejected).imp fun {rows rows'} hanswered hrows => ?_
      obtain ⟨at_, -, rfl⟩ := hanswered
      exact hrows.updated (fun _ => ⟨rfl, rfl⟩) isLive_of_isPending
    | removeFriendship uidA uidB =>
      refine (alters_removeFriendship hidle uidA uidB).imp fun {rows rows'} hremoved hrows => ?_
      rw [hremoved]
      exact hrows.filter _
  obtain ⟨b, db', hrun, -, ⟨-, hsame⟩ | ⟨-, hacts⟩⟩ := hkeeps
  · rw [hflat, hrun, hsame]
    exact h
  · rw [hflat, hrun]
    exact hacts h

end Operations

/-! ## The queries -/

/-- An accepted row of the pair. -/
def isAccepted (uidA uidB : Int32) (r : FriendshipRow) : Bool := r.status = .accepted && concerns uidA uidB r

/-- A row of the user with the id. -/
def isRowOf (id : Int32) (row : Row) : Bool :=
  (row.find? (lit "id")).any fun v => v.asInt = id.toInt64

/-- Each row has the fields of a user. -/
def Legible (users : RowList) : Prop := ∀ row ∈ users, ∀ key ∈ userFields, (row.find? (lit key)).isSome

section Queries

variable {env : Env} {db : Database} {uidA uidB : Int32} {rows : List FriendshipRow} {users : RowList}

/-- Two users are friends if there is an accepted row of the pair. -/
theorem result_areFriends (henv : env.Serves) :
    (areFriends env uidA uidB db).result = .ok (db.friendRows.any (isAccepted uidA uidB)) := by
  have hprepare : prepareFriendships env db = ⟨.ok db.sqlite.view.friendships.isSome,
      { db with calls := db.calls + 1 }, []⟩ := by
    unfold prepareFriendships
    rw [bind_of_run _ (run_call henv db), bind_of_run _ (asks_apply ..)]
    simp
  unfold areFriends
  rw [bind_of_run _ hprepare]
  cases hfile : db.sqlite.view.friendships with
  | none => simp [friendRows, hfile]
  | some found =>
    obtain ⟨found, db', hrun, -, hnone, hsome⟩ := @run_selectOne_served env { db with calls := db.calls + 1 }
      (isAccepted uidA uidB) (henv _)
    simp only [Option.isSome_some, Bool.not_true, Bool.false_eq_true, if_false]
    refine (congrArg Outcome.result (bind_of_run _ hrun)).trans (congrArg Except.ok ?_)
    cases found with
    | none => exact (List.any_eq_false.mpr fun r hr => Bool.eq_false_iff.mp (hnone rfl r hr)).symm
    | some row => exact (List.any_eq_true.mpr ⟨row, hsome row rfl⟩).symm

theorem isAccepted_comm (uidA uidB : Int32) : isAccepted uidA uidB = isAccepted uidB uidA := by
  funext r
  rw [isAccepted, isAccepted, concerns_comm]

/-- Of the accepted rows of `uidA`, those that name `uidB` are those of the pair. -/
theorem count_friendOf (rows : List FriendshipRow) :
    ((rows.filter fun r => r.status = .accepted && (r.from_uid = uidA || r.to_uid = uidA)).map
      (friendOf uidA)).count uidB = (rows.filter (isAccepted uidA uidB)).length := by
  rw [List.count_eq_countP, List.countP_map, List.countP_eq_length_filter, List.filter_filter]
  refine congrArg List.length (List.filter_congr fun r _ => ?_)
  rw [Bool.eq_iff_iff]
  simp only [Function.comp_apply, friendOf, isAccepted, Bool.and_eq_true, beq_iff_eq, Bool.or_eq_true,
    decide_eq_true_eq, concerns_iff]
  split <;> grind

theorem Proper.accepted_length (h : Proper rows) :
    (rows.filter (isAccepted uidA uidB)).length = (rows.any (isAccepted uidA uidB)).toNat := by
  have hle : (rows.filter (isAccepted uidA uidB)).length ≤ 1 := by
    refine Nat.le_trans (List.Sublist.length_le ?_) (h.live_le_one uidA uidB)
    refine List.monotone_filter_right rows fun r hr => ?_
    simp only [isAccepted, Bool.and_eq_true, decide_eq_true_eq] at hr
    simp [hr.2, isLive, hr.1]
  cases hany : rows.any (isAccepted uidA uidB) with
  | false =>
    rw [List.any_eq_false] at hany
    rw [List.filter_eq_nil_iff.mpr hany]
    rfl
  | true =>
    obtain ⟨r, hr, hp⟩ := List.any_eq_true.mp hany
    have hpos := List.length_pos_of_mem (List.mem_filter.mpr ⟨hr, hp⟩)
    exact Nat.le_antisymm hle hpos

theorem hasId_of_legible (hshape : Legible users) {row : Row} (hrow : row ∈ users) (id : Int32) :
    UserRepository.hasId id row = .ok (isRowOf id row) := by
  obtain ⟨v, hv⟩ := Option.isSome_iff_exists.mp (hshape row hrow "id" (by decide))
  simp [UserRepository.hasId, atField, isRowOf, hv, Except.map]

theorem userFromRow_of_legible (hshape : Legible users) {row : Row} (hrow : row ∈ users) :
    ∃ v user, row.find? (lit "id") = some v ∧ UserRepository.userFromRow row = .ok user ∧
      user.id = v.asInt.toInt32 := by
  have hfield : ∀ key ∈ userFields, ∃ v, row.find? (lit key) = some v := fun key hkey =>
    Option.isSome_iff_exists.mp (hshape row hrow key hkey)
  obtain ⟨v, hv⟩ := hfield "id" (by decide)
  obtain ⟨hash, hhash⟩ := hfield "password_hash" (by decide)
  obtain ⟨nickname, hnickname⟩ := hfield "nickname" (by decide)
  obtain ⟨avatar, havatar⟩ := hfield "avatar_id" (by decide)
  refine ⟨v, ⟨v.asInt.toInt32, hash.asString, nickname.asString, avatar.asInt.toInt32⟩, hv, ?_, rfl⟩
  simp only [UserRepository.userFromRow, atField, hv, hhash, hnickname, havatar]
  rfl

/-- A user is found by the id if there is one. -/
theorem yields_findById (hshape : Legible users) (id : Int32) :
    Yields (Opens env .users users) (UserRepository.findById env id) fun found db =>
      found.map (·.id) = (if users.any (isRowOf id) then some id else none) ∧ Opens env .users users db := by
  refine (yields_scan fun row hrow => hasId_of_legible hshape hrow id).bind fun found =>
    Sat.of_fact fun hfound => ?_
  cases found with
  | nil =>
    refine sat_pure fun db hdb => ⟨?_, .inl hdb⟩
    rw [if_neg fun hany => ?_]
    · rfl
    · obtain ⟨row, hrow, hp⟩ := List.any_eq_true.mp hany
      exact List.filter_eq_nil_iff.mp hfound.symm row hrow hp
  | cons row rest =>
    have hrow : row ∈ users.filter (isRowOf id) := hfound ▸ List.mem_cons_self
    obtain ⟨hmem, hp⟩ := List.mem_filter.mp hrow
    obtain ⟨v, user, hv, huser, huid⟩ := userFromRow_of_legible hshape hmem
    have hv' : v.asInt = id.toInt64 := by simpa [isRowOf, hv] using hp
    dsimp only
    rw [huser]
    refine Sat.bind (R := fun user db => user.id = v.asInt.toInt32 ∧ db.tables .users = some users)
      (sat_ofExcept (fun user db hok hdb => by cases hok; exact ⟨huid, hdb⟩) fun _ _ h => by cases h) fun user =>
      sat_pure fun db hdb => ⟨?_, .inl hdb.2⟩
    rw [if_pos (List.any_eq_true.mpr ⟨row, hmem, hp⟩), Option.map_some, hdb.1, hv', Int32.toInt32_toInt64]

theorem yields_call_served (henv : env.Serves) (P : Database → Prop)
    (hP : ∀ db, P db → P { db with calls := db.calls + 1 }) :
    Yields P (call env) fun served db => served = true ∧ P db := fun db hdb => by
  rw [run_call henv db]
  exact ⟨nofun, fun _ h => by cases h; exact ⟨rfl, hP db hdb⟩, nofun⟩

/-- The friends that are listed are those of the rows that are users. -/
theorem yields_friendsFrom (henv : env.Serves) (hshape : Legible users) (uid : Int32)
    (found : List FriendshipRow) :
    Yields (Opens env .users users) (friendsFrom env uid found) fun friends db =>
      friends.map (·.id) = (found.map (friendOf uid)).filter (fun id => users.any (isRowOf id)) ∧
        Opens env .users users db := by
  have hcall : Yields (Opens env .users users) (call env) fun served db => served = true ∧ Opens env .users users db :=
    yields_call_served henv _ fun _ h => h
  induction found with
  | nil => exact hcall.bind fun _ => sat_pure fun _ hdb => ⟨rfl, hdb.2⟩
  | cons row rest ih =>
    refine hcall.bind fun served => Sat.of_fact fun hserved => ?_
    subst hserved
    refine (yields_findById hshape _).bind fun user => Sat.of_fact fun huser => ih.bind fun friends =>
      sat_pure fun db hdb => ⟨?_, hdb.2⟩
    rw [List.map_append, hdb.1, List.map_cons, List.filter_cons]
    cases hany : users.any (isRowOf (friendOf uid row)) with
    | false =>
      rw [hany] at huser
      rw [Option.map_eq_none_iff.mp huser]
      rfl
    | true =>
      rw [hany] at huser
      obtain ⟨u, rfl, hu⟩ := Option.map_eq_some_iff.mp huser
      simp [hu]

/-- A user is listed as often as there are accepted rows of the pair. -/
theorem yields_getFriends (henv : env.Serves) (hshape : Legible users)
    (hdb : Opens env .users users db) (hknown : users.any (isRowOf uidB) = true) :
    ∃ friends, (getFriends env uidA db).result = .ok friends ∧
      (friends.map (·.id)).count uidB = (db.friendRows.filter (isAccepted uidA uidB)).length := by
  have hprepare : prepareFriendships env db = ⟨.ok db.sqlite.view.friendships.isSome,
      { db with calls := db.calls + 1 }, []⟩ := by
    unfold prepareFriendships
    rw [bind_of_run _ (run_call henv db), bind_of_run _ (asks_apply ..)]
    simp
  unfold getFriends
  rw [bind_of_run _ hprepare]
  cases hfile : db.sqlite.view.friendships with
  | none => exact ⟨[], rfl, by simp [friendRows, hfile]⟩
  | some stored =>
    obtain ⟨p, hp⟩ : ∃ p : FriendshipRow → Bool, p =
      fun r => r.status = .accepted && (r.from_uid = uidA || r.to_uid = uidA) := ⟨_, rfl⟩
    have hselect : select env p { db with calls := db.calls + 1 } =
        ⟨.ok (env.scan (db.calls + 1) (db.friendRows.filter p)), { db with calls := db.calls + 1 }, []⟩ := rfl
    have hopens : Opens env .users users { db with calls := db.calls + 1 } := hdb
    obtain ⟨friends, hfriends, hids, -⟩ := returned_of_yields (yields_friendsFrom henv hshape uidA
      (env.scan (db.calls + 1) (db.friendRows.filter p))) hopens
    refine ⟨friends, ?_, ?_⟩
    · simp only [Option.isSome_some, Bool.not_true, Bool.false_eq_true, if_false, ← hp]
      rw [bind_of_run _ hselect]
      exact hfriends
    · rw [hids, List.count_filter (p := fun id => users.any (isRowOf id)) hknown,
        ((env.scan_perm _ _).map (friendOf uidA)).count_eq, hp, count_friendOf]

end Queries

/-! ## Runs -/

/-- What holds of the friendships in every state. -/
structure FriendsAgree (db : Database) : Prop where
  /-- At most one row of a pair is pending or accepted. -/
  alone : ∀ uidA uidB, (db.friendRows.filter fun r => concerns uidA uidB r && isLive r).length ≤ 1
  symmetric : ∀ env : Env, env.Serves → ∀ uidA uidB,
    (areFriends env uidA uidB db).result = (areFriends env uidB uidA db).result
  /-- A user that exists is listed once among the friends, or not at all. -/
  listed : ∀ env : Env, env.Serves → ∀ users, Opens env .users users db → (∀ row ∈ users, RowShape .users row) →
    ∀ uidA uidB user, (UserRepository.findById env uidB db).result = .ok (some user) →
      ∃ friends answer, (getFriends env uidA db).result = .ok friends ∧
        (areFriends env uidA uidB db).result = .ok answer ∧ (friends.map (·.id)).count uidB = answer.toNat

theorem Proper.agree {db : Database} (h : Proper db.friendRows) : FriendsAgree db where
  alone := h.live_le_one
  symmetric env henv uidA uidB := by rw [result_areFriends henv, result_areFriends henv, isAccepted_comm]
  listed env henv users hdb hshape uidA uidB user huser := by
    have hlegible : Legible users := fun row hrow => (hshape row hrow).user rfl
    obtain ⟨found, hfound, hids, -⟩ := returned_of_yields (yields_findById hlegible uidB) hdb
    rw [huser, Except.ok.injEq] at hfound
    have hknown : users.any (isRowOf uidB) = true := by
      rw [← hfound, Option.map_some] at hids
      by_contra hno
      rw [if_neg hno] at hids
      cases hids
    obtain ⟨friends, hfriends, hcount⟩ : ∃ friends, (getFriends env uidA db).result = .ok friends ∧ _ :=
      yields_getFriends henv hlegible hdb hknown
    exact ⟨friends, _, hfriends, result_areFriends henv, hcount.trans h.accepted_length⟩

/-- In every state of a run whose queries find a row if there is one, in
whichever order they see them, the friendships agree. -/
theorem friends_agree {env : Env} {db : Database} (h : Proper db.friendRows) {calls : List FriendCall}
    (hfinds : Along (FriendCall.step env) (FriendCall.Finds env) db calls) :
    Throughout (FriendCall.step env) FriendsAgree db calls := by
  have hrun : Throughout (FriendCall.step env) (fun db => Proper db.friendRows) db calls := by
    have hstep : ∀ db call db', True → Proper db.friendRows → FriendCall.step env db call = some db' →
        call.Finds env db → Proper db'.friendRows := by
      rintro db call db' - h ⟨⟩ hfinds
      exact proper_execute call hfinds h
    exact throughout_of_along (fun _ _ _ _ _ => trivial) hstep trivial h hfinds
  exact hrun.imp fun _ h => h.agree

theorem friends_agree_rejected :
    Throughout (FriendCall.step .ideal) FriendsAgree (startUp .ideal (connect .empty)).state
      [.sendRequest 1 2 [], .rejectRequest 1 2, .sendRequest 2 1 [], .sendRequest 1 2 [], .acceptRequest 2 1,
        .removeFriendship 1 2] := by
  have hnone : (startUp .ideal (connect .empty)).state.friendRows = [] := by decide +kernel
  have hproper : Proper (startUp .ideal (connect .empty)).state.friendRows := by
    rw [hnone]
    exact ⟨List.Pairwise.nil, List.Pairwise.nil⟩
  have hfinds : ∀ db call, FriendCall.Finds .ideal db call := fun db call => by cases call <;> first | rfl | trivial
  exact friends_agree hproper (along_of_forall hfinds _ _)

end FriendRepository

end LanChat
