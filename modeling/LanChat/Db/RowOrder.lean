import LanChat.Db.FriendPairs

/-!
# The row that a friend request sees

The `SELECT ... LIMIT 1` of `sendRequest` names no order, and a pair may have a
row in each direction. Which of the two is seen makes a difference exactly if
the request is a pending one that is repeated (`request_order_free_iff`): seen,
its row is updated; behind the other row it is not found. Such a pair of rows
comes from one who asks a user whose own request was rejected.
-/

namespace LanChat

open Lib Json

namespace Env

/-- The same environment, with the rows of a `SELECT` in another order. -/
def reorder (env : Env) (scan : Nat → List FriendshipRow → List FriendshipRow)
    (hscan : ∀ n rows, (scan n rows).Perm rows) : Env :=
  { env with scan := scan, scan_perm := hscan }

end Env

namespace FriendRepository

open Database Cmd

/-- Whatever is seen first, the request returns the same and leaves the same table. -/
def OrderFree (db : Database) (fromUid toUid : Int32) (requestMsg : Bytes) : Prop :=
  ∀ (env : Env) scan hscan,
    (sendRequest (env.reorder scan hscan) fromUid toUid requestMsg db).result =
      (sendRequest env fromUid toUid requestMsg db).result ∧
    (sendRequest (env.reorder scan hscan) fromUid toUid requestMsg db).state.friendRows =
      (sendRequest env fromUid toUid requestMsg db).state.friendRows

/-- A pending request and a row in the other direction. -/
def Crossed (fromUid toUid : Int32) (rows : List FriendshipRow) : Prop :=
  (∃ r ∈ rows, isPending fromUid toUid r = true) ∧ ∃ r ∈ rows, isPair toUid fromUid r = true

/-- The users that a request is refused for at once. -/
def Invalid (fromUid toUid : Int32) : Prop := fromUid ≤ 0 ∨ toUid ≤ 0 ∨ fromUid = toUid

/-! ## What a request does with the row that it sees -/

section Respond

variable {env : Env} {db : Database} {fromUid toUid at_ : Int32} {requestMsg : Bytes}

/-- The part of `sendRequest` behind its query. -/
def respond (env : Env) (fromUid toUid : Int32) (requestMsg : Bytes) (at_ : Int32) :
    Option FriendshipRow → DbM Bool
  | none => insertRequest env fromUid toUid requestMsg at_
  | some row =>
    match row.status with
    | .accepted => pure false
    | .rejected =>
      if isPair fromUid toUid row then pure false else insertRequest env fromUid toUid requestMsg at_
    | .pending =>
      if !isPair fromUid toUid row then pure false
      else updateWhere env (isPending fromUid toUid) fun r => { r with request_msg := requestMsg, updated_at := at_ }

/-- The row that the query returns. -/
def seen (env : Env) (db : Database) (fromUid toUid : Int32) : Option FriendshipRow :=
  if !env.sqliteFails (db.calls + 1) then
    (env.scan (db.calls + 1) (db.friendRows.filter (concerns fromUid toUid))).head?
  else none

/-- The database behind the query. -/
def queried (db : Database) : Database := { db with readings := db.readings + 1, calls := db.calls + 1 + 1 }

theorem sendRequest_invalid (h : Invalid fromUid toUid) :
    sendRequest env fromUid toUid requestMsg db = ⟨.ok false, db, []⟩ := by
  unfold Invalid at h
  rw [sendRequest, if_pos h]
  rfl

theorem sendRequest_responds (h : ¬Invalid fromUid toUid) :
    sendRequest env fromUid toUid requestMsg db =
      if !env.sqliteFails db.calls && db.sqlite.view.friendships.isSome then
        respond env fromUid toUid requestMsg (env.time db.readings).toInt32 (seen env db fromUid toUid) (queried db)
      else ⟨.ok false, { db with readings := db.readings + 1, calls := db.calls + 1 }, []⟩ := by
  have hnow : now env db = ⟨.ok (env.time db.readings).toInt32, { db with readings := db.readings + 1 }, []⟩ := rfl
  have hprepare : prepareFriendships env { db with readings := db.readings + 1 } =
      ⟨.ok (!env.sqliteFails db.calls && db.sqlite.view.friendships.isSome),
        { db with readings := db.readings + 1, calls := db.calls + 1 }, []⟩ := rfl
  unfold Invalid at h
  rw [sendRequest, if_neg h, bind_of_run _ hnow, bind_of_run _ hprepare]
  cases !env.sqliteFails db.calls && db.sqlite.view.friendships.isSome with
  | false => rfl
  | true =>
    have hselect : selectOne env (concerns fromUid toUid)
        { db with readings := db.readings + 1, calls := db.calls + 1 } =
          ⟨.ok (seen env db fromUid toUid), queried db, []⟩ := rfl
    simp only [Bool.not_true, Bool.false_eq_true, if_false, if_true]
    rw [bind_of_run _ hselect]
    rfl

/-- The command changes no friendship, and returns `false`. -/
def Refuses (c : DbM Bool) (db : Database) : Prop :=
  (c db).result = .ok false ∧ (c db).state.friendRows = db.friendRows

theorem refuses_insertRequest (hidle : db.Idle) (h : ∃ r ∈ db.friendRows, isPair fromUid toUid r = true) :
    Refuses (insertRequest env fromUid toUid requestMsg at_) db := by
  obtain ⟨r, hr, hpair⟩ := h
  obtain ⟨b, db', hrun, -, ⟨rfl, hsame⟩ | ⟨-, hfresh, -⟩⟩ :=
    @alters_insertRequest env db hidle fromUid toUid requestMsg at_
  · exact ⟨by rw [hrun], by rw [hrun]; exact hsame⟩
  · rw [hfresh r hr] at hpair
    cases hpair

/-- A request behind the row of the other direction is refused. -/
theorem refuses_other (hidle : db.Idle) (h : ∃ r ∈ db.friendRows, isPair fromUid toUid r = true)
    {row : FriendshipRow} (hother : isPair fromUid toUid row = false) :
    Refuses (respond env fromUid toUid requestMsg at_ (some row)) db := by
  unfold respond
  dsimp only
  split
  · exact ⟨rfl, rfl⟩
  · rw [hother, if_neg Bool.false_ne_true]
    exact refuses_insertRequest hidle h
  · rw [hother]
    exact ⟨rfl, rfl⟩

/-- A request that was answered is refused. -/
theorem refuses_answered {row : FriendshipRow} (hpair : isPair fromUid toUid row = true)
    (hanswered : row.status ≠ .pending) : Refuses (respond env fromUid toUid requestMsg at_ (some row)) db := by
  unfold respond
  dsimp only
  split
  · exact ⟨rfl, rfl⟩
  · rw [if_pos hpair]
    exact ⟨rfl, rfl⟩
  · next hpending => exact absurd hpending hanswered

/-- A pending request is repeated. -/
theorem respond_pending (henv : env.Serves) (hidle : db.Idle) {row : FriendshipRow} (hrow : row ∈ db.friendRows)
    (hpending : isPending fromUid toUid row = true) :
    (respond env fromUid toUid requestMsg at_ (some row) db).result = .ok true := by
  obtain ⟨hpair, hstatus⟩ := Bool.and_eq_true_iff.mp hpending
  simp only [respond, of_decide_eq_true hstatus, hpair, Bool.not_true, Bool.false_eq_true, if_false]
  exact result_updateWhere henv hidle _ (List.any_eq_true.mpr ⟨row, hrow, hpending⟩)

end Respond

/-! ## One request -/

section Request

variable {env : Env} {db : Database} {fromUid toUid : Int32} {requestMsg : Bytes}

theorem seen_mem {row : FriendshipRow} (h : seen env db fromUid toUid = some row) :
    row ∈ db.friendRows ∧ concerns fromUid toUid row = true := by
  unfold seen at h
  split at h
  · exact List.mem_filter.mp ((env.scan_perm _ _).mem_iff.mp (List.mem_of_mem_head? (Option.mem_def.mpr h)))
  · cases h

/-- With a row in each direction, and none that is a pending request, every row
that can be seen has the request refused. -/
theorem refuses_uncrossed (hidle : db.Idle) (hforth : ∃ r ∈ db.friendRows, isPair fromUid toUid r = true)
    (hpending : ∀ r ∈ db.friendRows, isPending fromUid toUid r = false) :
    Refuses (sendRequest env fromUid toUid requestMsg) db := by
  by_cases hvalid : Invalid fromUid toUid
  · rw [Refuses, sendRequest_invalid hvalid]
    exact ⟨rfl, rfl⟩
  rw [Refuses, sendRequest_responds hvalid]
  split
  · have hrefuses : ∀ existing, seen env db fromUid toUid = existing →
        Refuses (respond env fromUid toUid requestMsg (env.time db.readings).toInt32 existing) (queried db) := by
      intro existing hseen
      cases existing with
      | none => exact @refuses_insertRequest env (queried db) _ _ _ _ hidle hforth
      | some row =>
        cases hpair : isPair fromUid toUid row with
        | false => exact @refuses_other env (queried db) _ _ _ _ hidle hforth row hpair
        | true =>
          refine refuses_answered hpair fun hstatus => ?_
          have hnone := hpending row (seen_mem hseen).1
          rw [isPending, hpair, hstatus] at hnone
          cases hnone
    exact hrefuses _ rfl
  · exact ⟨rfl, rfl⟩

/-- If there is a row in one direction at most, every order is the same. -/
theorem seen_reorder {scan : Nat → List FriendshipRow → List FriendshipRow}
    {hscan : ∀ n rows, (scan n rows).Perm rows}
    (hone : (db.friendRows.filter (concerns fromUid toUid)).length ≤ 1) :
    seen (env.reorder scan hscan) db fromUid toUid = seen env db fromUid toUid := by
  have hsame : ∀ n, scan n (db.friendRows.filter (concerns fromUid toUid)) =
      env.scan n (db.friendRows.filter (concerns fromUid toUid)) := by
    intro n
    have hleft := hscan n (db.friendRows.filter (concerns fromUid toUid))
    have hright := env.scan_perm n (db.friendRows.filter (concerns fromUid toUid))
    rcases hrows : db.friendRows.filter (concerns fromUid toUid) with _ | ⟨row, _ | ⟨row', rest⟩⟩
    · rw [hrows] at hleft hright
      rw [hleft.eq_nil, hright.eq_nil]
    · rw [hrows] at hleft hright
      rw [List.perm_singleton.mp hleft, List.perm_singleton.mp hright]
    · rw [hrows] at hone
      simp at hone
  show (if !env.sqliteFails (db.calls + 1) then (scan (db.calls + 1) _).head? else none) = seen env db fromUid toUid
  rw [hsame]
  rfl

/-- A pair has two rows only if it has one in each direction. -/
theorem length_concerns_le (hdistinct : PairsDistinct db.friendRows)
    (h : (∀ r ∈ db.friendRows, isPair fromUid toUid r = false) ∨ ∀ r ∈ db.friendRows, isPair toUid fromUid r = false) :
    (db.friendRows.filter (concerns fromUid toUid)).length ≤ 1 := by
  rcases hrows : db.friendRows.filter (concerns fromUid toUid) with _ | ⟨row, _ | ⟨row', rest⟩⟩
  · exact Nat.zero_le 1
  · exact Nat.le_refl 1
  · have hpairs := hdistinct.filter (concerns fromUid toUid)
    have hmem : ∀ r ∈ row :: row' :: rest, r ∈ db.friendRows ∧ concerns fromUid toUid r = true := fun r hr => by
      rw [← hrows] at hr
      exact List.mem_filter.mp hr
    obtain ⟨hrow, hc⟩ := hmem row List.mem_cons_self
    obtain ⟨hrow', hc'⟩ := hmem row' (List.mem_cons_of_mem _ List.mem_cons_self)
    rw [hrows] at hpairs
    have hapart := List.rel_of_pairwise_cons hpairs List.mem_cons_self
    rw [Bool.eq_false_iff, ne_eq, isPair_iff] at hapart
    simp only [concerns, Bool.or_eq_true] at hc hc'
    rcases h with hforth | hback
    · obtain ⟨hfrom, hto⟩ := isPair_iff.mp (hc.resolve_left (by rw [hforth row hrow]; exact Bool.false_ne_true))
      obtain ⟨hfrom', hto'⟩ := isPair_iff.mp (hc'.resolve_left (by rw [hforth row' hrow']; exact Bool.false_ne_true))
      exact absurd ⟨hfrom'.trans hfrom.symm, hto'.trans hto.symm⟩ hapart
    · obtain ⟨hfrom, hto⟩ := isPair_iff.mp (hc.resolve_right (by rw [hback row hrow]; exact Bool.false_ne_true))
      obtain ⟨hfrom', hto'⟩ := isPair_iff.mp (hc'.resolve_right (by rw [hback row' hrow']; exact Bool.false_ne_true))
      exact absurd ⟨hfrom'.trans hfrom.symm, hto'.trans hto.symm⟩ hapart

/-- Without a pending request and a row in the other direction, the order makes
no difference. -/
theorem orderFree_of_idle (hidle : db.Idle) (hdistinct : PairsDistinct db.friendRows)
    (huncrossed : ¬Crossed fromUid toUid db.friendRows) : OrderFree db fromUid toUid requestMsg := by
  intro env scan hscan
  by_cases hboth : (∃ r ∈ db.friendRows, isPair fromUid toUid r = true) ∧
      ∃ r ∈ db.friendRows, isPair toUid fromUid r = true
  · have hpending : ∀ r ∈ db.friendRows, isPending fromUid toUid r = false := fun r hr =>
      Bool.eq_false_iff.mpr fun h => huncrossed ⟨⟨r, hr, h⟩, hboth.2⟩
    obtain ⟨hresult, hrows⟩ := @refuses_uncrossed env db fromUid toUid requestMsg hidle hboth.1 hpending
    obtain ⟨hresult', hrows'⟩ :=
      @refuses_uncrossed (env.reorder scan hscan) db fromUid toUid requestMsg hidle hboth.1 hpending
    exact ⟨hresult'.trans hresult.symm, hrows'.trans hrows.symm⟩
  · have hone : (∀ r ∈ db.friendRows, isPair fromUid toUid r = false) ∨
        ∀ r ∈ db.friendRows, isPair toUid fromUid r = false := by
      rcases not_and_or.mp hboth with hno | hno
      · exact .inl fun r hr => Bool.eq_false_iff.mpr fun h => hno ⟨r, hr, h⟩
      · exact .inr fun r hr => Bool.eq_false_iff.mpr fun h => hno ⟨r, hr, h⟩
    have hsame : sendRequest (env.reorder scan hscan) fromUid toUid requestMsg db =
        sendRequest env fromUid toUid requestMsg db := by
      by_cases hvalid : Invalid fromUid toUid
      · rw [sendRequest_invalid hvalid, sendRequest_invalid hvalid]
      · rw [sendRequest_responds hvalid, sendRequest_responds hvalid,
          seen_reorder (length_concerns_le hdistinct hone)]
        rfl
    exact ⟨by rw [hsame], by rw [hsame]⟩

/-- The rows of one kind first. -/
def firstly (p : FriendshipRow → Bool) (_ : Nat) (rows : List FriendshipRow) : List FriendshipRow :=
  rows.filter p ++ rows.filter fun r => !p r

theorem firstly_perm (p : FriendshipRow → Bool) (n : Nat) (rows : List FriendshipRow) :
    (firstly p n rows).Perm rows := List.filter_append_perm p rows

/-- An environment that returns the rows of one kind first. -/
def firstEnv (p : FriendshipRow → Bool) : Env := Env.ideal.reorder (firstly p) (firstly_perm p)

theorem seen_firstly {p : FriendshipRow → Bool}
    (h : ∃ r ∈ db.friendRows, concerns fromUid toUid r = true ∧ p r = true) :
    ∃ r ∈ db.friendRows, p r = true ∧
      seen (firstEnv p) db fromUid toUid = some r := by
  obtain ⟨r, hr, hconcerns, hp⟩ := h
  have hne : (db.friendRows.filter (concerns fromUid toUid)).filter p ≠ [] :=
    List.ne_nil_of_mem (List.mem_filter.mpr ⟨List.mem_filter.mpr ⟨hr, hconcerns⟩, hp⟩)
  obtain ⟨first, rest, hfirst⟩ := List.exists_cons_of_ne_nil hne
  have hmem : first ∈ (db.friendRows.filter (concerns fromUid toUid)).filter p := by
    rw [hfirst]
    exact List.mem_cons_self
  obtain ⟨hfound, hpfirst⟩ := List.mem_filter.mp hmem
  refine ⟨first, (List.mem_filter.mp hfound).1, hpfirst, ?_⟩
  show (firstly p (db.calls + 1) (db.friendRows.filter (concerns fromUid toUid))).head? = some first
  rw [firstly, hfirst]
  rfl

/-- With a pending request and a row in the other direction, it makes one. -/
theorem not_orderFree (hidle : db.Idle) (hvalid : ¬Invalid fromUid toUid)
    (hcrossed : Crossed fromUid toUid db.friendRows) : ¬OrderFree db fromUid toUid requestMsg := by
  intro h
  obtain ⟨⟨r, hr, hpending⟩, r', hr', hback⟩ := hcrossed
  obtain ⟨hpair, hstatus⟩ := Bool.and_eq_true_iff.mp hpending
  have hother : isPair fromUid toUid r' = false := by
    rw [Bool.eq_false_iff, ne_eq, isPair_iff]
    rintro ⟨hfrom, -⟩
    exact hvalid (.inr (.inr (hfrom.symm.trans (isPair_iff.mp hback).1)))
  have htable : (!Env.ideal.sqliteFails db.calls && db.sqlite.view.friendships.isSome) = true := by
    have hfile := exists_of_friendRows hidle (List.ne_nil_of_mem hr)
    rw [Idle] at hidle
    simp [Env.ideal, Sqlite.view, hidle, hfile]
  have hresponds : ∀ p row, seen (firstEnv p) db fromUid toUid = some row →
      (sendRequest (firstEnv p) fromUid toUid requestMsg db).result =
        (respond (firstEnv p) fromUid toUid requestMsg (Env.ideal.time db.readings).toInt32 (some row)
          (queried db)).result := by
    intro p row hseen
    rw [← hseen]
    exact congrArg Outcome.result ((sendRequest_responds hvalid).trans (if_pos htable))
  have hsame : ∀ p, (sendRequest (firstEnv p) fromUid toUid requestMsg db).result =
      (sendRequest Env.ideal fromUid toUid requestMsg db).result := fun p => (h Env.ideal _ (firstly_perm p)).1
  obtain ⟨row, hrow, hfirst, hseen⟩ := @seen_firstly db fromUid toUid (isPending fromUid toUid)
    ⟨r, hr, concerns_iff.mpr (.inl (isPair_iff.mp hpair)), hpending⟩
  have hforth := (hresponds _ row hseen).trans
    (@respond_pending (firstEnv _) (queried db) fromUid toUid _ requestMsg (fun _ => rfl) hidle row hrow hfirst)
  obtain ⟨row', -, hfirst', hseen'⟩ := @seen_firstly db fromUid toUid (fun r => !isPair fromUid toUid r)
    ⟨r', hr', concerns_iff.mpr (.inr (isPair_iff.mp hback)), by rw [hother]; rfl⟩
  have hbehind := (hresponds _ row' hseen').trans
    (@refuses_other (firstEnv _) (queried db) fromUid toUid _ requestMsg hidle ⟨r, hr, hpair⟩ row'
      (Bool.not_eq_true' _ ▸ hfirst')).1
  rw [hsame] at hforth hbehind
  rw [hforth] at hbehind
  cases hbehind

/-- A request does not see whether a transaction is open. -/
theorem orderFree_flat : OrderFree (flat db) fromUid toUid requestMsg ↔ OrderFree db fromUid toUid requestMsg := by
  have hflat : ∀ env : Env, (sendRequest env fromUid toUid requestMsg (flat db)).result =
        (sendRequest env fromUid toUid requestMsg db).result ∧
      (sendRequest env fromUid toUid requestMsg (flat db)).state.friendRows =
        (sendRequest env fromUid toUid requestMsg db).state.friendRows := by
    intro env
    have hblind : Blind flat (sendRequest env fromUid toUid requestMsg) :=
      blind_execute (.sendRequest fromUid toUid requestMsg)
    rw [hblind db, friendRows_flat]
    exact ⟨rfl, rfl⟩
  unfold OrderFree
  simp only [(hflat _).1, (hflat _).2]

/-- The order of the rows makes a difference to a valid request exactly if it is
pending and there is a row in the other direction. -/
theorem orderFree_iff (hdistinct : PairsDistinct db.friendRows) :
    OrderFree db fromUid toUid requestMsg ↔ Invalid fromUid toUid ∨ ¬Crossed fromUid toUid db.friendRows := by
  have hidle : (flat db).Idle := rfl
  rw [← orderFree_flat, ← friendRows_flat]
  constructor
  · intro h
    by_contra hno
    obtain ⟨hvalid, hcrossed⟩ := not_or.mp hno
    exact not_orderFree hidle hvalid (not_not.mp hcrossed) h
  · rintro (hvalid | huncrossed)
    · intro env scan hscan
      rw [sendRequest_invalid hvalid, sendRequest_invalid hvalid]
      exact ⟨rfl, rfl⟩
    · exact orderFree_of_idle hidle hdistinct huncrossed

end Request

/-! ## Runs -/

section Runs

variable {env : Env} {db : Database} {rows rows' : List FriendshipRow}

/-- What an operation does to the rows, if it does something. -/
def FriendCall.Does (rows rows' : List FriendshipRow) : FriendCall → Prop
  | .sendRequest fromUid toUid _ => Requested fromUid toUid rows rows'
  | .acceptRequest fromUid toUid => Answered fromUid toUid .accepted rows rows'
  | .rejectRequest fromUid toUid => Answered fromUid toUid .rejected rows rows'
  | .removeFriendship uidA uidB => Removed uidA uidB rows rows'

theorem rows_of_alters {A : List FriendshipRow → List FriendshipRow → Prop} {c : DbM Bool} (hblind : Blind flat c)
    (h : Alters A c (flat db)) :
    (c db).state.friendRows = db.friendRows ∨ A db.friendRows (c db).state.friendRows := by
  have hflat : (c db).state.friendRows = (c (flat db)).state.friendRows := by
    rw [hblind db]
    rfl
  obtain ⟨b, db', hrun, -, hrows⟩ := h
  rw [hflat, hrun]
  exact hrows.imp And.right And.right

theorem rows_execute (call : FriendCall) : (call.execute env db).state.friendRows = db.friendRows ∨
    call.Does db.friendRows (call.execute env db).state.friendRows := by
  have hidle : (flat db).Idle := rfl
  have hblind := @blind_execute env call
  cases call with
  | sendRequest fromUid toUid requestMsg =>
    exact rows_of_alters hblind (alters_sendRequest hidle fromUid toUid requestMsg)
  | acceptRequest fromUid toUid => exact rows_of_alters hblind (alters_setStatus hidle fromUid toUid .accepted)
  | rejectRequest fromUid toUid => exact rows_of_alters hblind (alters_setStatus hidle fromUid toUid .rejected)
  | removeFriendship uidA uidB => exact rows_of_alters hblind (alters_removeFriendship hidle uidA uidB)

theorem pairsDistinct_execute (call : FriendCall) (h : PairsDistinct db.friendRows) :
    PairsDistinct (call.execute env db).state.friendRows := by
  rcases @rows_execute env db call with hsame | hdoes
  · rw [hsame]
    exact h
  · cases call with
    | sendRequest => exact Requested.pairsDistinct hdoes h
    | acceptRequest | rejectRequest => exact Answered.pairsDistinct hdoes h
    | removeFriendship => exact Removed.pairsDistinct hdoes h

/-- No pending request has a row in the other direction beside it. -/
def Untangled (rows : List FriendshipRow) : Prop := ∀ fromUid toUid, ¬Crossed fromUid toUid rows

/-- The call is no first request to a user whose own request was rejected, and
the query of a request is served. -/
def FriendCall.Forward (env : Env) (db : Database) (call : FriendCall) : Prop :=
  call.Finds env db ∧ ∀ fromUid toUid requestMsg, call = .sendRequest fromUid toUid requestMsg →
    (∃ r ∈ db.friendRows, isPair fromUid toUid r = true) ∨
      ∀ r ∈ db.friendRows, isPair toUid fromUid r = true → isLive r = true

/-- Rows that come from others without a change of users, and pending ones from
pending ones. -/
theorem Untangled.of_rows (h : Untangled rows) (hpair : ∀ r ∈ rows', ∃ q ∈ rows, q.from_uid = r.from_uid ∧
      q.to_uid = r.to_uid ∧ (r.status = .pending → q.status = .pending)) : Untangled rows' := by
  rintro fromUid toUid ⟨⟨r, hr, hpending⟩, r', hr', hback⟩
  obtain ⟨q, hq, hfrom, hto, hstatus⟩ := hpair r hr
  obtain ⟨q', hq', hfrom', hto', -⟩ := hpair r' hr'
  rw [isPending_iff] at hpending
  rw [isPair_iff] at hback
  refine h fromUid toUid ⟨⟨q, hq, isPending_iff.mpr ?_⟩, q', hq', isPair_iff.mpr ?_⟩
  · exact ⟨⟨hfrom.trans hpending.1.1, hto.trans hpending.1.2⟩, hstatus hpending.2⟩
  · exact ⟨hfrom'.trans hback.1, hto'.trans hback.2⟩

/-- An update that makes no row pending that was not. -/
theorem Untangled.updated {p : FriendshipRow → Bool} {u : FriendshipRow → FriendshipRow} (h : Untangled rows)
    (hu : ∀ r, (u r).from_uid = r.from_uid ∧ (u r).to_uid = r.to_uid)
    (hp : ∀ r, p r = true → r.status = .pending) : Untangled (updated p u rows) := by
  refine h.of_rows fun r hr => ?_
  obtain ⟨q, hq, rfl⟩ := List.mem_map.mp hr
  refine ⟨q, hq, ?_⟩
  split
  · next hq' => exact ⟨(hu q).1.symm, (hu q).2.symm, fun _ => hp q hq'⟩
  · exact ⟨rfl, rfl, id⟩

theorem Asked.untangled {fromUid toUid : Int32} (h : Asked fromUid toUid rows rows') (hne : fromUid ≠ toUid)
    (hforward : (∃ r ∈ rows, isPair fromUid toUid r = true) ∨
      ∀ r ∈ rows, isPair toUid fromUid r = true → isLive r = true) (hrows : Untangled rows) : Untangled rows' := by
  obtain ⟨hfresh, row, rfl, rfl, -, rfl⟩ := h.inserted
  have hlive := hforward.resolve_left (by
    rintro ⟨r, hr, hpair⟩
    rw [hfresh r hr] at hpair
    cases hpair)
  have hnone : ∀ r ∈ rows, concerns row.from_uid row.to_uid r = false := h.unanswered.resolve_right (by
    rintro ⟨r, hr, hpair, hdead⟩
    rw [hlive r hr hpair] at hdead
    cases hdead)
  rintro fromUid toUid ⟨⟨r, hr, hpending⟩, r', hr', hback⟩
  rw [isPending_iff] at hpending
  rw [isPair_iff] at hback
  rcases List.mem_append.mp hr with hr | hr <;> rcases List.mem_append.mp hr' with hr' | hr'
  · exact hrows fromUid toUid ⟨⟨r, hr, isPending_iff.mpr hpending⟩, r', hr', isPair_iff.mpr hback⟩
  · cases List.mem_singleton.mp hr'
    have hfalse := hnone r hr
    rw [concerns_iff.mpr (.inr ⟨hpending.1.1.trans hback.2.symm, hpending.1.2.trans hback.1.symm⟩)] at hfalse
    cases hfalse
  · cases List.mem_singleton.mp hr
    have hfalse := hnone r' hr'
    rw [concerns_iff.mpr (.inr ⟨hback.1.trans hpending.1.2.symm, hback.2.trans hpending.1.1.symm⟩)] at hfalse
    cases hfalse
  · cases List.mem_singleton.mp hr
    cases List.mem_singleton.mp hr'
    exact hne (hpending.1.1.trans hback.2.symm)

theorem untangled_execute (call : FriendCall) (hforward : call.Forward env db) (h : Untangled db.friendRows) :
    Untangled (call.execute env db).state.friendRows := by
  have hrows := @rows_execute env db call
  cases call with
  | sendRequest fromUid toUid requestMsg =>
    by_cases hvalid : Invalid fromUid toUid
    · show Untangled (sendRequest env fromUid toUid requestMsg db).state.friendRows
      rw [sendRequest_invalid hvalid]
      exact h
    have hblind : Blind flat (sendRequest env fromUid toUid requestMsg) :=
      blind_execute (.sendRequest fromUid toUid requestMsg)
    have hidle : (flat db).Idle := rfl
    show Untangled (sendRequest env fromUid toUid requestMsg db).state.friendRows
    rcases rows_of_alters hblind (alters_sendRequest_served hidle hforward.1) with
      hsame | hasked | ⟨_, _, -, hupdated⟩
    · rw [hsame]
      exact h
    · exact hasked.untangled (fun heq => hvalid (.inr (.inr heq))) (hforward.2 _ _ _ rfl) h
    · rw [hupdated]
      exact h.updated (fun _ => ⟨rfl, rfl⟩) fun r hr => (isPending_iff.mp hr).2
  | acceptRequest | rejectRequest =>
    rcases hrows with hsame | ⟨_, -, hupdated⟩
    · rw [hsame]
      exact h
    · rw [hupdated]
      exact h.updated (fun _ => ⟨rfl, rfl⟩) fun r hr => (isPending_iff.mp hr).2
  | removeFriendship uidA uidB =>
    rcases hrows with hsame | hremoved
    · rw [hsame]
      exact h
    · have hfilter : (FriendCall.execute env (.removeFriendship uidA uidB) db).state.friendRows =
          db.friendRows.filter fun r => !concerns uidA uidB r := hremoved
      rw [hfilter]
      exact h.of_rows fun r hr => ⟨r, (List.mem_filter.mp hr).1, rfl, rfl, id⟩

/-- In every state of a run, the order of the rows makes a difference to a valid
request exactly if it is pending and there is a row in the other direction; and
there is no such pair in a run in which nobody asks a user whose own request was
rejected. -/
theorem request_order_free_iff {calls : List FriendCall} (hdistinct : PairsDistinct db.friendRows) :
    Throughout (FriendCall.step env) (fun db => ∀ fromUid toUid requestMsg,
      OrderFree db fromUid toUid requestMsg ↔ Invalid fromUid toUid ∨ ¬Crossed fromUid toUid db.friendRows) db calls ∧
    (Untangled db.friendRows → Along (FriendCall.step env) (FriendCall.Forward env) db calls →
      Throughout (FriendCall.step env) (fun db => ∀ fromUid toUid requestMsg,
        OrderFree db fromUid toUid requestMsg) db calls) := by
  have hrun : Throughout (FriendCall.step env) (fun db => PairsDistinct db.friendRows) db calls := by
    have hkeeps : ∀ db call db', PairsDistinct db.friendRows → FriendCall.step env db call = some db' →
        PairsDistinct db'.friendRows := by
      rintro db call db' h ⟨⟩
      exact pairsDistinct_execute call h
    exact throughout_of_step hkeeps hdistinct calls
  refine ⟨hrun.imp fun _ h fromUid toUid requestMsg => orderFree_iff h, fun huntangled hforward => ?_⟩
  have hkeeps : ∀ db call db', True → Untangled db.friendRows → FriendCall.step env db call = some db' →
      call.Forward env db → Untangled db'.friendRows := by
    rintro db call db' - h ⟨⟩ hforward
    exact untangled_execute call hforward h
  have huntangled' := throughout_of_along (fun _ _ _ _ _ => trivial) hkeeps trivial huntangled hforward
  exact (hrun.and huntangled').imp fun _ ⟨hd, hu⟩ fromUid toUid requestMsg =>
    (orderFree_iff hd).mpr (.inr (hu fromUid toUid))

end Runs

/-- A user whose request was rejected is asked in turn. -/
def courted : List FriendCall := [.sendRequest 1 2 [], .rejectRequest 1 2, .sendRequest 2 1 []]

theorem request_order_free_courted :
    Throughout (FriendCall.step .ideal) (fun db => ∀ fromUid toUid requestMsg,
      OrderFree db fromUid toUid requestMsg ↔ Invalid fromUid toUid ∨ ¬Crossed fromUid toUid db.friendRows)
      (startUp .ideal (connect .empty)).state courted ∧
    (Untangled (startUp .ideal (connect .empty)).state.friendRows →
      Along (FriendCall.step .ideal) (FriendCall.Forward .ideal) (startUp .ideal (connect .empty)).state courted →
      Throughout (FriendCall.step .ideal) (fun db => ∀ fromUid toUid requestMsg,
        OrderFree db fromUid toUid requestMsg) (startUp .ideal (connect .empty)).state courted) := by
  have hnone : (startUp .ideal (connect .empty)).state.friendRows = [] := by decide +kernel
  exact request_order_free_iff (by rw [hnone]; exact List.Pairwise.nil)

/-- Her request is repeated or not, depending on which row is seen. -/
theorem order_of_rows_matters :
    ¬∀ env calls db, run (FriendCall.step env) (startUp env (connect .empty)).state calls = some db →
      ∀ fromUid toUid requestMsg, OrderFree db fromUid toUid requestMsg := by
  intro h
  obtain ⟨db, hrun, hidle, hpending, hback⟩ : ∃ db,
      run (FriendCall.step .ideal) (startUp .ideal (connect .empty)).state courted = some db ∧
        db.sqlite.transaction.isNone = true ∧ db.friendRows.any (isPending 2 1) = true ∧
        db.friendRows.any (isPair 1 2) = true :=
    ⟨_, rfl, by decide +kernel, by decide +kernel, by decide +kernel⟩
  have hvalid : ¬Invalid 2 1 := by
    unfold Invalid
    decide
  exact not_orderFree (Option.isNone_iff_eq_none.mp hidle) hvalid
    ⟨List.any_eq_true.mp hpending, List.any_eq_true.mp hback⟩ (h .ideal courted db hrun 2 1 [])

end FriendRepository

end LanChat
