import LanChat.Db.UserLists
import LanChat.Server.Accounts
import LanChat.Server.Friendship
import LanChat.Server.LoginState
import LanChat.Server.Restart

/-!
# Friends are users

As long as SQLite serves, whoever a session carries is a user, and so are both of
any two friends: a request is sent by a session that carries a user, and so is the
acceptance (`friends_are_users`).
-/

namespace LanChat

open Lib Json

namespace Database

open FriendRepository

/-- There is a user with the id. -/
def knows (db : Database) (id : Int32) : Bool := (db.content .users).any (isRowOf id)

/-- The rows of a stored table are what loading it gives. -/
theorem Holds.opens {env : Env} (henv : env.Serves) {rows : TableName → RowList} {db : Database} (h : db.Holds rows)
    (name : TableName) : Opens env name (rows name) db := by
  cases htable : db.tables name with
  | some loaded => exact .inl (htable.trans (congrArg some (h.cached name loaded htable)))
  | none =>
    have hload : ∀ row ∈ rows name, loadRow (serialize row) = .ok (some row) := fun row hrow =>
      loadRow_serialize (h.shape name row hrow).plain (h.readable name htable row hrow)
    refine .inr ⟨htable, (rows name).map serialize, ⟨?_, fun c hc => ?_⟩, ?_, fun text htext => ?_, .inr henv⟩
    · rw [h.docs name]
      rfl
    · rw [h.idle] at hc
      cases hc
    · rw [Database.readable, List.filterMap_map]
      calc (rows name).filterMap _ = (rows name).filterMap some :=
            List.filterMap_congr fun row hrow => by simp only [Function.comp_apply, hload row hrow]
        _ = rows name := List.filterMap_some
    · obtain ⟨row, hrow, rfl⟩ := List.mem_map.mp htext
      exact ⟨_, hload row hrow⟩

theorem standing_of_stored {env : Env} (henv : env.Serves) {db : Database} (hdb : db.Stored) :
    Standing env db.knows db.friendRows db := by
  obtain ⟨rows, hrows⟩ := hdb
  refine ⟨⟨rows .users, hrows.opens henv .users, fun row hrow => (hrows.shape .users row hrow).user rfl, fun id => ?_⟩,
    friendsShow_of_idle hrows.idle rfl⟩
  rw [knows, hrows.content_eq]

/-- A requester and a friend are users, and at most one row of a pair is pending or
accepted. -/
structure Friendly (db : Database) : Prop where
  stored : db.Stored
  proper : Proper db.friendRows
  requester : ∀ row ∈ db.friendRows, db.knows row.from_uid = true
  friend : ∀ row ∈ db.friendRows, row.status = .accepted → db.knows row.to_uid = true

section Friendly

variable {env : Env} {db : Database} {uidA uidB : Int32}

theorem Friendly.idle (h : db.Friendly) : db.Idle := h.stored.elim fun _ h => h.idle

/-- Both of two friends are users. -/
theorem Friendly.knows (h : db.Friendly) (hfriends : db.friendRows.any (isAccepted uidA uidB) = true) :
    db.knows uidA = true ∧ db.knows uidB = true := by
  obtain ⟨row, hrow, haccepted⟩ := List.any_eq_true.mp hfriends
  simp only [isAccepted, Bool.and_eq_true, decide_eq_true_eq, concerns_iff] at haccepted
  have hfrom := h.requester row hrow
  have hto := h.friend row hrow haccepted.1
  rcases haccepted.2 with ⟨rfl, rfl⟩ | ⟨rfl, rfl⟩
  · exact ⟨hfrom, hto⟩
  · exact ⟨hto, hfrom⟩

/-- With an SQLite that serves, no repository call throws. -/
theorem ok_of_guarded {α : Type} {c : DbM α} (hdb : db.Stored) (hc : Guarded Stored (fun _ => False) c) :
    ∃ a, (c db).result = .ok a := by
  obtain ⟨-, -, herror⟩ := hc db hdb
  cases hresult : (c db).result with
  | ok a => exact ⟨a, rfl⟩
  | error e => exact (herror e hresult).elim

/-- If the friends of a user are known, exactly they are listed. -/
theorem sat_getFriends_listed (henv : env.Serves) {known : Int32 → Bool} {rows : List FriendshipRow} {uid : Int32}
    (hknown : ∀ id, rows.any (isAccepted uid id) = true → known id = true) :
    Cmd.Sat (Standing env known rows) (getFriends env uid)
      (fun friends db => (∀ id, id ∈ friends.map (·.id) ↔ rows.any (isAccepted uid id) = true) ∧
        Standing env known rows db)
      (fun _ _ => True) fun _ => True := by
  intro db hdb
  refine ⟨nofun, fun friends hfriends => ?_, fun _ _ => trivial⟩
  obtain ⟨hlisted, hstanding⟩ := (sat_getFriends_known henv uid db hdb).2.1 friends hfriends
  refine ⟨fun id => ⟨fun hmem => ?_, fun hrow => (hlisted id (hknown id hrow)).mpr hrow⟩, hstanding⟩
  obtain ⟨friend, hfriend, rfl⟩ := List.mem_map.mp hmem
  have hrow := (sat_getFriends uid db trivial).2.1 friends hfriends friend hfriend
  rwa [hstanding.friendRows] at hrow

/-- A friend is listed once, and nobody else is. -/
theorem Friendly.listed (henv : env.Serves) (h : db.Friendly) (uidA uidB : Int32) :
    ∃ friends, (getFriends env uidA db).result = .ok friends ∧
      (friends.map (·.id)).count uidB = (db.friendRows.any (isAccepted uidA uidB)).toNat := by
  have hstanding := standing_of_stored henv h.stored
  obtain ⟨friends, hfriends⟩ := ok_of_guarded h.stored ((writes_stored henv).toReads.getFriends uidA)
  refine ⟨friends, hfriends, ?_⟩
  cases hknown : db.knows uidB with
  | true =>
    obtain ⟨users, hopens, hlegible, hknows⟩ := hstanding.users
    obtain ⟨listed, hlisted, hcount⟩ : ∃ listed, (getFriends env uidA db).result = .ok listed ∧
        (listed.map (·.id)).count uidB = (db.friendRows.filter (isAccepted uidA uidB)).length :=
      yields_getFriends henv hlegible hopens ((hknows uidB).trans hknown)
    cases hfriends.symm.trans hlisted
    exact hcount.trans h.proper.accepted_length
  | false =>
    have hnot : db.friendRows.any (isAccepted uidA uidB) = false := by
      rw [Bool.eq_false_iff]
      intro hany
      rw [(h.knows hany).2] at hknown
      cases hknown
    have hlisted := ((sat_getFriends_listed henv fun _ hrow => (h.knows hrow).2) db hstanding).2.1 friends hfriends
    rw [hnot]
    refine List.count_eq_zero.mpr fun hmem => ?_
    rw [(hlisted.1 uidB).mp hmem] at hnot
    cases hnot

/-- Whoever is known is found. -/
theorem Friendly.found (henv : env.Serves) (h : db.Friendly) {id : Int32} (hknown : db.knows id = true) :
    ∃ user, (UserRepository.findById env id db).result = .ok (some user) ∧ user.id = id := by
  obtain ⟨found, hfound⟩ := ok_of_guarded h.stored ((writes_stored henv).toReads.findById id)
  have hid := ((sat_findById_known id db (standing_of_stored henv h.stored)).2.1 found hfound).1
  rw [if_pos hknown] at hid
  obtain ⟨user, rfl, huser⟩ := Option.map_eq_some_iff.mp hid
  exact ⟨user, hfound, huser⟩

end Friendly

end Database

namespace TcpServer

open Database FriendRepository MessageRouter

/-- Whoever a session carries is a user, and so are a requester and a friend. -/
structure Sociable (st : Server) : Prop where
  kept : Kept st.roster
  friendly : st.db.Friendly
  carried : ∀ session, 0 < st.userId session → st.db.knows (st.userId session) = true

theorem Sociable.start {db : Database} (h : db.Friendly) : Sociable (.start db) :=
  ⟨kept_start db, h, fun session hpos => by cases hpos⟩

section Steps

variable {env : Env} {st st' : Server} {event : Event} {session : SessionId} {uid id : Int32} {request : Object}

/-- Nobody ceases to be a user. -/
theorem knows_step (henv : env.Serves) (hst : st.db.Stored) (hstep : step env st event = some st')
    (h : st.db.knows id = true) : st'.db.knows id = true := by
  obtain ⟨rows, hrows⟩ := hst
  have hsettled : st.db.Settled .users := fun _ => ⟨(rows .users).map serialize, by rw [hrows.docs]; rfl, fun c hc => by
    rw [hrows.idle] at hc
    cases hc⟩
  obtain ⟨row, hrow⟩ := Option.isSome_iff_exists.mp (List.find?_isSome.mpr (List.any_eq_true.mp h))
  obtain ⟨row', hrow', -⟩ := account_step hsettled hstep (.inl henv) hrow
  exact List.any_eq_true.mpr ⟨row', List.mem_of_find?_eq_some hrow', List.find?_some hrow'⟩

/-- A login that is admitted names a user. -/
theorem knows_of_admitted (henv : env.Serves) {db : Database} (hdb : db.Stored) {info : UserInfo}
    (h : (admitted env request db).result = .ok (some info)) : db.knows (intField request "id" 0) = true := by
  unfold admitted at h
  split at h
  · cases h
  obtain ⟨verified, hverified, h⟩ := Cmd.result_bind_eq_ok.mp h
  cases verified with
  | false => cases h
  | true =>
    simp only [Bool.not_true, Bool.false_eq_true, if_false] at h
    have hstanding := (standing_verifyPassword _ _ db (standing_of_stored henv hdb)).2.1 true hverified
    have hfound := ((sat_findById_known _ _ hstanding).2.1 _ h).1
    by_contra hno
    rw [if_neg hno] at hfound
    cases hfound

theorem userId_login (ρ : Roster) (session t : SessionId) (uid : Int32) :
    (ρ.login session uid).pool.userId t = ρ.pool.userId t ∨ (ρ.login session uid).pool.userId t = uid := by
  by_cases hrefused : session ∉ ρ.pool.sessions ∨ uid ≤ 0
  · exact .inl (congrArg (SessionPool.userId · t) (SessionPool.bindUser_of_refused ρ.pool session uid hrefused))
  · rw [not_or, not_not, Int32.not_le] at hrefused
    have huser := SessionPool.userId_bindUser ρ.pool session uid hrefused.1 hrefused.2 t
    rw [show (ρ.login session uid).pool.userId t = _ from huser]
    split
    · exact .inr rfl
    · exact .inl rfl

theorem userId_logout {ρ : Roster} (hi : ρ.pool.Indexed) (session t : SessionId) :
    (ρ.logout session).pool.userId t = ρ.pool.userId t ∨ (ρ.logout session).pool.userId t = 0 := by
  unfold Roster.logout
  dsimp only
  split
  · rw [Roster.userId_unbindUser hi]
    split
    · exact .inr rfl
    · exact .inl rfl
  · exact .inl rfl

/-- What a session carries after a step: what it carried, nothing, or the user of a login. -/
theorem userId_step (hk : Kept st.roster) (hstep : step env st event = some st') (t : SessionId) :
    st'.userId t = st.userId t ∨ st'.userId t = 0 ∨
      ∃ request info, (admitted env request st.db).result = .ok (some info) ∧ st'.userId t = intField request "id" 0 := by
  have hroster := congrArg (fun ρ : Roster => ρ.pool.userId t) (roster_step hstep)
  change st'.userId t = _ at hroster
  rw [hroster]
  have hsame : st.roster.pool.userId t = st.userId t := rfl
  cases event with
  | accept now =>
    simp only [rosterOf, Roster.accept, SessionPool.userId_add, SessionPool.userId_setUserId]
    split
    · exact .inr (.inl rfl)
    · exact .inl hsame
  | sweep now => exact .inl (Roster.userId_removeAll _ t)
  | readError session =>
    simp only [rosterOf]
    split
    · exact .inl (SessionPool.userId_remove ..)
    · exact .inl hsame
  | frame session json now later =>
    simp only [rosterOf]
    split
    · exact .inl hsame
    split
    · exact .inl (SessionPool.userId_remove ..)
    split
    · exact .inl hsame
    next request _ =>
    unfold rosterAfter
    split
    · split
      · next info hadmitted =>
        rcases userId_login st.roster session t (intField request "id" 0) with h | h
        · exact .inl (h.trans hsame)
        · exact .inr (.inr ⟨request, info, hadmitted, h⟩)
      · exact .inl hsame
    · rcases userId_logout hk.indexed session t with h | h
      · exact .inl (h.trans hsame)
      · exact .inr (.inl h)
    · exact .inl hsame

/-- At most one row of a pair is pending or accepted after a step, too. -/
theorem proper_step (henv : env.Serves) (hidle : st.db.Idle) (hst : Proper st.db.friendRows)
    (hstep : step env st event = some st') : Proper st'.db.friendRows := by
  have hanswered : ∀ {fromUid toUid status}, Answered fromUid toUid status st.db.friendRows st'.db.friendRows →
      Proper st'.db.friendRows := by
    rintro fromUid toUid status ⟨at_, -, hrows⟩
    rw [hrows]
    exact hst.updated (fun _ => ⟨rfl, rfl⟩) isLive_of_isPending
  rcases friends_step hidle hstep with hsame | ⟨uid, request, hbrings, -, hchange⟩
  · exact hsame ▸ hst
  cases hchange with
  | requested htype _ _ =>
    rw [friendRows_of_brings hidle hbrings htype (by decide) hstep]
    simp only [friendCall, htype, Cmd.andAlso]
    split
    · exact proper_execute (.sendRequest ..) (henv _) hst
    · exact hst
  | accepted _ _ hrows => exact hanswered hrows
  | rejected _ _ _ hrows => exact hanswered hrows
  | removed _ _ _ _ hrows =>
    rw [hrows]
    exact hst.filter _

section Rows

variable {known : Int32 → Bool} {rows rows' : List FriendshipRow} {fromUid toUid : Int32}

/-- The requester is known, and so is whoever has accepted. -/
def Between (known : Int32 → Bool) (row : FriendshipRow) : Prop :=
  known row.from_uid = true ∧ (row.status = .accepted → known row.to_uid = true)

/-- An update of pending rows that makes none accepted but those to a user. -/
theorem between_updated {u : FriendshipRow → FriendshipRow} (h : ∀ row ∈ rows, Between known row)
    (hsame : ∀ r, (u r).from_uid = r.from_uid ∧ (u r).to_uid = r.to_uid)
    (haccepts : ∀ r, r.status = .pending → (u r).status = .accepted → known toUid = true) :
    ∀ row ∈ updated (isPending fromUid toUid) u rows, Between known row := by
  intro row hrow
  rcases mem_updated hrow with ⟨hold, -⟩ | ⟨old, hold, hpending, rfl⟩
  · exact h row hold
  · obtain ⟨⟨-, hto⟩, hstatus⟩ := isPending_iff.mp hpending
    refine ⟨(hsame old).1 ▸ (h old hold).1, fun haccepted => ?_⟩
    rw [(hsame old).2, hto]
    exact haccepts old hstatus haccepted

/-- Rows that a request adds are those of a requester. -/
theorem between_change (h : ∀ row ∈ rows, Between known row) (huid : 0 < uid → known uid = true)
    (hchange : Change uid request rows rows') : ∀ row ∈ rows', Between known row := by
  cases hchange with
  | requested _ hpos hrequested =>
    rcases hrequested with ⟨-, row, rfl, -, hstatus, rfl⟩ | ⟨requestMsg, at_, -, rfl⟩
    · intro r hr
      rcases List.mem_append.mp hr with hold | hnew
      · exact h r hold
      · cases List.mem_singleton.mp hnew
        refine ⟨huid hpos, fun haccepted => ?_⟩
        rw [hstatus] at haccepted
        cases haccepted
    · refine between_updated h (fun _ => ⟨rfl, rfl⟩) fun r hpending haccepted => ?_
      rw [hpending] at haccepted
      cases haccepted
  | accepted _ hpos hanswered =>
    obtain ⟨at_, -, rfl⟩ := hanswered
    exact between_updated h (fun _ => ⟨rfl, rfl⟩) fun _ _ _ => huid hpos
  | rejected _ _ _ hanswered =>
    obtain ⟨at_, -, rfl⟩ := hanswered
    refine between_updated h (fun _ => ⟨rfl, rfl⟩) fun _ _ haccepted => ?_
    cases haccepted
  | removed _ _ _ _ hremoved =>
    intro r hr
    rw [hremoved] at hr
    exact h r (List.mem_filter.mp hr).1

end Rows

theorem Sociable.step (henv : env.Serves) (hst : Sociable st) (hstep : TcpServer.step env st event = some st') :
    Sociable st' := by
  have hidle : st.db.Idle := hst.friendly.idle
  obtain ⟨hkept, ⟨hstored, hproper, hrequester, hfriend⟩, hcarried⟩ := hst
  have hknows : ∀ id, st.db.knows id = true → st'.db.knows id = true := fun id => knows_step henv hstored hstep
  have hkeeps : ∀ row ∈ st.db.friendRows, Between st'.db.knows row := fun row hrow =>
    ⟨hknows _ (hrequester row hrow), fun h => hknows _ (hfriend row hrow h)⟩
  have hrows : ∀ row ∈ st'.db.friendRows, Between st'.db.knows row := by
    rcases friends_step hidle hstep with hsame | ⟨uid, request, hbrings, -, hchange⟩
    · rwa [hsame]
    refine between_change hkeeps (fun hpos => ?_) hchange
    obtain ⟨session, json, now, later, -, -, -, rfl⟩ := hbrings
    exact hknows _ (hcarried session hpos)
  refine ⟨hkept.step hstep, ⟨invariant_step (writes_stored henv) hstored hstep, proper_step henv hidle hproper hstep,
    fun row hrow => (hrows row hrow).1, fun row hrow => (hrows row hrow).2⟩, fun session hpos => ?_⟩
  rcases userId_step hkept hstep session with hsame | hnobody | ⟨request, info, hadmitted, hlogin⟩
  · rw [hsame] at hpos ⊢
    exact hknows _ (hcarried session hpos)
  · rw [hnobody] at hpos
    exact absurd hpos Int32.lt_irrefl
  · rw [hlogin]
    exact hknows _ (knows_of_admitted henv hstored hadmitted)

end Steps

/-- What the queries find of the users that are logged in, and of friends. -/
structure Acquainted (env : Env) (st : Server) : Prop where
  /-- The user of a session is found. -/
  carried : ∀ session, 0 < st.userId session →
    ∃ user, (UserRepository.findById env (st.userId session) st.db).result = .ok (some user) ∧ user.id = st.userId session
  /-- Both of two friends are found. -/
  friends : ∀ uidA uidB, (areFriends env uidA uidB st.db).result = .ok true → ∀ uid ∈ [uidA, uidB],
    ∃ user, (UserRepository.findById env uid st.db).result = .ok (some user) ∧ user.id = uid
  /-- The friends of a user are listed, each of them once. -/
  listed : ∀ uidA uidB, ∃ friends answer, (getFriends env uidA st.db).result = .ok friends ∧
    (areFriends env uidA uidB st.db).result = .ok answer ∧ (friends.map (·.id)).count uidB = answer.toNat

/-- As long as SQLite serves, sessions and friendships are those of users. -/
theorem friends_are_users {env : Env} (henv : env.Serves) {db : Database} (hdb : db.Friendly) (events : List Event) :
    Throughout (step env) (Acquainted env) (.start db) events := by
  have hrun : Throughout (step env) Sociable (.start db) events :=
    throughout_of_step (fun _ _ _ h hstep => h.step henv hstep) (.start hdb) events
  refine hrun.imp fun st h => ⟨fun session hpos => h.friendly.found henv (h.carried session hpos),
    fun uidA uidB hfriends uid huid => ?_, fun uidA uidB => ?_⟩
  · rw [result_areFriends henv, Except.ok.injEq] at hfriends
    obtain ⟨hA, hB⟩ := h.friendly.knows hfriends
    rcases List.mem_cons.mp huid with rfl | huid
    · exact h.friendly.found henv hA
    · exact List.mem_singleton.mp huid ▸ h.friendly.found henv hB
  · obtain ⟨friends, hfriends, hcount⟩ := h.friendly.listed henv uidA uidB
    exact ⟨friends, _, hfriends, result_areFriends henv, hcount⟩

/-- A server that starts without a file has no friendships. -/
theorem friendly_boot : (Server.boot .ideal .empty).db.Friendly := by
  have hnone : (Server.boot .ideal .empty).db.friendRows = [] := by decide +kernel
  refine ⟨stored_startUp serves_ideal, ?_, ?_, ?_⟩
  · rw [hnone]
    exact ⟨List.Pairwise.nil, List.Pairwise.nil⟩
  · rw [hnone]
    nofun
  · rw [hnone]
    nofun

theorem friends_are_users_befriend :
    Throughout (step .ideal) (Acquainted .ideal) (.boot .ideal .empty) (threeUsers ++ befriend ++ [removal 1]) :=
  friends_are_users serves_ideal friendly_boot _

end TcpServer

end LanChat
