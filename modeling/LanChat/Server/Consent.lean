import LanChat.Server.Friendship

/-!
# Consent

A friendship goes back to a request of one of the two and to a later acceptance
by the other (`friends_consented`). A rejected request stays rejected as long as
the requester does not have the rows of the pair deleted (`rejection_binds`).
-/

namespace LanChat

open Lib Json

namespace TcpServer

open Database FriendRepository MessageRouter

/-! ## Where a friendship comes from -/

section Consent

variable (env : Env)

/-- A request of `fromUid` for the friendship of `toUid` succeeds. -/
def Requests (fromUid toUid : Int32) (st : Server) (event : Event) : Prop :=
  ∃ request, Brings st event fromUid request ∧ typeField request = some .FriendRequest ∧
    intField request "toId" 0 = toUid ∧ (friendCall env fromUid request st.db).result = .ok true

/-- The acceptance by `toUid` of a request of `fromUid` succeeds. -/
def Accepts (fromUid toUid : Int32) (st : Server) (event : Event) : Prop :=
  ∃ request, Brings st event toUid request ∧ typeField request = some .FriendAccept ∧
    intField request "fromId" 0 = fromUid ∧ (friendCall env toUid request st.db).result = .ok true

/-- No row of the two users is deleted. -/
def Spared (uidA uidB : Int32) (st : Server) (_ : Event) (st' : Server) : Prop :=
  KeepsPair uidA uidB st.db.friendRows st'.db.friendRows

variable (db : Database)

/-- `fromUid` has requested the friendship of `toUid`. -/
def Asked (fromUid toUid : Int32) (events : List Event) : Prop :=
  Since (step env) (fun _ => Requests env fromUid toUid) (fun _ _ _ => True) (.start db) events

/-- `toUid` has accepted a request that `fromUid` had made before, and no row of
the two has been deleted since. -/
def Befriended (fromUid toUid : Int32) (events : List Event) : Prop :=
  Since (step env) (fun es st event => Accepts env fromUid toUid st event ∧ Asked env db fromUid toUid es)
    (Spared fromUid toUid) (.start db) events

/-- What a row owes to the history. -/
structure Consented (events : List Event) (row : FriendshipRow) : Prop where
  pending : row.status = .pending → Asked env db row.from_uid row.to_uid events
  accepted : row.status = .accepted → Befriended env db row.from_uid row.to_uid events

variable {env db} {events : List Event} {event : Event} {st st' : Server} {row row' : FriendshipRow}
  {uid fromUid toUid : Int32} {request : Object}

theorem Consented.concat (h : Consented env db events row)
    (hrun : run (step env) (.start db) events = some st) (hstep : step env st event = some st')
    (hkeeps : KeepsPair row.from_uid row.to_uid st.db.friendRows st'.db.friendRows) :
    Consented env db (events ++ [event]) row where
  pending hpending := (h.pending hpending).concat hrun fun _ _ => trivial
  accepted haccepted := (h.accepted haccepted).concat hrun fun s hs => by
    cases hstep.symm.trans hs
    exact hkeeps

/-- A row with the same users and status owes the same. -/
theorem Consented.congr (h : Consented env db events row) (hfrom : row'.from_uid = row.from_uid)
    (hto : row'.to_uid = row.to_uid) (hstatus : row'.status = row.status) :
    Consented env db events row' where
  pending hpending := by
    rw [hfrom, hto]
    exact h.pending (hstatus ▸ hpending)
  accepted haccepted := by
    rw [hfrom, hto]
    exact h.accepted (hstatus ▸ haccepted)

/-- One step of the server, on all rows of the table. -/
theorem consented_step (hrun : run (step env) (.start db) events = some st) (hidle : st.db.Idle)
    (hst : ∀ row ∈ st.db.friendRows, Consented env db events row)
    (hstep : step env st event = some st') :
    ∀ row ∈ st'.db.friendRows, Consented env db (events ++ [event]) row := by
  have hcarry : ∀ row ∈ st.db.friendRows,
      KeepsPair row.from_uid row.to_uid st.db.friendRows st'.db.friendRows →
        Consented env db (events ++ [event]) row :=
    fun row hrow hkeeps => (hst row hrow).concat hrun hstep hkeeps
  intro row hrow
  rcases friends_step hidle hstep with hsame | ⟨uid, request, hbrings, hok, hchange⟩
  · rw [hsame] at hrow
    exact hcarry row hrow (hsame ▸ keepsPair_of_subset fun _ hr => hr)
  cases hchange with
  | requested htype hpos hrows =>
    have hkeeps : ∀ uidA uidB, KeepsPair uidA uidB st.db.friendRows st'.db.friendRows :=
      fun _ _ => hrows.keepsPair
    rcases hrows with ⟨-, new, rfl, hto, hstatus, hinserted⟩ | ⟨requestMsg, at_, -, hupdated⟩
    · rw [hinserted] at hrow
      rcases List.mem_append.mp hrow with hold | hnew
      · exact hcarry row hold (hkeeps _ _)
      · cases List.mem_singleton.mp hnew
        refine ⟨fun _ => since_concat hrun hstep ?_ trivial, fun haccepted => ?_⟩
        · exact ⟨request, hbrings, htype, hto.symm, hok⟩
        · rw [hstatus] at haccepted
          cases haccepted
    · rw [hupdated] at hrow
      rcases mem_updated hrow with ⟨hold, -⟩ | ⟨old, hold, -, rfl⟩
      · exact hcarry row hold (hkeeps _ _)
      · exact (hcarry old hold (hkeeps _ _)).congr rfl rfl rfl
  | accepted htype hpos hrows =>
    have hkeeps : ∀ uidA uidB, KeepsPair uidA uidB st.db.friendRows st'.db.friendRows :=
      fun _ _ => hrows.keepsPair
    obtain ⟨at_, -, hupdated⟩ := hrows
    rw [hupdated] at hrow
    rcases mem_updated hrow with ⟨hold, -⟩ | ⟨old, hold, hpending, rfl⟩
    · exact hcarry row hold (hkeeps _ _)
    · obtain ⟨⟨hfrom, hto⟩, hstatus⟩ := isPending_iff.mp hpending
      refine ⟨nofun, fun _ => since_concat hrun hstep ⟨?_, (hst old hold).pending hstatus⟩ (hkeeps _ _)⟩
      exact ⟨request, hto ▸ hbrings, htype, hfrom.symm, hto ▸ hok⟩
  | rejected htype hpos _ hrows =>
    have hkeeps : ∀ uidA uidB, KeepsPair uidA uidB st.db.friendRows st'.db.friendRows :=
      fun _ _ => hrows.keepsPair
    obtain ⟨at_, -, hupdated⟩ := hrows
    rw [hupdated] at hrow
    rcases mem_updated hrow with ⟨hold, -⟩ | ⟨old, hold, -, rfl⟩
    · exact hcarry row hold (hkeeps _ _)
    · exact ⟨nofun, nofun⟩
  | removed htype hpos hfrom hto hrows =>
    have hold : row ∈ st.db.friendRows := by
      rw [hrows] at hrow
      exact (List.mem_filter.mp hrow).1
    exact hcarry row hold (hrows.keepsPair hrow)

/-- Over every run from a database without friendships in which no transaction is
left open: two users are friends only when one has requested it, the other has
accepted that later, and no row of the two has been deleted since. -/
theorem friends_consented (env : Env) (db : Database) (events : List Event) (st : Server)
    (hdb : db.friendRows = []) (hrun : run (step env) (.start db) events = some st)
    (hidle : Throughout (step env) (fun st => st.db.Idle) (.start db) events) (uidA uidB : Int32)
    (hfriends : (areFriends env uidA uidB st.db).result = .ok true) :
    Befriended env db uidA uidB events ∨ Befriended env db uidB uidA events := by
  have hrows : ∀ row ∈ st.db.friendRows, Consented env db events row := by
    refine history_run (P := fun events st => ∀ row ∈ st.db.friendRows, Consented env db events row)
      ?_ (fun _ _ _ _ hrun hidle hst hstep => consented_step hrun hidle hst hstep) hidle hrun
    intro row hrow
    rw [show (Server.start db).db.friendRows = [] from hdb] at hrow
    cases hrow
  obtain ⟨row, hrow, hstatus, hconcerns⟩ := areFriends_sound hfriends
  have hbefriended := (hrows row hrow).accepted hstatus
  rcases concerns_iff.mp hconcerns with ⟨hfrom, hto⟩ | ⟨hfrom, hto⟩
  · exact .inl (hfrom ▸ hto ▸ hbefriended)
  · exact .inr (hfrom ▸ hto ▸ hbefriended)

theorem friends_consented_befriend :
    ∃ st, run (step .ideal) (.boot .ideal .empty) (threeUsers ++ befriend) = some st ∧
      (Befriended .ideal (Server.boot .ideal .empty).db 1000 1001 (threeUsers ++ befriend) ∨
        Befriended .ideal (Server.boot .ideal .empty).db 1001 1000 (threeUsers ++ befriend)) := by
  have hnone : (Server.boot .ideal .empty).db.friendRows = [] := by decide +kernel
  have hrun : ((run (step .ideal) (.boot .ideal .empty) (threeUsers ++ befriend)).map fun st =>
      (areFriends .ideal 1000 1001 st.db).result.toOption) = some (some true) := by
    decide +kernel
  obtain ⟨st, hst, hfriends⟩ := Option.map_eq_some_iff.mp hrun
  have hok : (areFriends .ideal 1000 1001 st.db).result = .ok true := by
    cases hresult : (areFriends .ideal 1000 1001 st.db).result with
    | error e => simp [hresult, Except.toOption] at hfriends
    | ok b => simpa [hresult, Except.toOption] using hfriends
  exact ⟨st, hst, friends_consented .ideal _ _ st hnone hst
    (throughout_idle (fun _ => rfl) idle_boot _) 1000 1001 hok⟩

end Consent

/-! ## How long a rejection holds -/

section Rejection

variable (env : Env) (fromUid toUid : Int32)

/-- The ids are those of the two users. -/
def SamePair (x y : Int32) : Prop := (x = fromUid ∧ y = toUid) ∨ (x = toUid ∧ y = fromUid)

/-- The request of `uid` acts on the friendship of the two users. -/
def ActsOn (uid : Int32) (request : Object) : Prop :=
  match typeField request with
  | some .FriendRequest => SamePair fromUid toUid uid (intField request "toId" 0)
  | some .FriendAccept => SamePair fromUid toUid (intField request "fromId" 0) uid
  | some .FriendRemove => SamePair fromUid toUid (intField request "fromId" 0) (intField request "toId" 0)
  | _ => False

/-- `toUid` rejects a pending request of `fromUid`. -/
def Rejects (st : Server) (event : Event) : Prop :=
  ∃ request, Brings st event toUid request ∧ typeField request = some .FriendRemove ∧
    intField request "fromId" 0 = fromUid ∧ intField request "toId" 0 = toUid ∧
    (rejectOrRemove env toUid fromUid toUid st.db).result = .ok (true, true)

/-- `toUid` sends no friend request and no removal, and nobody but `fromUid` acts
on the pair. -/
def LeftTo (st : Server) (event : Event) : Prop :=
  ∀ uid request, Brings st event uid request →
    (uid = toUid → typeField request ≠ some .FriendRequest ∧ typeField request ≠ some .FriendRemove) ∧
      (uid ≠ fromUid → ¬ActsOn fromUid toUid uid request)

/-- A removal by which `fromUid` names the pair only rejects a pending request of
`toUid`. -/
def KeepsRejection (st : Server) (event : Event) : Prop :=
  ∀ request, Brings st event fromUid request → typeField request = some .FriendRemove →
    ActsOn fromUid toUid fromUid request →
      env.Serves ∧ intField request "fromId" 0 = toUid ∧ intField request "toId" 0 = fromUid ∧
        0 < toUid ∧ st.db.friendRows.any (isPending toUid fromUid) = true

/-- There is no pending or accepted row in this direction. -/
def NoLiveRow (st : Server) : Prop :=
  ∀ row ∈ st.db.friendRows, isPair fromUid toUid row = true → row.status = .rejected

/-- A friend request of `fromUid` to `toUid` is answered with the status error, and
nothing else is sent. -/
def Refused (st : Server) (event : Event) (_ : Server) : Prop :=
  ∀ session json now later request, event = .frame session json now later → Handled st session now →
    parseObject env.stack json = some request → typeField request = some .FriendRequest →
    st.userId session = fromUid → intField request "toId" 0 = toUid →
      ∃ s, (handle env event st).out = [⟨session, friendAck fromUid toUid false, [], s⟩]

/-- The request is there, and it is rejected. -/
structure Barred (rows : List FriendshipRow) : Prop where
  present : ∃ row ∈ rows, isPair fromUid toUid row = true
  rejected : ∀ row ∈ rows, isPair fromUid toUid row = true → row.status = .rejected

variable {env fromUid toUid} {st st' : Server} {event : Event} {uid : Int32} {request : Object}
  {rows rows' : List FriendshipRow}

theorem Barred.not_requested (h : Barred fromUid toUid rows) : ¬Requested fromUid toUid rows rows' := by
  obtain ⟨row, hrow, hpair⟩ := h.present
  rintro (⟨hfresh, -⟩ | ⟨requestMsg, at_, hany, -⟩)
  · rw [hfresh row hrow] at hpair
    cases hpair
  · obtain ⟨r, hr, hpending⟩ := List.any_eq_true.mp hany
    obtain ⟨hpair, hstatus⟩ := isPending_iff.mp hpending
    rw [h.rejected r hr (isPair_iff.mpr hpair)] at hstatus
    cases hstatus

/-- An `UPDATE` of pending rows leaves the rejected ones alone. -/
theorem Barred.updated (h : Barred fromUid toUid rows) {f t : Int32} {u : FriendshipRow → FriendshipRow}
    (hrows : rows' = updated (isPending f t) u rows)
    (hu : ∀ r, (u r).from_uid = r.from_uid ∧ (u r).to_uid = r.to_uid) :
    ∀ row ∈ rows', isPair fromUid toUid row = true → row.status = .rejected := by
  intro row hrow hpair
  rw [hrows] at hrow
  rcases mem_updated hrow with ⟨hold, -⟩ | ⟨old, hold, hpending, rfl⟩
  · exact h.rejected row hold hpair
  · rw [isPair_iff, (hu old).1, (hu old).2, ← isPair_iff] at hpair
    have hrejected := h.rejected old hold hpair
    rw [(isPending_iff.mp hpending).2] at hrejected
    cases hrejected

theorem Barred.change (h : Barred fromUid toUid rows) (hchange : Change uid request rows rows') :
    ∀ row ∈ rows', isPair fromUid toUid row = true → row.status = .rejected := by
  cases hchange with
  | requested _ _ hrows =>
    rcases hrows with ⟨hfresh, new, hfrom, hto, -, rfl⟩ | ⟨requestMsg, at_, -, hupdated⟩
    · intro row hrow hpair
      rcases List.mem_append.mp hrow with hold | hnew
      · exact h.rejected row hold hpair
      · cases List.mem_singleton.mp hnew
        obtain ⟨there, hthere, hpair'⟩ := h.present
        obtain ⟨hfrom', hto'⟩ := isPair_iff.mp hpair
        have hnone := hfresh there hthere
        rw [← hfrom, ← hto, hfrom', hto', hpair'] at hnone
        cases hnone
    · exact h.updated hupdated fun _ => ⟨rfl, rfl⟩
  | accepted _ _ hrows =>
    obtain ⟨at_, -, hupdated⟩ := hrows
    exact h.updated hupdated fun _ => ⟨rfl, rfl⟩
  | rejected _ _ _ hrows =>
    obtain ⟨at_, -, hupdated⟩ := hrows
    exact h.updated hupdated fun _ => ⟨rfl, rfl⟩
  | removed _ _ _ _ hrows =>
    intro row hrow hpair
    rw [hrows] at hrow
    exact h.rejected row (List.mem_filter.mp hrow).1 hpair

theorem samePair_of_concerns {x y : Int32} {row : FriendshipRow}
    (h : concerns fromUid toUid row = true) (h' : concerns x y row = true) : SamePair fromUid toUid x y := by
  rcases concerns_iff.mp h with ⟨hfrom, hto⟩ | ⟨hfrom, hto⟩ <;>
    rcases concerns_iff.mp h' with ⟨rfl, rfl⟩ | ⟨rfl, rfl⟩
  · exact .inl ⟨hfrom, hto⟩
  · exact .inr ⟨hto, hfrom⟩
  · exact .inr ⟨hfrom, hto⟩
  · exact .inl ⟨hto, hfrom⟩

/-- Under the condition, no row of the pair is deleted. -/
theorem spared_step (hidle : st.db.Idle) (hleft : LeftTo fromUid toUid st event)
    (hkeeps : KeepsRejection env fromUid toUid st event) (hstep : step env st event = some st') :
    Spared fromUid toUid st event st' := by
  rcases friends_step hidle hstep with hsame | ⟨uid, request, hbrings, hok, hchange⟩
  · rw [Spared, hsame]
    exact keepsPair_of_subset fun _ hr => hr
  unfold Spared
  cases hchange with
  | requested _ _ hrows => exact hrows.keepsPair
  | accepted _ _ hrows => exact hrows.keepsPair
  | rejected _ _ _ hrows => exact hrows.keepsPair
  | removed htype hpos _ _ hrows =>
    intro row hrow hconcerns
    rcases em (concerns (intField request "fromId" 0) (intField request "toId" 0) row = true) with
      hnamed | hother
    swap
    · refine ⟨row, ?_, isPair_iff.mpr ⟨rfl, rfl⟩⟩
      rw [hrows]
      exact List.mem_filter.mpr ⟨hrow, by simpa using hother⟩
    have hacts : ActsOn fromUid toUid uid request := by
      simp only [ActsOn, htype]
      exact samePair_of_concerns hconcerns hnamed
    rcases eq_or_ne uid fromUid with rfl | hne
    swap
    · exact absurd hacts ((hleft uid request hbrings).2 hne)
    obtain ⟨henv, hfrom, hto, hpos', hpending⟩ := hkeeps request hbrings htype hacts
    have hresult : (rejectOrRemove env uid (intField request "fromId" 0) (intField request "toId" 0)
        st.db).result = .ok (true, true) := by
      rw [hfrom, hto]
      exact result_rejectOrRemove henv hidle hpos hpos' hpending
    exact (answered_of_rejects hidle hbrings htype hresult hstep).keepsPair row hrow hconcerns

/-- A request that is still there after a step is still rejected. -/
theorem barred_step (hidle : st.db.Idle) (hst : Barred fromUid toUid st.db.friendRows)
    (hspared : Spared fromUid toUid st event st') (hstep : step env st event = some st') :
    Barred fromUid toUid st'.db.friendRows where
  present := by
    obtain ⟨row, hrow, hpair⟩ := hst.present
    obtain ⟨hfrom, hto⟩ := isPair_iff.mp hpair
    obtain ⟨row', hrow', hpair'⟩ := hspared row hrow (concerns_iff.mpr (.inl ⟨hfrom, hto⟩))
    rw [hfrom, hto] at hpair'
    exact ⟨row', hrow', hpair'⟩
  rejected := by
    rcases friends_step hidle hstep with hsame | ⟨uid, request, hbrings, hok, hchange⟩
    · rw [hsame]
      exact hst.rejected
    · exact hst.change hchange

/-- The rejection of the one request in this direction. -/
theorem barred_of_answered (hdistinct : PairsDistinct rows)
    (h : Answered fromUid toUid .rejected rows rows') : Barred fromUid toUid rows' where
  present := by
    obtain ⟨pending, hpending, hany⟩ := List.any_eq_true.mp h.choose_spec.1
    obtain ⟨⟨hfrom, hto⟩, -⟩ := isPending_iff.mp hany
    have hkeeps : KeepsPair fromUid toUid rows rows' := h.keepsPair
    obtain ⟨row, hrow, hpair⟩ := hkeeps pending hpending (concerns_iff.mpr (.inl ⟨hfrom, hto⟩))
    rw [hfrom, hto] at hpair
    exact ⟨row, hrow, hpair⟩
  rejected := by
    obtain ⟨at_, hany, rfl⟩ := h
    obtain ⟨pending, hpending, hmatch⟩ := List.any_eq_true.mp hany
    obtain ⟨⟨hfrom, hto⟩, -⟩ := isPending_iff.mp hmatch
    intro row hrow hpair
    rcases mem_updated hrow with ⟨hold, hother⟩ | ⟨old, -, -, rfl⟩
    · rw [hdistinct.eq hpending hold (by rw [hfrom, hto]; exact hpair), hmatch] at hother
      cases hother
    · rfl

theorem distinct_of_run {db : Database} {events : List Event} (hdb : PairsDistinct db.friendRows)
    (hidle : Throughout (step env) (fun st => st.db.Idle) (.start db) events)
    (hrun : run (step env) (.start db) events = some st) : PairsDistinct st.db.friendRows := by
  refine history_run (P := fun _ st => PairsDistinct st.db.friendRows) hdb
    (fun _ st event st' _ hidle hst hstep => ?_) hidle hrun
  rcases friends_step hidle hstep with hsame | ⟨uid, request, -, -, hchange⟩
  · rwa [hsame]
  cases hchange with
  | requested _ _ hrows => exact hrows.pairsDistinct hst
  | accepted _ _ hrows => exact hrows.pairsDistinct hst
  | rejected _ _ _ hrows => exact hrows.pairsDistinct hst
  | removed _ _ _ _ hrows => exact hrows.pairsDistinct hst

theorem out_deliver (st : Server) (session : SessionId) (payload : Object) :
    (deliver session payload st).out = [⟨session, payload, [], st⟩] := by
  unfold deliver deliverContent
  split <;> rfl

/-- A request that would be against the rejection fails. -/
theorem run_sent {toId : Int32} {msg : Bytes} {s : Server} (hidle : s.db.Idle)
    (h : Barred uid toId s.db.friendRows) :
    ∃ s' : Server, Cmd.andAlso (0 < uid ∧ 0 < toId) (onDb (sendRequest env uid toId msg)) s =
      ⟨.ok false, s', []⟩ := by
  unfold Cmd.andAlso
  split
  · obtain ⟨b, db', hrun, -, hrows⟩ := @alters_sendRequest env _ hidle uid toId msg
    rcases hrows with ⟨rfl, -⟩ | ⟨-, hrequested⟩
    · refine ⟨{ s with db := db' }, ?_⟩
      rw [onDb, Cmd.zoom_apply, hrun]
    · exact absurd hrequested h.not_requested
  · exact ⟨s, rfl⟩

theorem refused_of_barred (hidle : st.db.Idle) (h : Barred fromUid toUid st.db.friendRows) :
    Refused env fromUid toUid st event st' := by
  rintro session json now later request rfl hhandled hparse htype rfl rfl
  obtain ⟨s, hroster, hdb, hhandle⟩ := @handle_frame env session st json now later request hhandled
    hparse (by rw [htype]; decide)
  have huser := Server.userId_of_roster hroster session
  rw [← hdb] at hidle h
  rw [← huser] at h ⊢
  obtain ⟨s', hsent⟩ := @run_sent env (s.userId session) (intField request "toId" 0)
    (stringField request "msg" []) s hidle h
  refine ⟨s', ?_⟩
  rw [hhandle]
  simp only [dispatch, htype, handleFriendRequest]
  rw [Cmd.bind_of_run _ (run_authenticatedUserId s session), Cmd.bind_of_run _ hsent]
  exact out_deliver ..

/-- Over every run in which no transaction is left open: after the rejection of a
request, while the rejecting user leaves the pair to the requester and the
requester does not have its rows deleted, no request in this direction is pending
or accepted, and every new one is refused. -/
theorem rejection_binds (env : Env) (db : Database) (fromUid toUid : Int32) (es events : List Event)
    (event : Event) (st st' : Server) (hdb : PairsDistinct db.friendRows)
    (hidle : Throughout (step env) (fun st => st.db.Idle) (.start db) (es ++ event :: events))
    (hrun : run (step env) (.start db) es = some st) (hrejects : Rejects env fromUid toUid st event)
    (hstep : step env st event = some st')
    (hafter : Along (step env) (fun st event => LeftTo fromUid toUid st event ∧
      KeepsRejection env fromUid toUid st event) st' events) :
    Throughout (step env) (NoLiveRow fromUid toUid) st' events ∧
      EachStep (step env) (Refused env fromUid toUid) st' events := by
  have hidle' := hidle.right hrun
  have hbarred : Barred fromUid toUid st'.db.friendRows := by
    obtain ⟨request, hbrings, htype, rfl, hto, hresult⟩ := hrejects
    refine barred_of_answered (distinct_of_run hdb hidle.left hrun) ?_
    exact answered_of_rejects hidle'.1 hbrings htype (hto ▸ hresult) hstep
  have hidle'' := hidle'.2 st' hstep
  have hthrough : Throughout (step env) (fun st => Barred fromUid toUid st.db.friendRows) st' events := by
    refine throughout_of_along (J := fun _ => True) (I := fun st => Barred fromUid toUid st.db.friendRows)
      (fun _ _ _ _ _ => trivial) (fun st event st' _ hst hstep hc => ?_) trivial hbarred
      (hidle''.along hafter)
    exact barred_step hc.1 hst (spared_step hc.1 hc.2.1 hc.2.2 hstep) hstep
  constructor
  · exact hthrough.imp fun _ h => h.rejected
  · exact (hidle''.and hthrough).eachStep fun _ _ _ h _ => refused_of_barred h.1 h.2

/-- What the requester sends himself leaves the pair to him. -/
theorem leftTo_self {session : SessionId} {json : Bytes} {now later : Int} (hne : fromUid ≠ toUid)
    (huser : st.userId session = fromUid) :
    LeftTo fromUid toUid st (.frame session json now later) := by
  rintro uid request ⟨_, _, _, _, hevent, -, -, rfl⟩
  cases hevent
  exact ⟨fun htoUid => absurd (huser.symm.trans htoUid) hne, fun hother => absurd huser hother⟩

end Rejection

/-- The request of user 1000. -/
def courting : Event := request 1 .FriendRequest [("toId", .int 1001)]

/-- User 1001 rejects the request of user 1000, who deletes the row and asks again. -/
theorem courting_again :
    ∃ st st' s₁ s₂, run (step .ideal) (.boot .ideal .empty) (threeUsers ++ [courting]) = some st ∧
      Rejects .ideal 1000 1001 st (removal 2) ∧ step .ideal st (removal 2) = some st' ∧
      st'.userId 1 = 1000 ∧ step .ideal st' (removal 1) = some s₁ ∧ s₁.userId 1 = 1000 ∧
      step .ideal s₁ courting = some s₂ ∧
      s₂.db.friendRows.any (isPending 1000 1001) = true := by
  have hparse : ((readObject (requestText .FriendRemove [("fromId", .int 1000), ("toId", .int 1001)])).map
      fun request => (typeField request, intField request "fromId" 0, intField request "toId" 0)) =
      some (some .FriendRemove, 1000, 1001) := by
    decide +kernel
  have hrun : ((run (step .ideal) (.boot .ideal .empty) (threeUsers ++ [courting])).bind fun st =>
      (step .ideal st (removal 2)).bind fun st' => (step .ideal st' (removal 1)).bind fun s₁ =>
        (step .ideal s₁ courting).map fun s₂ =>
          (((st.pool.object 2).reading, ((st.pool.object 2).consumeRateLimitToken 0).1, st.userId 2),
            (rejectOrRemove .ideal 1001 1000 1001 st.db).result.toOption, (st'.userId 1, s₁.userId 1),
            s₂.db.friendRows.any (isPending 1000 1001))) =
      some ((true, true, 1001), some (true, true), (1000, 1000), true) := by
    decide +kernel
  obtain ⟨st, hst, hrest⟩ := Option.bind_eq_some_iff.mp hrun
  obtain ⟨st', hst', hrest⟩ := Option.bind_eq_some_iff.mp hrest
  obtain ⟨s₁, hs₁, hrest⟩ := Option.bind_eq_some_iff.mp hrest
  obtain ⟨s₂, hs₂, heq⟩ := Option.map_eq_some_iff.mp hrest
  simp only [Prod.mk.injEq] at heq
  obtain ⟨⟨hreading, hgranted, huser⟩, hresult, ⟨huser', huser₁⟩, hlive⟩ := heq
  obtain ⟨request, hrequest, hfields⟩ := Option.map_eq_some_iff.mp hparse
  simp only [Prod.mk.injEq] at hfields
  obtain ⟨htype, hfrom, hto⟩ := hfields
  refine ⟨st, st', s₁, s₂, hst, ⟨request, ?_, htype, hfrom, hto, ?_⟩, hst', huser', hs₁, huser₁, hs₂, hlive⟩
  · exact ⟨2, _, 0, 0, rfl, ⟨hreading, hgranted⟩, hrequest, huser⟩
  · cases h : (rejectOrRemove .ideal 1001 1000 1001 st.db).result with
    | error e => simp [h, Except.toOption] at hresult
    | ok answer => simpa [h, Except.toOption] using hresult

/-- A repeated request is refused. -/
theorem rejection_binds_courting :
    ∃ st', run (step .ideal) (.boot .ideal .empty) (threeUsers ++ [courting, removal 2]) = some st' ∧
      Throughout (step .ideal) (NoLiveRow 1000 1001) st' [courting] ∧
      EachStep (step .ideal) (Refused .ideal 1000 1001) st' [courting] := by
  obtain ⟨st, st', -, -, hst, hrejects, hst', huser, -⟩ := courting_again
  have hnone : (Server.boot .ideal .empty).db.friendRows = [] := by decide +kernel
  have htype : (readObject (requestText .FriendRequest [("toId", .int 1001)])).bind typeField =
      some .FriendRequest := by
    decide +kernel
  have hrun : run (step .ideal) (.boot .ideal .empty) (threeUsers ++ [courting, removal 2]) = some st' := by
    rw [List.append_cons, run_append, hst]
    exact run_cons_eq_some.mpr ⟨st', hst', rfl⟩
  refine ⟨st', hrun, rejection_binds .ideal _ 1000 1001 _ [courting] _ st st' ?_
    (throughout_idle (fun _ => rfl) idle_boot _) hst hrejects hst' fun _ _ => ⟨⟨?_, ?_⟩, trivial⟩⟩
  · rw [show (Server.boot .ideal .empty).db.friendRows = [] from hnone]
    exact .nil
  · exact leftTo_self (show (1000 : Int32) ≠ 1001 by decide) huser
  · rintro request ⟨_, _, _, _, hevent, -, hparse, -⟩ hremove
    cases hevent
    rw [hparse, Option.bind_some, hremove] at htype
    cases htype

/-- The requester has the rejected request deleted, and the next one goes through. -/
theorem rejection_evaded :
    ¬∀ env db fromUid toUid es event events st st', PairsDistinct db.friendRows →
      run (step env) (.start db) es = some st → Rejects env fromUid toUid st event →
      step env st event = some st' → Along (step env) (LeftTo fromUid toUid) st' events →
        Throughout (step env) (NoLiveRow fromUid toUid) st' events ∧
          EachStep (step env) (Refused env fromUid toUid) st' events := by
  intro hall
  obtain ⟨st, st', s₁, s₂, hst, hrejects, hst', huser, hs₁, huser₁, hs₂, hlive⟩ := courting_again
  have hnone : (Server.boot .ideal .empty).db.friendRows = [] := by decide +kernel
  have hleft : Along (step .ideal) (LeftTo 1000 1001) st' [removal 1, courting] := by
    intro s hs
    cases hs₁.symm.trans hs
    exact ⟨leftTo_self (show (1000 : Int32) ≠ 1001 by decide) huser,
      fun _ _ => ⟨leftTo_self (show (1000 : Int32) ≠ 1001 by decide) huser₁, trivial⟩⟩
  have hdistinct : PairsDistinct (Server.boot .ideal .empty).db.friendRows := by
    rw [hnone]
    exact .nil
  have hlast := (hall .ideal _ 1000 1001 _ _ _ st st' hdistinct hst hrejects hst' hleft).1.last
    (run_cons_eq_some.mpr ⟨s₁, hs₁, run_cons_eq_some.mpr ⟨s₂, hs₂, rfl⟩⟩)
  obtain ⟨row, hrow, hpending⟩ := List.any_eq_true.mp hlive
  obtain ⟨hpair, hstatus⟩ := isPending_iff.mp hpending
  rw [hlast row hrow (isPair_iff.mpr hpair)] at hstatus
  cases hstatus

end TcpServer

end LanChat
