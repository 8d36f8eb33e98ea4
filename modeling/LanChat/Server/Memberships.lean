import LanChat.Db.GroupTables
import LanChat.Server.Authentication

/-!
# Who joins and leaves a group

A membership is added only by a session of the member, that asks to join the
group or creates it, and is removed only by one that asks to leave it
(`membership_by_own_request`).
-/

namespace LanChat

open Lib Json

namespace ChannelRepository

open Database

/-- What a request may do to the memberships: add those in `joins`, and remove those
in `leaves`. -/
structure Moves (whole : Prop) (joins leaves : Int32 × Int32 → Prop) (start rows : RowList) : Prop where
  added : ∀ row ∈ rows, row ∈ start ∨ joins (pair row)
  removed : whole → ∀ row ∈ start, row ∈ rows ∨ leaves (pair row)

section Operations

variable {env : Env} {whole : Prop} {joins leaves : Int32 × Int32 → Prop} {start rows : RowList} {userId groupId : Int32}

theorem Moves.refl (start : RowList) : Moves whole joins leaves start start :=
  ⟨fun _ h => .inl h, fun _ _ h => .inl h⟩

theorem Moves.take (hpart : ¬whole) (rows : RowList) (n : Nat) (h : Moves whole joins leaves start rows) :
    Moves whole joins leaves start (rows.take n) :=
  ⟨fun row hrow => h.added row (List.mem_of_mem_take hrow), fun hwhole => absurd hwhole hpart⟩

theorem Moves.concat (h : Moves whole joins leaves start rows) {row : Row} (hrow : joins (pair row)) :
    Moves whole joins leaves start (rows ++ [row]) where
  added r hr := by
    rcases List.mem_append.mp hr with hr | hr
    · exact h.added r hr
    · exact .inr (List.mem_singleton.mp hr ▸ hrow)
  removed hwhole r hr := (h.removed hwhole r hr).imp (fun hkept => List.mem_append_left _ hkept) id

theorem Moves.filter (h : Moves whole joins leaves start rows) {p : Row → Bool}
    (hp : ∀ row, p row = false → leaves (pair row)) : Moves whole joins leaves start (rows.filter p) where
  added row hrow := h.added row (List.mem_filter.mp hrow).1
  removed hwhole row hrow := by
    rcases h.removed hwhole row hrow with hkept | hleft
    · cases hrow : p row with
      | true => exact .inl (List.mem_filter.mpr ⟨hkept, hrow⟩)
      | false => exact .inr (hp row hrow)
    · exact .inr hleft

/-- The memberships are what a request may have made of those of `start`. -/
abbrev KeepsMembers (env : Env) (whole : Prop) (joins leaves : Int32 × Int32 → Prop) (start : RowList) :
    Database → Prop :=
  Tracks env whole .group_members (Moves whole joins leaves start)

theorem reads_members (env : Env) (whole : Prop) (joins leaves : Int32 × Int32 → Prop) (start : RowList) :
    Reads env (fun _ _ => True) (KeepsMembers env whole joins leaves start)
      (KeepsMembers env whole joins leaves start) :=
  reads_tracks Moves.take

theorem guarded_join_members (hjoins : joins (userId, groupId)) :
    Guarded (KeepsMembers env whole joins leaves start) (KeepsMembers env whole joins leaves start)
      (join env userId groupId) := by
  have hreads := reads_members env whole joins leaves start
  refine (hreads.groupExists groupId).bind fun _ => (guarded_pure false).ite <|
    (hreads.queryOk _ _).bind fun _ => (guarded_pure true).ite <| hreads.time.bind fun now =>
      Guarded.bind (guarded_insert_tracks Moves.take fun rows hrows => hrows.concat ?_) fun _ => guarded_pure true
  rw [pair_memberRow]
  exact hjoins

theorem guarded_leave_members (hleaves : leaves (userId, groupId)) :
    Guarded (KeepsMembers env whole joins leaves start) (KeepsMembers env whole joins leaves start)
      (leave env userId groupId) := by
  refine guarded_remove_tracks Moves.take fun rows hrows => hrows.filter fun row hrow => ?_
  rw [Bool.not_eq_false', isMembership_iff] at hrow
  rw [hrow]
  exact hleaves

/-- A group is created with its founder as a member. -/
theorem sat_createGroup_members {db : Database} (hdb : KeepsMembers env whole joins leaves start db) (hostId : Int32)
    (name : Bytes) (hjoins : ∀ id, (nextGroupId env db).result = .ok id → joins (hostId, id)) :
    Cmd.Sat (fun d => d = db) (createGroup env hostId name) (fun _ => KeepsMembers env whole joins leaves start)
      (fun _ => KeepsMembers env whole joins leaves start) fun _ => True := by
  have hreads := reads_members env whole joins leaves start
  have hnext : Cmd.Sat (fun d => d = db) (nextGroupId env)
      (fun id d => joins (hostId, id) ∧ KeepsMembers env whole joins leaves start d)
      (fun _ => KeepsMembers env whole joins leaves start) fun _ => True := by
    rintro d rfl
    obtain ⟨-, hok, herr⟩ := hreads.nextGroupId d hdb
    exact ⟨fun _ _ => trivial, fun id hid => ⟨hjoins id hid, hok id hid⟩, herr⟩
  refine hnext.bind fun id => Cmd.Sat.of_fact fun hid => hreads.time.bind fun now => ?_
  exact Guarded.bind (spares_insert (by decide) _).tracks fun _ =>
    (guarded_join_members hid).bind fun _ => guarded_pure _

end Operations

end ChannelRepository

namespace TcpServer

open Database ChannelRepository MessageRouter

/-- The session of the user asks to join the group, or creates it. -/
inductive Joins (env : Env) (st : Server) (userId groupId : Int32) : Event → Prop
  | join {session : SessionId} {json : Bytes} {now later : Int} {request : Object} :
    Handled st session now → readObject json = some request → typeField request = some .JoinGroup →
    st.userId session = userId → intField request "groupId" 0 = groupId →
    Joins env st userId groupId (.frame session json now later)
  | create {session : SessionId} {json : Bytes} {now later : Int} {request : Object} :
    Handled st session now → readObject json = some request → typeField request = some .CreateGroup →
    st.userId session = userId → 0 < userId → (nextGroupId env st.db).result = .ok groupId →
    Joins env st userId groupId (.frame session json now later)

/-- The session of the user asks to leave the group. -/
inductive Leaves (st : Server) (userId groupId : Int32) : Event → Prop
  | leave {session : SessionId} {json : Bytes} {now later : Int} {request : Object} :
    Handled st session now → readObject json = some request → typeField request = some .LeaveGroup →
    st.userId session = userId → intField request "groupId" 0 = groupId →
    Leaves st userId groupId (.frame session json now later)

def IsMember (st : Server) (userId groupId : Int32) : Prop :=
  ∃ row ∈ st.db.content .group_members, pair row = (userId, groupId)

/-- The memberships are in memory, or all of them will be loaded. -/
def AllMembers (env : Env) (st : Server) : Prop := env.Serves ∨ (st.db.tables .group_members).isSome

section Steps

variable {env : Env} {st st' : Server} {event : Event} {whole : Prop} {joins leaves : Int32 × Int32 → Prop}
  {start : RowList} {session : SessionId} {uid : Int32} {request : Object}

theorem guardsCalls_members (hcreate : typeField request ≠ some .CreateGroup) (hjoin : typeField request ≠ some .JoinGroup)
    (hleave : typeField request ≠ some .LeaveGroup) :
    GuardsCalls env (KeepsMembers env whole joins leaves start) (KeepsMembers env whole joins leaves start) uid request := by
  have hreads := reads_members env whole joins leaves start
  have husers := @writesTo_tracks env .group_members .users whole (Moves whole joins leaves start) (by decide)
  have hmessages := @writesTo_tracks env .group_members .messages whole (Moves whole joins leaves start) (by decide)
  intro α c hcall
  cases hcall with
  | create _ _ _ _ => exact husers.create hreads _ _ _
  | verifyPassword _ _ _ => exact husers.verifyPassword hreads _ _
  | setOnline _ _ => exact husers.setOnlineStatus hreads _ _
  | setOffline _ _ => exact husers.setOnlineStatus hreads _ _
  | updateProfile _ _ _ _ => exact husers.updateProfile hreads _ _ _
  | join _ htype => exact absurd htype hjoin
  | leave _ htype => exact absurd htype hleave
  | createGroup _ htype _ => exact absurd htype hcreate
  | sendRequest _ _ => exact guarded_sendRequest hreads friendships_tracks _ _ _
  | acceptRequest _ _ => exact guarded_setStatus hreads friendships_tracks _ _ _
  | rejectOrRemove _ => exact guarded_rejectOrRemove hreads friendships_tracks _ _ _
  | offlineForUser _ _ => exact hmessages.offlineForUser hreads _ _
  | savePrivate _ _ _ _ _ _ => exact hmessages.savePrivate hreads _ _ _ _ _
  | saveGroup _ _ _ _ _ => exact hmessages.saveGroup hreads _ _ _ _
  | markReadByNobody _ _ _ => exact hmessages.markRead _ _
  | markRead _ _ _ _ => exact hmessages.markRead _ _
  | addReaction _ _ _ _ _ => exact hmessages.addReaction _ _ _
  | edit _ _ _ _ _ => exact hmessages.edit hreads _ _ _
  | softDelete _ _ _ _ => exact hmessages.softDelete hreads _ _

/-- What a request does to the memberships. -/
theorem dispatch_members (hst : KeepsMembers env whole joins leaves start st.db)
    (hcreate : typeField request = some .CreateGroup → 0 < st.userId session →
      ∀ id, (nextGroupId env st.db).result = .ok id → joins (st.userId session, id))
    (hjoin : typeField request = some .JoinGroup → joins (st.userId session, intField request "groupId" 0))
    (hleave : typeField request = some .LeaveGroup → leaves (st.userId session, intField request "groupId" 0)) :
    DispatchSat env (KeepsMembers env whole joins leaves start) (KeepsMembers env whole joins leaves start) st session
      request := by
  have hreads := reads_members env whole joins leaves start
  have hauth : ∀ {f : Int32 → RouterM Unit}, Cmd.Sat (fun s => s.db = st.db) (f (st.userId session))
        (fun _ s => KeepsMembers env whole joins leaves start s.db)
        (fun e s => KeepsMembers env whole joins leaves start s.db ∨
          e.OutsideDb ∧ KeepsMembers env whole joins leaves start s.db)
        (fun d => KeepsMembers env whole joins leaves start d.at_.db) →
      Cmd.Sat (fun s => s.userId session = st.userId session ∧ s.db = st.db) (authenticatedUserId session >>= f)
        (fun _ s => KeepsMembers env whole joins leaves start s.db)
        (fun e s => KeepsMembers env whole joins leaves start s.db ∨
          e.OutsideDb ∧ KeepsMembers env whole joins leaves start s.db)
        fun d => KeepsMembers env whole joins leaves start d.at_.db := by
    rintro f h s ⟨huser, hs⟩
    rw [Cmd.bind_of_run _ (run_authenticatedUserId s session), huser]
    exact h s hs
  rcases em (typeField request = some .CreateGroup) with htype | hcreate'
  · simp only [DispatchSat, dispatch, htype]
    refine hauth <| Cmd.sat_ite (fun _ => (guards_deliver _ _).pre fun _ hs => hs ▸ hst) fun hvalid => ?_
    rw [not_or, Int32.not_le] at hvalid
    have hreply : ∀ group, Guards (KeepsMembers env whole joins leaves start) (KeepsMembers env whole joins leaves start)
      (deliver session (createdReply group)) := fun _ => guards_deliver _ _
    refine Cmd.Sat.bind ?_ hreply
    refine Cmd.sat_zoom fun s hs db hdb => ?_
    obtain ⟨-, hok, herr⟩ := sat_createGroup_members hst _ _ (hcreate htype hvalid.1) db (hdb.trans hs)
    exact ⟨fun w => w.elim, hok, fun e he => .inl (herr e he)⟩
  rcases em (typeField request = some .JoinGroup) with htype | hjoin'
  · simp only [DispatchSat, dispatch, htype]
    refine hauth <| Cmd.Sat.pre ((guards_onDb (guarded_join_members (hjoin htype))).bind fun _ =>
      Guards.ite (fun _ => guards_deliver _ _) fun _ => (guards_onDb (hreads.members _)).bind fun _ =>
        (guards_onDb (guards_memberUsers hreads _)).bind fun _ => (guards_asks _).bind fun _ => guards_deliver _ _)
      fun s hs => hs ▸ hst
  rcases em (typeField request = some .LeaveGroup) with htype | hleave'
  · simp only [DispatchSat, dispatch, htype]
    exact hauth <| Cmd.Sat.pre ((guards_onDb (guarded_leave_members (hleave htype))).bind fun _ => guards_deliver _ _)
      fun s hs => hs ▸ hst
  · exact dispatchSat_of_calls hreads hst (guardsCalls_members hcreate' hjoin' hleave')

theorem members_step (hst : st.db.Settled .group_members) (hstep : step env st event = some st') :
    KeepsMembers env (AllMembers env st) (fun p => Joins env st p.1 p.2 event) (fun p => Leaves st p.1 p.2 event)
      (st.db.content .group_members) st'.db := by
  have hreads := reads_members env (AllMembers env st) (fun p => Joins env st p.1 p.2 event)
    (fun p => Leaves st p.1 p.2 event) (st.db.content .group_members)
  have hkept : KeepsMembers env (AllMembers env st) (fun p => Joins env st p.1 p.2 event)
      (fun p => Leaves st p.1 p.2 event) (st.db.content .group_members) st.db := ⟨hst, .refl _, id⟩
  refine invariant_step_of_dispatch hreads
    (fun id => (writesTo_tracks (by decide)).setOnlineStatus hreads id false) ?_ hkept hstep
  rintro session json now later request rfl hhandled hparse
  exact dispatch_members hkept (fun htype hpos id hid => .create hhandled hparse htype rfl hpos hid)
    (fun htype => .join hhandled hparse htype rfl rfl) (fun htype => .leave hhandled hparse htype rfl rfl)

end Steps

section Runs

variable {env : Env} {file : Content} {events later : List Event} {st st' : Server} {userId groupId : Int32}

/-- In every run, whoever has become a member of a group has asked to join it or has
created it, with a session that carried him, and has been a member since; whoever has
ceased to be one has asked to leave it, and has not been one since. -/
theorem membership_by_own_request (hrun : run (step env) (.boot env file) events = some st)
    (hlater : run (step env) st later = some st') :
    (IsMember st' userId groupId → ¬IsMember st userId groupId →
      Since (step env) (fun _ t e => Joins env t userId groupId e) (fun _ _ t' => IsMember t' userId groupId) st later) ∧
    (AllMembers env st → IsMember st userId groupId → ¬IsMember st' userId groupId →
      Since (step env) (fun _ t e => Leaves t userId groupId e) (fun _ _ t' => ¬IsMember t' userId groupId) st later) := by
  have hsettled : st.db.Settled .group_members := invariant_run
    (fun s e s' hs hstep => (@members_step env s s' e hs hstep).settled) (settled_startUp env file .group_members) hrun
  constructor
  · intro hmember hbefore
    refine history_run (I := fun t => t.db.Settled .group_members) (P := fun es t => IsMember t userId groupId →
      Since (step env) (fun _ t e => Joins env t userId groupId e) (fun _ _ t' => IsMember t' userId groupId) st es)
      (fun h => absurd h hbefore) ?_
      (throughout_of_step (fun s e s' hs hstep => (@members_step env s s' e hs hstep).settled) hsettled later) hlater hmember
    rintro es t e t' hes ht ih hstep ⟨row, hrow, hpair⟩
    rcases (members_step ht hstep).rows.added row hrow with hold | hjoins
    · exact (ih ⟨row, hold, hpair⟩).concat hes fun u hu => by
        cases hstep.symm.trans hu
        exact ⟨row, hrow, hpair⟩
    · rw [hpair] at hjoins
      exact since_concat hes hstep hjoins ⟨row, hrow, hpair⟩
  · intro hall hbefore hgone
    refine history_run (I := fun t => t.db.Settled .group_members ∧ AllMembers env t)
      (P := fun es t => ¬IsMember t userId groupId → Since (step env) (fun _ t e => Leaves t userId groupId e)
        (fun _ _ t' => ¬IsMember t' userId groupId) st es) (fun h => absurd hbefore h) ?_
      (throughout_of_step (fun s e s' hs hstep => ?_) ⟨hsettled, hall⟩ later) hlater hgone
    · rintro es t e t' hes ⟨ht, hallt⟩ ih hstep hnew
      by_cases hold : IsMember t userId groupId
      · obtain ⟨row, hrow, hpair⟩ := hold
        rcases (members_step ht hstep).rows.removed hallt row hrow with hkept | hleaves
        · exact absurd ⟨row, hkept, hpair⟩ hnew
        · rw [hpair] at hleaves
          exact since_concat hes hstep hleaves hnew
      · exact (ih hold).concat hes fun u hu => by
          cases hstep.symm.trans hu
          exact hnew
    · have hkept := @members_step env s s' e hs.1 hstep
      exact ⟨hkept.settled, hkept.loads hs.2⟩

end Runs

/-- The user 1000 creates a group. -/
def founding : Event := request 1 .CreateGroup [("name", text "g")]

theorem membership_by_own_request_founding : ∃ st st',
    run (step .ideal) (.boot .ideal .empty) [.accept 0, zeroByte, firstLogin] = some st ∧
    run (step .ideal) st [founding] = some st' ∧
    Since (step .ideal) (fun _ t e => Joins .ideal t 1000 2001 e) (fun _ _ t' => IsMember t' 1000 2001) st [founding] := by
  have hruns : ((run (step .ideal) (.boot .ideal .empty) [.accept 0, zeroByte, firstLogin]).map fun st =>
      ((st.db.content .group_members).map pair, (run (step .ideal) st [founding]).map fun st' =>
        (st'.db.content .group_members).map pair)) = some ([], some [(1000, 2001)]) := by
    decide +kernel
  obtain ⟨st, hrun, hpairs⟩ := Option.map_eq_some_iff.mp hruns
  rw [Prod.mk.injEq] at hpairs
  obtain ⟨hbefore, hafter⟩ := hpairs
  obtain ⟨st', hlater, hafter⟩ := Option.map_eq_some_iff.mp hafter
  have hiff : ∀ s : Server, IsMember s 1000 2001 ↔ (1000, 2001) ∈ (s.db.content .group_members).map pair :=
    fun s => List.mem_map.symm
  refine ⟨st, st', hrun, hlater, (membership_by_own_request hrun hlater).1 ((hiff st').mpr ?_) fun h => ?_⟩
  · rw [hafter]
    exact List.mem_singleton_self _
  · rw [hiff, hbefore] at h
    cases h

end TcpServer

end LanChat
