import LanChat.Db.MessageHistory
import LanChat.Server.Access

/-!
# Who changes a message

In every run a stored message keeps its identity, its text changes only when its
author edits or deletes it, and a deleted message stays empty and refuses
every further change.
-/

namespace LanChat

open Lib Json

namespace MessageRouter

open Database MessageRepository

variable {env : Env} {whole : Prop} {start : RowList} {uid : Int32} {request : Object}

/-- The user who edits or deletes a message by this request. -/
def writer (uid : Int32) (request : Object) : Option Int32 :=
  if typeField request = some .MessageEdit ∨ typeField request = some .MessageDelete then some uid
  else none

theorem guardsCalls_history : GuardsCalls env (KeepsHistory env whole (writer uid request) start)
    (KeepsHistory env whole (writer uid request) start) uid request := by
  have hreads := reads_history env whole (writer uid request) start
  have husers := @writesTo_tracks env .messages .users whole (Kept whole (writer uid request) start)
    (by decide)
  have hmembers := @writesTo_tracks env .messages .group_members whole
    (Kept whole (writer uid request) start) (by decide)
  intro α c hcall
  cases hcall with
  | create _ _ _ _ => exact husers.create hreads _ _ _
  | verifyPassword _ _ _ => exact husers.verifyPassword hreads _ _
  | setOnline _ _ => exact husers.setOnlineStatus hreads _ _
  | setOffline _ _ => exact husers.setOnlineStatus hreads _ _
  | updateProfile _ _ _ _ => exact husers.updateProfile hreads _ _ _
  | join _ _ => exact hmembers.join hreads _ _
  | leave _ _ => exact hmembers.leave _ _
  | createGroup _ _ _ => exact WritesTo.createGroup hreads (writesTo_tracks (by decide)) hmembers _ _
  | sendRequest _ _ => exact guarded_sendRequest hreads friendships_tracks _ _ _
  | acceptRequest _ _ => exact guarded_setStatus hreads friendships_tracks _ _ _
  | rejectOrRemove _ => exact guarded_rejectOrRemove hreads friendships_tracks _ _ _
  | offlineForUser _ _ => exact guarded_offlineForUser _ _
  | savePrivate _ _ _ _ _ _ => exact guarded_save fun _ _ => ⟨rfl, rfl⟩
  | saveGroup _ _ _ _ _ => exact guarded_save fun _ _ => ⟨rfl, rfl⟩
  | markReadByNobody _ _ _ => exact guarded_markRead _ _
  | markRead _ _ _ _ => exact guarded_markRead _ _
  | addReaction _ _ _ _ _ => exact guarded_addReaction _ _ _
  | edit _ _ htype _ _ =>
    rw [writer, if_pos (.inl htype)]
    exact guarded_edit _ _ _
  | softDelete _ htype _ _ =>
    rw [writer, if_pos (.inr htype)]
    exact guarded_softDelete _ _

/-! ## Changes that are refused -/

/-- The repository call that a handler makes for a change, if it makes one. -/
def change (msgId : Int64) (uid : Int32) (c : DbM Bool) : RouterM Bool :=
  Cmd.andAlso (0 < uid ∧ 0 < msgId) (onDb c)

/-- The handler does not get `true`, and gets `false` when the messages are in memory. -/
def Refuses (st : Server) (c : RouterM Bool) : Prop :=
  (c st).result ≠ .ok true ∧ ((st.db.tables .messages).isSome → (c st).result = .ok false)

/-- No edit, deletion or reaction of the message is accepted, whoever asks. -/
def IsFinal (env : Env) (st : Server) (msgId : Int64) : Prop := ∀ uid : Int32,
  (∀ content, Refuses st (change msgId uid (edit env msgId uid content))) ∧
    Refuses st (change msgId uid (softDelete env msgId uid)) ∧
    ∀ reaction, Refuses st (change msgId uid (addReaction env msgId uid reaction))

theorem refuses_change {st : Server} {msgId : Int64} {c : DbM Bool} (h : 0 < msgId → Refused c st.db) :
    Refuses st (change msgId uid c) := by
  unfold Refuses change Cmd.andAlso
  split
  · next hpos => exact h hpos.2
  · exact ⟨nofun, fun _ => rfl⟩

theorem isFinal_of_deleted {st : Server} {row : Row} (h : Sound (st.db.content .messages))
    (hrow : row ∈ st.db.content .messages) (hdeleted : (fromRow row).deleted = true) :
    IsFinal env st (fromRow row).msg_id := fun uid =>
  ⟨fun content => refuses_change fun hpos => refused_edit h hrow hdeleted rfl hpos uid content,
    refuses_change fun hpos => refused_softDelete h hrow hdeleted rfl hpos uid,
    fun reaction => refuses_change fun hpos => refused_addReaction h hrow hdeleted rfl hpos uid reaction⟩

end MessageRouter

namespace TcpServer

open Database MessageRepository MessageRouter

/-- The user who edits or deletes a message by the event. -/
def writerOf (st : Server) : Event → Option Int32
  | .frame session json _ _ => (readObject json).bind (writer (st.userId session))
  | _ => none

variable {env : Env} {st st' : Server}

/-- The messages are in memory, or all of them will be loaded. -/
def Complete (env : Env) (st : Server) : Prop := env.Serves ∨ (st.db.tables .messages).isSome

/-- What a run keeps of the table of messages. -/
structure Orderly (st : Server) : Prop where
  settled : st.db.Settled .messages
  sound : Sound (st.db.content .messages)

theorem history_step {event : Event} (hst : Orderly st) (hstep : step env st event = some st') :
    KeepsHistory env (Complete env st) (writerOf st event) (st.db.content .messages) st'.db := by
  have hreads := reads_history env (Complete env st) (writerOf st event) (st.db.content .messages)
  have hoffline : ∀ id, Guarded
      (KeepsHistory env (Complete env st) (writerOf st event) (st.db.content .messages))
      (KeepsHistory env (Complete env st) (writerOf st event) (st.db.content .messages))
      (UserRepository.setOnlineStatus env id false) :=
    fun id => (writesTo_tracks (by decide)).setOnlineStatus hreads id false
  refine invariant_step_of_calls hreads hoffline ?_ ⟨hst.settled, .of_sound hst.sound, id⟩ hstep
  rintro session json now later request rfl hparse
  have hwriter : writerOf st (.frame session json now later) = writer (st.userId session) request := by
    rw [writerOf, hparse]
    rfl
  rw [hwriter]
  exact guardsCalls_history

theorem Orderly.step {event : Event} (hst : Orderly st) (hstep : step env st event = some st') :
    Orderly st' :=
  have h := history_step hst hstep
  ⟨h.settled, h.rows.sound⟩

/-- In a longer run messages keep their identity, and stay deleted. -/
theorem retains_run {events : List Event} (hst : Orderly st) (hrun : run (step env) st events = some st') :
    Retains (Complete env st) Lasts (st.db.content .messages) (st'.db.content .messages) := by
  induction events generalizing st with
  | nil =>
    cases hrun
    exact retains_refl _ .refl _
  | cons event events ih =>
    obtain ⟨t, ht, hrest⟩ := run_cons_eq_some.mp hrun
    have hstep := history_step hst ht
    exact hstep.rows.retained.trans (ih (hst.step ht) hrest) hstep.loads
      fun hfollows hlasts => hfollows.lasts.trans hlasts

theorem orderly_of_run {file : Content} {events : List Event}
    (hsound : Sound ((Server.boot env file).db.content .messages))
    (hrun : run (step env) (.boot env file) events = some st) : Orderly st :=
  invariant_run (fun _ _ _ hst hstep => Orderly.step hst hstep)
    ⟨settled_startUp env file .messages, hsound⟩ hrun

/-- In every run, from a file with sound messages: a step changes the text of a
message only if its author edits or deletes it, and changes its identity never;
however the run goes on, a deleted message stays deleted, is empty, and every
further change of it is refused. -/
theorem only_author_rewrites {env : Env} {file : Content} {events : List Event} {st : Server}
    (hsound : Sound ((Server.boot env file).db.content .messages))
    (hrun : run (step env) (.boot env file) events = some st) :
    (∀ event st', step env st event = some st' →
      Retains (Complete env st) (Follows (writerOf st event)) (st.db.content .messages)
        (st'.db.content .messages)) ∧
    ∀ later st', run (step env) st later = some st' →
      Retains (Complete env st) Lasts (st.db.content .messages) (st'.db.content .messages) ∧
        ∀ row ∈ st'.db.content .messages, (fromRow row).deleted = true →
          (fromRow row).content = [] ∧ IsFinal env st' (fromRow row).msg_id := by
  have hst := orderly_of_run hsound hrun
  refine ⟨fun event st' hstep => (history_step hst hstep).rows.retained, fun later st' hlater => ?_⟩
  have hst' : Orderly st' := invariant_run (fun _ _ _ hst hstep => Orderly.step hst hstep) hst hlater
  exact ⟨retains_run hst hlater, fun row hrow hdeleted =>
    ⟨hst'.sound.emptied row hrow hdeleted, isFinal_of_deleted hst'.sound hrow hdeleted⟩⟩

/-- The user 1000 writes to himself, edits the message and deletes it. -/
def revising : List Event :=
  [.accept 0, request 1 .RegisterUser [("nickname", text "a"), ("password", text "p")],
    request 1 .Login [("id", .int 1000), ("password", text "p")],
    request 1 .SendMsg [("toId", .int 1000), ("msg", text "hi")],
    request 1 .MessageEdit [("msg_id", .int 1), ("msg", text "hello")],
    request 1 .MessageDelete [("msg_id", .int 1)]]

theorem only_author_rewrites_revising : ∃ st, run (step .ideal) (.boot .ideal .empty) revising = some st ∧
    ((st.db.content .messages).map fun row =>
      ((fromRow row).content, (fromRow row).edited, (fromRow row).deleted)) = [([], true, true)] ∧
    (∀ event st', step .ideal st event = some st' →
      Retains (Complete .ideal st) (Follows (writerOf st event)) (st.db.content .messages)
        (st'.db.content .messages)) ∧
    ∀ later st', run (step .ideal) st later = some st' →
      Retains (Complete .ideal st) Lasts (st.db.content .messages) (st'.db.content .messages) ∧
        ∀ row ∈ st'.db.content .messages, (fromRow row).deleted = true →
          (fromRow row).content = [] ∧ IsFinal .ideal st' (fromRow row).msg_id := by
  have hruns : (run (step .ideal) (.boot .ideal .empty) revising).map (fun st =>
      (st.db.content .messages).map fun row =>
        ((fromRow row).content, (fromRow row).edited, (fromRow row).deleted)) = some [([], true, true)] := by
    decide +kernel
  obtain ⟨st, hrun, hrows⟩ := Option.map_eq_some_iff.mp hruns
  have hsound : Sound ((Server.boot .ideal .empty).db.content .messages) := sound_nil
  exact ⟨st, hrun, hrows, only_author_rewrites hsound hrun⟩

end TcpServer

end LanChat
