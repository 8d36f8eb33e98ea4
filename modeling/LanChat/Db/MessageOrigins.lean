import LanChat.Db.MessageHistory

/-!
# Where a message comes from

Each row of the table of messages is one that was there before, or a message
that has been saved since (`Descends`); it becomes read only when it is marked.
-/

namespace LanChat

open Lib Json

namespace MessageRepository

open Database

/-- A message of the table `start`, or one that has been saved since. `posted`
are the users and groups that a message may be saved for, with 0 as the group of
a private message, and `marked` the ids that `markRead` may be called for. -/
inductive From (posted : Int32 → Int32 → Prop) (marked : Int64 → Prop) (start : RowList)
    (m : StoredMessage) : Prop
  | kept (old : Row) (hold : old ∈ start) (hidentity : identity m = identity (fromRow old))
    (hread : m.read = true → (fromRow old).read = true ∨ marked m.msg_id)
  | saved (hposted : posted m.from_id m.group_id) (hread : m.read = true → marked m.msg_id)

/-- All rows are such messages. -/
def Descends (posted : Int32 → Int32 → Prop) (marked : Int64 → Prop) (start rows : RowList) : Prop :=
  ∀ row ∈ rows, From posted marked start (fromRow row)

section Origins

variable {env : Env} {whole : Prop} {posted : Int32 → Int32 → Prop} {marked : Int64 → Prop}
  {start rows : RowList} {m m' : StoredMessage}

theorem msg_id_of_identity (h : identity m' = identity m) : m'.msg_id = m.msg_id := congrArg (fun t => t.1) h

theorem from_id_of_identity (h : identity m' = identity m) : m'.from_id = m.from_id :=
  congrArg (fun t => t.2.1) h

theorem group_id_of_identity (h : identity m' = identity m) : m'.group_id = m.group_id :=
  congrArg (fun t => t.2.2.2.1) h

theorem descends_refl (posted : Int32 → Int32 → Prop) (marked : Int64 → Prop) (rows : RowList) :
    Descends posted marked rows rows :=
  fun row hrow => .kept row hrow rfl fun hread => .inl hread

/-- A message that keeps its identity comes from where it came from. -/
theorem From.change (h : From posted marked start m) (hidentity : identity m' = identity m)
    (hread : m'.read = true → m.read = true ∨ marked m.msg_id) : From posted marked start m' := by
  have hid := msg_id_of_identity hidentity
  cases h with
  | kept old hold hold' hread' =>
    refine .kept old hold (hidentity.trans hold') fun hr => ?_
    rw [hid]
    exact (hread hr).elim hread' .inr
  | saved hposted hread' =>
    refine .saved ?_ fun hr => ?_
    · rw [group_id_of_identity hidentity, from_id_of_identity hidentity]
      exact hposted
    · rw [hid]
      exact (hread hr).elim hread' id

theorem Descends.take (_ : ¬whole) (rows : RowList) (n : Nat) (h : Descends posted marked start rows) :
    Descends posted marked start (rows.take n) :=
  fun row hrow => h row (List.mem_of_mem_take hrow)

/-- The messages of the database descend from those of `start`. -/
abbrev KeepsOrigins (env : Env) (whole : Prop) (posted : Int32 → Int32 → Prop) (marked : Int64 → Prop)
    (start : RowList) : Database → Prop :=
  Tracks env whole .messages (Descends posted marked start)

theorem reads_origins (env : Env) (whole : Prop) (posted : Int32 → Int32 → Prop) (marked : Int64 → Prop)
    (start : RowList) :
    Reads env (fun _ _ => True) (KeepsOrigins env whole posted marked start)
      (KeepsOrigins env whole posted marked start) :=
  reads_tracks Descends.take

/-- An operation keeps the origins. -/
abbrev Preserves {α : Type} (env : Env) (whole : Prop) (posted : Int32 → Int32 → Prop)
    (marked : Int64 → Prop) (start : RowList) (c : DbM α) : Prop :=
  Guarded (KeepsOrigins env whole posted marked start) (KeepsOrigins env whole posted marked start) c

theorem preserves_update {p : Row → Bool} {u : Row → Row}
    (hu : ∀ row, p row = true → identity (fromRow (u row)) = identity (fromRow row) ∧
      ((fromRow (u row)).read = true → (fromRow row).read = true ∨ marked (fromRow row).msg_id)) :
    Preserves env whole posted marked start (update env .messages (fun row => .ok (p row)) u) := by
  refine guarded_update_tracks Descends.take fun rows hrows row hrow => ?_
  obtain ⟨old, hold, rfl⟩ := List.mem_map.mp hrow
  split
  · next hp => exact (hrows old hold).change (hu old hp).1 (hu old hp).2
  · exact hrows old hold

theorem preserves_edit (msgId : Int64) (actorId : Int32) (content : Bytes) :
    Preserves env whole posted marked start (edit env msgId actorId content) := by
  refine (reads_origins ..).time.bind fun now => preserves_update fun row _ => ?_
  rw [fromRow_put_edited_at, fromRow_put_edited, fromRow_put_content]
  exact ⟨rfl, .inl⟩

theorem preserves_softDelete (msgId : Int64) (actorId : Int32) :
    Preserves env whole posted marked start (softDelete env msgId actorId) := by
  refine (reads_origins ..).time.bind fun now => preserves_update fun row _ => ?_
  rw [fromRow_put_deleted_at, fromRow_put_deleted, text, fromRow_put_content]
  exact ⟨rfl, .inl⟩

theorem preserves_addReaction (msgId : Int64) (actorId : Int32) (reaction : Bytes) :
    Preserves env whole posted marked start (addReaction env msgId actorId reaction) := by
  refine (guarded_pure false).ite (preserves_update fun row _ => ?_)
  unfold withReaction
  dsimp only
  split
  · exact ⟨rfl, .inl⟩
  · rw [fromRow_put_reactions]
    exact ⟨rfl, .inl⟩

theorem preserves_markDelivered (msgId : Int64) :
    Preserves env whole posted marked start (markDelivered env msgId) := by
  refine (preserves_update fun row _ => ?_).bind fun _ => guarded_pure ()
  rw [fromRow_put_delivered]
  exact ⟨rfl, .inl⟩

theorem preserves_offlineForUser (userId limit : Int32) :
    Preserves env whole posted marked start (offlineForUser env userId limit) :=
  ((reads_origins ..).select _ limit).bind fun _ =>
    (guarded_each fun _ => preserves_markDelivered _).bind fun _ => guarded_pure _

/-- Marking an id as read. -/
theorem preserves_markRead {msgId : Int64} (hmarked : marked msgId) (readerId : Int32) :
    Preserves env whole posted marked start (markRead env msgId readerId) :=
  preserves_update fun row hrow => by
    rw [fromRow_readBy]
    have hid : (fromRow row).msg_id = msgId := of_decide_eq_true hrow
    exact ⟨rfl, fun _ => .inr (hid ▸ hmarked)⟩

/-- Saving a message that is not read. -/
theorem preserves_save {message : Int64 → Int64 → StoredMessage}
    (hread : ∀ id now, (message id now).read = false)
    (hposted : ∀ id now, posted (message id now).from_id (message id now).group_id) :
    Preserves env whole posted marked start (do
      let id ← nextMessageId env
      let now ← time env
      insert env .messages (toRow (message id now))
      pure (message id now)) := by
  have hreads := reads_origins env whole posted marked start
  refine hreads.nextMessageId.bind fun id => hreads.time.bind fun now => ?_
  refine (guarded_insert_tracks Descends.take fun rows hrows row hrow => ?_).bind fun _ => guarded_pure _
  rcases List.mem_append.mp hrow with hrow | hrow
  · exact hrows row hrow
  · rw [List.mem_singleton.mp hrow, fromRow_toRow]
    refine .saved (hposted id now) fun hr => ?_
    rw [hread id now] at hr
    cases hr

end Origins

end MessageRepository

end LanChat
