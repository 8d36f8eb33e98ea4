import LanChat.Db.Tracks

/-!
# The history of a message

What the operations of the message repository do to the rows of the table: a
message keeps its place and its identity, its text changes only by its author,
and never after it has been deleted (`Follows`, `Retains`).
-/

namespace LanChat

open Lib Json

namespace MessageRepository

open Database

variable {env : Env}

/-- What stays the same of a message. -/
def identity (m : StoredMessage) : Int64 × Int32 × Int32 × Int32 × Bytes × Int64 :=
  (m.msg_id, m.from_id, m.to_id, m.group_id, m.content_type, m.timestamp)

/-- What its author may change. -/
def body (m : StoredMessage) : Bytes × Bool × Bool := (m.content, m.edited, m.deleted)

/-- What a message may become. `writer` is the user who is editing or deleting a
message, if there is one. -/
structure Follows (writer : Option Int32) (m m' : StoredMessage) : Prop where
  identity : identity m' = identity m
  author : body m' ≠ body m → writer = some m.from_id
  final : m.deleted = true → body m' = body m

/-- What holds of a message for good: its identity and, once it is deleted, its text. -/
structure Lasts (m m' : StoredMessage) : Prop where
  identity : identity m' = identity m
  final : m.deleted = true → body m' = body m

/-- The first rows have stayed in their places and have become what `R` says; if
the table is `whole`, all of them have. -/
def Retains (whole : Prop) (R : StoredMessage → StoredMessage → Prop) (rows rows' : RowList) : Prop :=
  ∃ n, (whole → rows.length ≤ n) ∧ ∀ i < n, ∀ row, rows[i]? = some row →
    ∃ row', rows'[i]? = some row' ∧ R (fromRow row) (fromRow row')

/-- The text of a deleted message is empty. -/
def Emptied (row : Row) : Prop := (fromRow row).deleted = true → (fromRow row).content = []

/-- Two rows do not share a positive id. -/
def Apart (row row' : Row) : Prop :=
  (fromRow row).msg_id = (fromRow row').msg_id → (fromRow row).msg_id ≤ 0

instance : Std.Symm Apart := ⟨fun _ _ h heq => heq ▸ h heq.symm⟩

/-- The rows of a table of messages: no text of a deleted message is left, and a
positive id is the id of one message. -/
structure Sound (rows : RowList) : Prop where
  emptied : ∀ row ∈ rows, Emptied row
  apart : rows.Pairwise Apart

section Evolving

variable {whole whole' : Prop} {R S T : StoredMessage → StoredMessage → Prop}
  {writer : Option Int32} {m m₁ m₂ : StoredMessage} {rows rows₁ rows₂ : RowList}

theorem Follows.refl (writer : Option Int32) (m : StoredMessage) : Follows writer m m :=
  ⟨rfl, fun h => absurd rfl h, fun _ => rfl⟩

theorem Follows.lasts (h : Follows writer m m₁) : Lasts m m₁ := ⟨h.identity, h.final⟩

theorem Lasts.refl (m : StoredMessage) : Lasts m m := ⟨rfl, fun _ => rfl⟩

theorem Lasts.from_id (h : Lasts m m₁) : m₁.from_id = m.from_id := congrArg (fun t => t.2.1) h.identity

theorem Lasts.msg_id (h : Lasts m m₁) : m₁.msg_id = m.msg_id := congrArg (fun t => t.1) h.identity

theorem Lasts.deleted (h : Lasts m m₁) (hm : m.deleted = true) : m₁.deleted = true :=
  (congrArg (fun t => t.2.2) (h.final hm)).trans hm

theorem Lasts.trans (h : Lasts m m₁) (h' : Lasts m₁ m₂) : Lasts m m₂ where
  identity := h'.identity.trans h.identity
  final hm := (h'.final (h.deleted hm)).trans (h.final hm)

theorem Follows.trans (h : Follows writer m m₁) (h' : Follows writer m₁ m₂) : Follows writer m m₂ where
  identity := (h.lasts.trans h'.lasts).identity
  author hne := by
    rcases eq_or_ne (body m₁) (body m) with heq | hne₁
    · rw [← h.lasts.from_id]
      exact h'.author (heq ▸ hne)
    · exact h.author hne₁
  final := (h.lasts.trans h'.lasts).final

theorem retains_refl (whole : Prop) (hR : ∀ m, R m m) (rows : RowList) : Retains whole R rows rows :=
  ⟨rows.length, fun _ => Nat.le_refl _, fun _ _ row hrow => ⟨row, hrow, hR _⟩⟩

theorem Retains.trans (h : Retains whole R rows rows₁) (h' : Retains whole' S rows₁ rows₂)
    (hwhole : whole → whole') (hT : ∀ {m m₁ m₂}, R m m₁ → S m₁ m₂ → T m m₂) :
    Retains whole T rows rows₂ := by
  obtain ⟨n, hn, hrows⟩ := h
  obtain ⟨k, hk, hrows'⟩ := h'
  refine ⟨min n k, fun hw => Nat.le_min.mpr ⟨hn hw, ?_⟩, fun i hi row hrow => ?_⟩
  · by_contra hlt
    have hlt := Nat.not_le.mp hlt
    obtain ⟨row₁, hrow₁, -⟩ := hrows k (Nat.lt_of_lt_of_le hlt (hn hw)) _ (List.getElem?_eq_getElem hlt)
    exact absurd (List.getElem?_eq_some_iff.mp hrow₁).1 (Nat.not_lt.mpr (hk (hwhole hw)))
  · obtain ⟨hin, hik⟩ := Nat.lt_min.mp hi
    obtain ⟨row₁, hrow₁, hR⟩ := hrows i hin row hrow
    obtain ⟨row₂, hrow₂, hS⟩ := hrows' i hik row₁ hrow₁
    exact ⟨row₂, hrow₂, hT hR hS⟩

theorem retains_append (hR : ∀ m, R m m) (rows added : RowList) :
    Retains True R rows (rows ++ added) :=
  ⟨rows.length, fun _ => Nat.le_refl _, fun _ hi row hrow =>
    ⟨row, by rw [List.getElem?_append_left hi, hrow], hR _⟩⟩

theorem retains_map {f : Row → Row} (h : ∀ row, R (fromRow row) (fromRow (f row))) (rows : RowList) :
    Retains True R rows (rows.map f) :=
  ⟨rows.length, fun _ => Nat.le_refl _, fun _ _ row hrow =>
    ⟨f row, by rw [List.getElem?_map, hrow]; rfl, h row⟩⟩

/-- A part of the rows is lost. -/
theorem retains_take (hR : ∀ m, R m m) (rows : RowList) (n : Nat) :
    Retains False R rows (rows.take n) :=
  ⟨n, False.elim, fun _ hi row hrow => ⟨row, by rw [List.getElem?_take_of_lt hi, hrow], hR _⟩⟩

theorem sound_nil : Sound [] := ⟨nofun, .nil⟩

theorem Sound.take (h : Sound rows) (n : Nat) : Sound (rows.take n) :=
  ⟨fun row hrow => h.emptied row (List.mem_of_mem_take hrow),
    h.apart.sublist (List.take_sublist n rows)⟩

theorem Sound.map {f : Row → Row} (h : Sound rows)
    (hid : ∀ row ∈ rows, (fromRow (f row)).msg_id = (fromRow row).msg_id)
    (hf : ∀ row ∈ rows, Emptied (f row)) : Sound (rows.map f) where
  emptied row hrow := by
    obtain ⟨row, hmem, rfl⟩ := List.mem_map.mp hrow
    exact hf row hmem
  apart := List.pairwise_map.mpr <| h.apart.imp_of_mem fun hr hr' hapart => by
    unfold Apart at hapart ⊢
    rw [hid _ hr, hid _ hr']
    exact hapart

/-- Two rows with one positive id are the same. -/
theorem Sound.eq_of_msg_id (h : Sound rows) {row row' : Row} (hrow : row ∈ rows) (hrow' : row' ∈ rows)
    (hpos : 0 < (fromRow row).msg_id) (hid : (fromRow row).msg_id = (fromRow row').msg_id) :
    row = row' := by
  by_contra hne
  have hle := h.apart.forall hrow hrow' hne hid
  exact absurd hpos (Int64.not_lt.mpr hle)

end Evolving

/-! ## Rows that the repository writes -/

section Rows

variable {row : Row}

theorem fromRow_put_content (c : Bytes) :
    fromRow (row.put (lit "content") (.str c)) = { fromRow row with content := c } := by
  simp [fromRow, rowInt, rowInt64, rowString, rowBool]

theorem fromRow_put_edited (b : Bool) :
    fromRow (row.put (lit "edited") (.bool b)) = { fromRow row with edited := b } := by
  simp [fromRow, rowInt, rowInt64, rowString, rowBool]

theorem fromRow_put_deleted (b : Bool) :
    fromRow (row.put (lit "deleted") (.bool b)) = { fromRow row with deleted := b } := by
  simp [fromRow, rowInt, rowInt64, rowString, rowBool]

theorem fromRow_put_edited_at (t : Int64) :
    fromRow (row.put (lit "edited_at") (.int t)) = { fromRow row with edited_at := t } := by
  simp [fromRow, rowInt, rowInt64, rowString, rowBool, Value.isNumber]

theorem fromRow_put_deleted_at (t : Int64) :
    fromRow (row.put (lit "deleted_at") (.int t)) = { fromRow row with deleted_at := t } := by
  simp [fromRow, rowInt, rowInt64, rowString, rowBool, Value.isNumber]

theorem fromRow_put_delivered (b : Bool) :
    fromRow (row.put (lit "delivered") (.bool b)) = { fromRow row with delivered := b } := by
  simp [fromRow, rowInt, rowInt64, rowString, rowBool]

theorem fromRow_put_reactions (s : Bytes) :
    fromRow (row.put (lit "reactions") (.str s)) = { fromRow row with reactions := s } := by
  simp [fromRow, rowInt, rowInt64, rowString, rowBool]

theorem fromRow_readBy (readerId : Int32) : fromRow (readBy readerId row) = { fromRow row with read := true } := by
  simp [fromRow, readBy, rowInt, rowInt64, rowString, rowBool]

theorem fromRow_toRow (m : StoredMessage) : fromRow (toRow m) = m := by
  simp [fromRow, toRow, rowInt, rowInt64, rowString, rowBool, find?_object, Value.isNumber, ofInt32]

end Rows

/-! ## The ids of new messages -/

theorem le_max_int64 (a b : Int64) : a ≤ max a b ∧ b ≤ max a b := by
  rcases em (a ≤ b) with hle | hle
  · rw [show max a b = b from if_pos hle]
    exact ⟨hle, Int64.le_refl b⟩
  · rw [show max a b = a from if_neg hle]
    exact ⟨Int64.le_refl a, (Int64.le_total b a).resolve_right hle⟩

theorem le_maxMessageId {rows : RowList} {row : Row} (h : row ∈ rows) :
    (fromRow row).msg_id ≤ maxMessageId rows := by
  have hfold : ∀ (rows : RowList) (start : Int64),
      start ≤ rows.foldl (fun maxId row => max maxId (rowInt64 row "msg_id")) start ∧
        ∀ row ∈ rows, rowInt64 row "msg_id" ≤
          rows.foldl (fun maxId row => max maxId (rowInt64 row "msg_id")) start := by
    intro rows
    induction rows with
    | nil => exact fun start => ⟨Int64.le_refl start, nofun⟩
    | cons head rest ih =>
      intro start
      obtain ⟨hleft, hright⟩ := le_max_int64 start (rowInt64 head "msg_id")
      obtain ⟨hstart, hrest⟩ := ih (max start (rowInt64 head "msg_id"))
      refine ⟨Int64.le_trans hleft hstart, fun row hrow => ?_⟩
      rcases List.mem_cons.mp hrow with rfl | hrow
      · exact Int64.le_trans hright hstart
      · exact hrest row hrow
  exact (hfold rows 0).2 row h

/-- The id after the largest is larger, unless it wraps around to a negative one. -/
theorem le_zero_of_eq_next {id maxId : Int64} (hle : id ≤ maxId) (heq : id = maxId + 1) : id ≤ 0 := by
  rw [Int64.le_iff_toInt_le] at hle ⊢
  have hnext := congrArg Int64.toInt heq
  have hone : (1 : Int64).toInt = 1 := rfl
  have hzero : (0 : Int64).toInt = 0 := rfl
  have hlow := maxId.le_toInt
  have hhigh := maxId.toInt_lt
  rw [Int64.toInt_add, hone, Int.bmod] at hnext
  rw [hzero]
  omega

/-! ## What the operations keep -/

/-- The rows are sound, and they are what rows of `start` have become. -/
structure Kept (whole : Prop) (writer : Option Int32) (start rows : RowList) : Prop where
  sound : Sound rows
  retained : Retains whole (Follows writer) start rows

section Operations

variable {whole : Prop} {writer : Option Int32} {start rows rows' : RowList}

theorem Kept.of_sound (h : Sound start) : Kept whole writer start start :=
  ⟨h, retains_refl whole (.refl writer) start⟩

theorem Kept.trans (h : Kept whole writer start rows) (hsound : Sound rows')
    (hretains : Retains True (Follows writer) rows rows') : Kept whole writer start rows' :=
  ⟨hsound, h.retained.trans hretains (fun _ => trivial) Follows.trans⟩

/-- A part of the rows may be lost. -/
theorem Kept.take (hpart : ¬whole) (rows : RowList) (n : Nat) (h : Kept whole writer start rows) :
    Kept whole writer start (rows.take n) :=
  ⟨h.sound.take n, h.retained.trans (retains_take (.refl writer) rows n) hpart Follows.trans⟩

/-- The database keeps the history of its messages. -/
abbrev KeepsHistory (env : Env) (whole : Prop) (writer : Option Int32) (start : RowList) :
    Database → Prop :=
  Tracks env whole .messages (Kept whole writer start)

theorem reads_history (env : Env) (whole : Prop) (writer : Option Int32) (start : RowList) :
    Reads env (fun _ _ => True) (KeepsHistory env whole writer start)
      (KeepsHistory env whole writer start) :=
  reads_tracks Kept.take

/-- What an update has to do with each row that it selects. -/
theorem guarded_update {p : Row → Bool} {u : Row → Row}
    (hu : ∀ row, p row = true → Follows writer (fromRow row) (fromRow (u row)) ∧
      (Emptied row → Emptied (u row))) :
    Guarded (KeepsHistory env whole writer start) (KeepsHistory env whole writer start)
      (update env .messages (fun row => .ok (p row)) u) := by
  refine guarded_update_tracks Kept.take fun rows hrows => ?_
  have hfollows : ∀ row, Follows writer (fromRow row) (fromRow (if p row then u row else row)) := by
    intro row
    split
    · next h => exact (hu row h).1
    · exact .refl writer _
  refine hrows.trans (hrows.sound.map (fun row _ => (hfollows row).lasts.msg_id) fun row hrow => ?_)
    (retains_map hfollows rows)
  split
  · next h => exact (hu row h).2 (hrows.sound.emptied row hrow)
  · exact hrows.sound.emptied row hrow

theorem guarded_edit (msgId : Int64) (actorId : Int32) (content : Bytes) :
    Guarded (KeepsHistory env whole (some actorId) start) (KeepsHistory env whole (some actorId) start)
      (edit env msgId actorId content) := by
  refine (reads_history ..).time.bind fun now => guarded_update fun row hrow => ?_
  simp only [isOwn, Bool.and_eq_true, decide_eq_true_eq, Bool.not_eq_true'] at hrow
  obtain ⟨⟨⟨-, hauthor⟩, hdeleted⟩, -⟩ := hrow
  have hdeleted : (fromRow row).deleted = false := hdeleted
  unfold Emptied
  rw [fromRow_put_edited_at, fromRow_put_edited, fromRow_put_content]
  refine ⟨⟨rfl, fun _ => congrArg some hauthor.symm, fun h => ?_⟩, fun _ h => ?_⟩
  · rw [hdeleted] at h
    cases h
  · rw [hdeleted] at h
    cases h

theorem guarded_softDelete (msgId : Int64) (actorId : Int32) :
    Guarded (KeepsHistory env whole (some actorId) start) (KeepsHistory env whole (some actorId) start)
      (softDelete env msgId actorId) := by
  refine (reads_history ..).time.bind fun now => guarded_update fun row hrow => ?_
  simp only [isOwn, Bool.and_eq_true, decide_eq_true_eq, Bool.not_eq_true'] at hrow
  obtain ⟨⟨-, hauthor⟩, hdeleted⟩ := hrow
  have hdeleted : (fromRow row).deleted = false := hdeleted
  unfold Emptied
  rw [fromRow_put_deleted_at, fromRow_put_deleted, text, fromRow_put_content]
  refine ⟨⟨rfl, fun _ => congrArg some hauthor.symm, fun h => ?_⟩, fun _ _ => rfl⟩
  rw [hdeleted] at h
  cases h

theorem guarded_addReaction (msgId : Int64) (actorId : Int32) (reaction : Bytes) :
    Guarded (KeepsHistory env whole writer start) (KeepsHistory env whole writer start)
      (addReaction env msgId actorId reaction) := by
  refine (guarded_pure false).ite (guarded_update fun row _ => ?_)
  unfold withReaction
  dsimp only
  split
  · exact ⟨.refl writer _, id⟩
  · unfold Emptied
    rw [fromRow_put_reactions]
    exact ⟨⟨rfl, fun h => absurd rfl h, fun _ => rfl⟩, id⟩

theorem guarded_markRead (msgId : Int64) (readerId : Int32) :
    Guarded (KeepsHistory env whole writer start) (KeepsHistory env whole writer start)
      (markRead env msgId readerId) :=
  guarded_update fun row _ => by
    unfold Emptied
    rw [fromRow_readBy]
    exact ⟨⟨rfl, fun h => absurd rfl h, fun _ => rfl⟩, id⟩

theorem guarded_markDelivered (msgId : Int64) :
    Guarded (KeepsHistory env whole writer start) (KeepsHistory env whole writer start)
      (markDelivered env msgId) := by
  refine (guarded_update fun row _ => ?_).bind fun _ => guarded_pure ()
  unfold Emptied
  rw [fromRow_put_delivered]
  exact ⟨⟨rfl, fun h => absurd rfl h, fun _ => rfl⟩, id⟩

theorem guarded_offlineForUser (userId limit : Int32) :
    Guarded (KeepsHistory env whole writer start) (KeepsHistory env whole writer start)
      (offlineForUser env userId limit) :=
  ((reads_history ..).select _ limit).bind fun _ =>
    (guarded_each fun _ => guarded_markDelivered _).bind fun _ => guarded_pure _

/-- A message with the next id, which is not deleted. -/
theorem Kept.append (h : Kept whole writer start rows) {m : StoredMessage}
    (hid : m.msg_id = maxMessageId rows + 1) (hdeleted : m.deleted = false) :
    Kept whole writer start (rows ++ [toRow m]) := by
  refine h.trans ⟨fun row hrow => ?_, ?_⟩ (retains_append (.refl writer) _ _)
  · rcases List.mem_append.mp hrow with hrow | hrow
    · exact h.sound.emptied row hrow
    · rw [List.mem_singleton.mp hrow, Emptied, fromRow_toRow, hdeleted]
      exact nofun
  · refine List.pairwise_append.mpr ⟨h.sound.apart, List.pairwise_singleton _ _, fun row hrow row' hrow' => ?_⟩
    rw [List.mem_singleton.mp hrow']
    intro heq
    rw [fromRow_toRow, hid] at heq
    exact le_zero_of_eq_next (le_maxMessageId hrow) heq

/-- A message is saved with the next id. -/
theorem guarded_save {message : Int64 → Int64 → StoredMessage}
    (hmessage : ∀ id now, (message id now).msg_id = id ∧ (message id now).deleted = false) :
    Guarded (KeepsHistory env whole writer start) (KeepsHistory env whole writer start) (do
      let id ← nextMessageId env
      let now ← time env
      insert env .messages (toRow (message id now))
      pure (message id now)) := by
  refine Cmd.Sat.bind (R := fun id db => KeepsHistory env whole writer start db ∧
    ∃ rows, db.tables .messages = some rows ∧ id = maxMessageId rows + 1) ?_ fun id => ?_
  · refine Cmd.Sat.bind (R := fun all db => KeepsHistory env whole writer start db ∧
      db.tables .messages = some all) ?_ fun all => Cmd.sat_pure fun db hdb => ⟨hdb.1, all, hdb.2, rfl⟩
    refine (sat_load_tracks Kept.take).bind fun _ => Cmd.sat_asks fun db hdb => ⟨hdb.1, ?_⟩
    obtain ⟨rows, hrows⟩ := Option.isSome_iff_exists.mp hdb.2
    rw [hrows]
    rfl
  refine Cmd.Sat.bind (R := fun _ db => KeepsHistory env whole writer start db ∧
    ∃ rows, db.tables .messages = some rows ∧ id = maxMessageId rows + 1) ?_ fun now => ?_
  · rintro db ⟨hdb, hrows⟩
    exact ⟨nofun, fun _ _ => ⟨⟨hdb.settled, hdb.rows, hdb.loads⟩, hrows⟩, nofun⟩
  · obtain ⟨hid, hdeleted⟩ := hmessage id now
    exact (sat_insert_tracks fun rows hrows hnext => hrows.append (hid.trans hnext) hdeleted).bind
      fun _ => guarded_pure _

end Operations

/-! ## Deleted messages -/

/-- The command does not return `true`, and returns `false` when the messages are in memory. -/
def Refused (c : DbM Bool) (db : Database) : Prop :=
  (c db).result ≠ .ok true ∧ ((db.tables .messages).isSome → (c db).result = .ok false)

section Refused

variable {db : Database} {msgId : Int64} {row : Row}

theorem refused_update {p : Row → Bool} {u : Row → Row} (h : ∀ row ∈ db.content .messages, p row = false) :
    Refused (update env .messages (fun row => .ok (p row)) u) db := by
  constructor
  · intro htrue
    obtain ⟨row, hrow, hp⟩ := selected_of_update htrue
    rw [h row hrow] at hp
    cases hp
  · intro hmem
    obtain ⟨rows, hrows⟩ := Option.isSome_iff_exists.mp hmem
    rw [content_of_cached hrows] at h
    rw [result_update_of_cached hrows, List.any_eq_false.mpr fun row hrow => by rw [h row hrow]; nofun]

theorem refused_after_time {f : Int64 → DbM Bool} (h : ∀ now readings, Refused (f now) { db with readings := readings }) :
    Refused (time env >>= f) db := by
  obtain ⟨htrue, hfalse⟩ := h (env.time db.readings) (db.readings + 1)
  unfold Refused
  rw [Cmd.bind_of_run _ (run_time db)]
  exact ⟨htrue, hfalse⟩

/-- No row is selected that is not deleted. -/
theorem Sound.unselected (h : Sound (db.content .messages)) (hrow : row ∈ db.content .messages)
    (hdeleted : (fromRow row).deleted = true) (hid : (fromRow row).msg_id = msgId) (hpos : 0 < msgId)
    {row' : Row} (hrow' : row' ∈ db.content .messages) :
    (hasMsgId msgId row' && !rowBool row' "deleted") = false := by
  rw [Bool.and_eq_false_imp]
  intro hsame
  have hsame : (fromRow row').msg_id = msgId := of_decide_eq_true hsame
  rw [← h.eq_of_msg_id hrow hrow' (hid ▸ hpos) (hid.trans hsame.symm)]
  rw [show rowBool row "deleted" = true from hdeleted]
  rfl

variable (h : Sound (db.content .messages)) (hrow : row ∈ db.content .messages)
  (hdeleted : (fromRow row).deleted = true) (hid : (fromRow row).msg_id = msgId) (hpos : 0 < msgId)

include h hrow hdeleted hid hpos

theorem isOwn_eq_false {row' : Row} (hrow' : row' ∈ db.content .messages) (actorId : Int32) :
    isOwn msgId actorId row' = false := by
  have hnone := h.unselected hrow hdeleted hid hpos hrow'
  rw [Bool.and_eq_false_imp] at hnone
  simp only [isOwn, Bool.and_eq_false_imp, Bool.and_eq_true]
  exact fun hsame => hnone hsame.1

theorem refused_edit (actorId : Int32) (content : Bytes) :
    Refused (edit env msgId actorId content) db :=
  refused_after_time fun _ _ => refused_update fun _ hrow' => by
    rw [isOwn_eq_false h hrow hdeleted hid hpos hrow', Bool.false_and]

theorem refused_softDelete (actorId : Int32) : Refused (softDelete env msgId actorId) db :=
  refused_after_time fun _ _ => refused_update fun _ hrow' =>
    isOwn_eq_false h hrow hdeleted hid hpos hrow' actorId

theorem refused_addReaction (actorId : Int32) (reaction : Bytes) :
    Refused (addReaction env msgId actorId reaction) db := by
  unfold addReaction
  split
  · exact ⟨nofun, fun _ => rfl⟩
  · exact refused_update fun _ hrow' => h.unselected hrow hdeleted hid hpos hrow'

end Refused

end MessageRepository

end LanChat
