import LanChat.Lib.Joined
import LanChat.Json.RoundTrip
import LanChat.Db.MessageHistory
import LanChat.Db.Tracks
import LanChat.Client.MessageStore

/-!
# The reactions to a message

The reactions are one text of entries `actorId:reaction`, which the client
splits at commas. A reaction whose entry occurs anywhere in the text is not
added, and a reaction may contain a comma. So what the client reads is what has
been added only if the entries are separate.
-/

namespace LanChat

open Lib Json

/-- `find` looks for a part of the text. -/
theorem contains_iff {needle text : Bytes} : contains needle text = true ↔ needle <:+: text := by
  induction text with
  | nil => simp [contains]
  | cons c text ih =>
    rw [List.infix_cons_iff, ← ih]
    simp [contains]

namespace MessageRepository

open Database

/-- The entry of a reaction, as `addReaction` encodes it. -/
def reactionEntry (call : Int32 × Bytes) : Bytes :=
  intText call.1.toInt64 ++ Ascii.colon :: call.2

/-- The rows that `addReaction` changes. -/
def isOpen (msgId : Int64) (row : Row) : Bool := hasMsgId msgId row && !rowBool row "deleted"

/-- Reactions to a message, in order: those for which `addReaction` returned
`true`, and the database. -/
def addReactions (env : Env) (msgId : Int64) :
    List (Int32 × Bytes) → Database → List (Int32 × Bytes) × Database
  | [], db => ([], db)
  | call :: calls, db =>
    let outcome := addReaction env msgId call.1 call.2 db
    let (added, db') := addReactions env msgId calls outcome.state
    match outcome.result with
    | .ok true => (call :: added, db')
    | _ => (added, db')

/-- The message is found in the table, and nobody has reacted to it. -/
structure Unreacted (env : Env) (msgId : Int64) (db : Database) : Prop where
  loads : (loadTable env .messages db).result = .ok ()
  found : ∃ row ∈ (loadTable env .messages db).state.content .messages, isOpen msgId row = true
  fresh : ∀ row ∈ db.content .messages, isOpen msgId row = true → (fromRow row).reactions = []

/-- What the client reads of the message is the entries of these reactions, each once. -/
def ReactionsRead (msgId : Int64) (added : List (Int32 × Bytes)) (db : Database) : Prop :=
  ∀ row ∈ db.content .messages, isOpen msgId row = true →
    (Client.splitCommas (fromRow row).reactions).Perm (added.map reactionEntry).dedup

/-! ## Entries -/

theorem reactionEntry_ne_nil (call : Int32 × Bytes) : reactionEntry call ≠ [] := by
  simp [reactionEntry]

theorem splitCommas_eq (text : Bytes) : Client.splitCommas text = entries Ascii.comma text := by
  unfold Client.splitCommas entries
  congr 1
  induction text with
  | nil => rfl
  | cons c text ih =>
    obtain ⟨part, parts, hparts⟩ := List.exists_cons_of_ne_nil (List.splitOn_ne_nil Ascii.comma text)
    rw [List.foldr_cons, ih, List.splitOn_cons_eq_if_modifyHead, hparts]
    simp

/-! ## One reaction -/

theorem fromRow_withReaction (encoded : Bytes) (row : Row) :
    fromRow (withReaction encoded row) =
      { fromRow row with reactions := addEntry Ascii.comma (fromRow row).reactions encoded } := by
  have hcurrent : rowString row "reactions" [] = (fromRow row).reactions := rfl
  unfold withReaction addEntry
  simp only [hcurrent, contains_iff]
  split
  · rfl
  · rw [fromRow_put_reactions]

theorem isOpen_withReaction (msgId : Int64) (encoded : Bytes) (row : Row) :
    isOpen msgId (withReaction encoded row) = isOpen msgId row := by
  have heq : ∀ row, isOpen msgId row = (decide ((fromRow row).msg_id = msgId) && !(fromRow row).deleted) :=
    fun _ => rfl
  rw [heq, heq, fromRow_withReaction]

/-- The message is in the table, and this is the text of its reactions. -/
def Reacted (msgId : Int64) (text : Bytes) (db : Database) : Prop :=
  ∃ rows, db.tables .messages = some rows ∧ (∃ row ∈ rows, isOpen msgId row = true) ∧
    ∀ row ∈ rows, isOpen msgId row = true → (fromRow row).reactions = text

theorem reacted_addReaction {env : Env} {msgId : Int64} {text : Bytes} {db : Database}
    {call : Int32 × Bytes} (hcall : call.2 ≠ []) (h : Reacted msgId text db) :
    (addReaction env msgId call.1 call.2 db).result = .ok true ∧
      Reacted msgId (addEntry Ascii.comma text (reactionEntry call))
        (addReaction env msgId call.1 call.2 db).state := by
  obtain ⟨rows, hmem, ⟨row, hrow, hopen⟩, htext⟩ := h
  have hrun : addReaction env msgId call.1 call.2 =
      update env .messages (fun row => .ok (isOpen msgId row)) (withReaction (reactionEntry call)) := by
    rw [addReaction, if_neg hcall]
    rfl
  have hresult := @result_update_of_cached env .messages db (isOpen msgId)
    (withReaction (reactionEntry call)) rows hmem
  rw [List.any_eq_true.mpr ⟨row, hrow, hopen⟩] at hresult
  obtain ⟨-, hrows⟩ := (yields_update (isOpen msgId) (withReaction (reactionEntry call)) db
    (.inl hmem)).2.1 true hresult
  rw [hrun]
  refine ⟨hresult, _, hrows, ⟨withReaction (reactionEntry call) row, ?_, ?_⟩, ?_⟩
  · exact List.mem_map.mpr ⟨row, hrow, by rw [if_pos hopen]⟩
  · rw [isOpen_withReaction]
    exact hopen
  · intro row' hrow' hopen'
    obtain ⟨old, hold, rfl⟩ := List.mem_map.mp hrow'
    cases hopened : isOpen msgId old with
    | true =>
      rw [if_pos rfl, fromRow_withReaction, htext old hold hopened]
    | false =>
      rw [if_neg (by simp [hopened]), hopened] at hopen'
      cases hopen'

/-! ## A run -/

theorem reacted_addReactions {env : Env} {msgId : Int64} {text : Bytes} {db : Database}
    {calls : List (Int32 × Bytes)} (hcalls : ∀ call ∈ calls, call.2 ≠ []) (h : Reacted msgId text db) :
    (addReactions env msgId calls db).1 = calls ∧
      Reacted msgId ((calls.map reactionEntry).foldl (addEntry Ascii.comma) text)
        (addReactions env msgId calls db).2 := by
  induction calls generalizing text db with
  | nil => exact ⟨rfl, h⟩
  | cons call calls ih =>
    obtain ⟨hresult, hreacted⟩ := @reacted_addReaction env _ _ _ _ (hcalls call List.mem_cons_self) h
    obtain ⟨hadded, hrest⟩ := ih (fun call hcall => hcalls call (List.mem_cons_of_mem _ hcall)) hreacted
    simp only [addReactions, hresult]
    exact ⟨congrArg (List.cons call) hadded, hrest⟩

/-- The first reaction loads the table. -/
theorem addReaction_of_load {env : Env} {msgId : Int64} {db : Database} (h : Unreacted env msgId db)
    {call : Int32 × Bytes} (hcall : call.2 ≠ []) :
    Reacted msgId [] (loadTable env .messages db).state ∧
      addReaction env msgId call.1 call.2 db =
        addReaction env msgId call.1 call.2 (loadTable env .messages db).state := by
  have hloaded := (@sat_loadTable env (fun _ => True) (fun _ => True) .messages db trivial).2.1 () h.loads
  obtain ⟨rows, hrows⟩ := Option.isSome_iff_exists.mp hloaded
  have hcontent := content_of_cached hrows
  obtain ⟨⟨n, hn⟩, -⟩ := content_loadTable env .messages db
  refine ⟨⟨rows, hrows, hcontent ▸ h.found, fun row hrow hopen => h.fresh row ?_ hopen⟩, ?_⟩
  · rw [hcontent] at hn
    rw [hn] at hrow
    exact List.mem_of_mem_take hrow
  · have hload : loadTable env .messages db = ⟨.ok (), (loadTable env .messages db).state, []⟩ := by
      rw [← h.loads, ← List.eq_nil_iff_forall_not_mem.mpr fun w _ => w.elim]
    rw [addReaction, if_neg hcall]
    unfold update
    rw [Cmd.bind_of_run _ hload, Cmd.bind_of_run _ (loadTable_of_cached hrows)]

/-- What a client reads of a message is what has been added, each reaction once,
exactly if no reaction contains a comma and none is new whose entry occurs in an
entry before it. -/
theorem reactions_read_iff {env : Env} {msgId : Int64} {db : Database} {calls : List (Int32 × Bytes)}
    (hdb : Unreacted env msgId db) (hcalls : ∀ call ∈ calls, call.2 ≠ []) :
    ReactionsRead msgId (addReactions env msgId calls db).1 (addReactions env msgId calls db).2 ↔
      Separate Ascii.comma (calls.map reactionEntry) := by
  cases calls with
  | nil =>
    refine iff_of_true (fun row hrow hopen => ?_) separate_nil
    rw [hdb.fresh row hrow hopen]
    exact List.Perm.nil
  | cons call rest =>
    obtain ⟨hreacted, hrun⟩ := addReaction_of_load hdb (hcalls call List.mem_cons_self)
    have hagain : addReactions env msgId (call :: rest) db =
        addReactions env msgId (call :: rest) (loadTable env .messages db).state := by
      simp only [addReactions, hrun]
    obtain ⟨hadded, rows, hrows, ⟨row, hrow, hopen⟩, htext⟩ := @reacted_addReactions env _ _ _ _ hcalls hreacted
    rw [hagain, hadded, ← entries_joined_iff (List.forall_mem_map.mpr fun call _ => reactionEntry_ne_nil call)]
    unfold ReactionsRead
    rw [content_of_cached hrows]
    constructor
    · intro hread
      have hentries := hread row hrow hopen
      rwa [htext row hrow hopen, splitCommas_eq] at hentries
    · intro hentries row hrow hopen
      rwa [htext row hrow hopen, splitCommas_eq]

/-- The message `hi` of user 1 to user 2. -/
def hi : StoredMessage := newMessage 1 1 2 0 (lit "hi") [] 0 true

/-- A database in which it has been saved. -/
def posted : Database :=
  (savePrivate .ideal 1 2 (lit "hi") [] true (startUp .ideal (connect .empty)).state).state

theorem unreacted_posted : Unreacted .ideal 1 posted := by
  have hmem : posted.tables .messages = some [toRow hi] := rfl
  have hload := @loadTable_of_cached .ideal _ _ _ hmem
  refine ⟨by rw [hload], ?_, fun row hrow _ => ?_⟩
  · rw [hload, content_of_cached hmem]
    exact ⟨toRow hi, List.mem_singleton_self _, by decide +kernel⟩
  · rw [content_of_cached hmem] at hrow
    rw [List.mem_singleton.mp hrow, fromRow_toRow]
    rfl

/-- Two users react to a message, the first of them twice. -/
theorem reactions_read_iff_two :
    ReactionsRead 1 (addReactions .ideal 1 [(1, lit "up"), (2, lit "down"), (1, lit "up")] posted).1
      (addReactions .ideal 1 [(1, lit "up"), (2, lit "down"), (1, lit "up")] posted).2 :=
  (reactions_read_iff unreacted_posted (by decide +kernel)).mpr (by decide +kernel)

/-- The reaction of user 1 is swallowed by the same one of user 11. -/
theorem reaction_swallowed : ¬∀ (env : Env) (msgId : Int64) (db : Database) (calls : List (Int32 × Bytes)),
    Unreacted env msgId db → (∀ call ∈ calls, call.2 ≠ []) →
      ReactionsRead msgId (addReactions env msgId calls db).1 (addReactions env msgId calls db).2 := by
  intro h
  have hread := h .ideal 1 posted [(11, lit "up"), (1, lit "up")] unreacted_posted (by decide +kernel)
  have hmem : (addReactions .ideal 1 [(11, lit "up"), (1, lit "up")] posted).2.tables .messages =
      some [toRow { hi with reactions := lit "11:up" }] := rfl
  unfold ReactionsRead at hread
  rw [content_of_cached hmem] at hread
  have hentries := hread _ (List.mem_singleton_self _) (by decide +kernel)
  rw [fromRow_toRow] at hentries
  exact absurd hentries.length_eq (by decide +kernel)

end MessageRepository

end LanChat
