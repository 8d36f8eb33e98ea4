import LanChat.Lib.Newest
import LanChat.Db.FreshIds

/-!
# Histories

The history of a conversation is its newest messages in the order in which they
were saved. `trimToLimit` sorts by the time in seconds and by nothing else, and
the sort need not be stable: among messages of one second the order is lost,
and with it which of them are cut off (`history_newest_iff`).
-/

namespace LanChat

open Lib Json

/-- The clock never goes backwards. -/
def Env.Forward (env : Env) : Prop := ∀ i j, i ≤ j → env.time i ≤ env.time j

/-- A sort by time: one of the orders that `std::sort` may produce, for each list. -/
structure TimeSort where
  sort : List StoredMessage → List StoredMessage
  perm : ∀ messages, (sort messages).Perm messages
  sorted : ∀ messages, (sort messages).Pairwise fun a b => a.timestamp ≤ b.timestamp

/-- A sort that gives one list in one of its orders. -/
def TimeSort.giving (messages sorted : List StoredMessage) (hperm : sorted.Perm messages)
    (hsorted : sorted.Pairwise fun a b => a.timestamp ≤ b.timestamp) : TimeSort where
  sort other := if other = messages then sorted else Env.ideal.sort other
  perm other := by
    split
    · next h => rwa [h]
    · exact Env.ideal.sort_perm other
  sorted other := by
    split
    · exact hsorted
    · exact Env.ideal.sort_sorted other

/-- A sort that turns messages of one second around. -/
def TimeSort.backwards : TimeSort where
  sort messages := Env.ideal.sort messages.reverse
  perm messages := (Env.ideal.sort_perm messages.reverse).trans (List.reverse_perm messages)
  sorted messages := Env.ideal.sort_sorted messages.reverse

/-- The same environment with another sort. -/
def Env.sorting (env : Env) (t : TimeSort) : Env :=
  { env with sort := t.sort, sort_perm := t.perm, sort_sorted := t.sorted }

namespace Database

section Readings

variable {env : Env} {name : TableName}

theorem leaves_readings_exec (statement : Sqlite → Option Sqlite) :
    Cmd.Leaves (fun db => db.readings) (exec env statement) := fun db => by
  obtain ⟨s, -, hrun⟩ | hrun := @exec_cases env statement db
  · rw [hrun]
  · rw [hrun]

theorem leaves_readings_saveTable : Cmd.Leaves (fun db => db.readings) (saveTable env name) := by
  have hexec : ∀ statement, Cmd.Leaves (fun db : Database => db.readings) (exec env statement) :=
    leaves_readings_exec
  refine Cmd.leaves_bind (Cmd.leaves_asks _) fun cached => ?_
  cases cached with
  | none => exact Cmd.leaves_pure ()
  | some rows =>
    refine Cmd.leaves_bind (hexec _) fun _ => Cmd.leaves_bind (hexec _) fun _ =>
      Cmd.leaves_ite ?_ (Cmd.leaves_bind (hexec _) fun _ => Cmd.leaves_pure ())
    refine Cmd.leaves_bind ?_ fun _ => Cmd.leaves_bind (hexec _) fun _ => Cmd.leaves_pure ()
    exact Cmd.leaves_bind (fun _ => rfl) fun _ => Cmd.leaves_when <| Cmd.leaves_each fun _ =>
      Cmd.leaves_bind (hexec _) fun _ => Cmd.leaves_pure ()

theorem leaves_readings_insert (row : Row) : Cmd.Leaves (fun db => db.readings) (insert env name row) :=
  Cmd.leaves_bind (leaves_readings_loadTable env name) fun _ => Cmd.leaves_bind (Cmd.leaves_asks _) fun _ =>
    Cmd.leaves_bind (fun _ => rfl) fun _ => leaves_readings_saveTable

theorem leaves_readings_update (p : Row → Except Exn Bool) (u : Row → Row) :
    Cmd.Leaves (fun db => db.readings) (update env name p u) :=
  Cmd.leaves_bind (leaves_readings_loadTable env name) fun _ => Cmd.leaves_bind (Cmd.leaves_asks _) fun _ =>
    Cmd.leaves_bind (fun _ => rfl) fun _ => Cmd.leaves_bind (Cmd.leaves_ofExcept _) fun _ =>
      Cmd.leaves_bind leaves_readings_saveTable fun _ => Cmd.leaves_pure _

theorem leaves_readings_query (p : Row → Except Exn Bool) :
    Cmd.Leaves (fun db => db.readings) (query env name p) :=
  Cmd.leaves_bind (leaves_readings_loadTable env name) fun _ => Cmd.leaves_bind (Cmd.leaves_asks _) fun _ =>
    Cmd.leaves_ofExcept _

theorem leaves_readings_queryAll : Cmd.Leaves (fun db => db.readings) (queryAll env name) :=
  Cmd.leaves_bind (leaves_readings_loadTable env name) fun _ => Cmd.leaves_asks _

/-- What an operation that leaves the clock alone yields, and where the clock is. -/
theorem Yields.frame {α : Type} {P : Database → Prop} {c : DbM α} {Q : α → Database → Prop} {k : Nat}
    (h : Yields P c Q) (hc : Cmd.Leaves (fun db => db.readings) c) :
    Yields (fun db => P db ∧ db.readings = k) c fun a db => Q a db ∧ db.readings = k :=
  fun db hdb => by
    obtain ⟨hout, hok, hthrow⟩ := h db hdb.1
    exact ⟨hout, fun a ha => ⟨hok a ha, (hc db).trans hdb.2⟩, hthrow⟩

theorem yields_time_at {P : Database → Prop} {k : Nat} (hP : ∀ db, P db → P db.tick) :
    Yields (fun db => P db ∧ db.readings = k) (time env) fun now db =>
      now = env.time k ∧ P db ∧ db.readings = k + 1 := by
  rintro db ⟨hdb, rfl⟩
  exact ⟨nofun, fun now hnow => ⟨(Except.ok.inj hnow).symm, hP db hdb, rfl⟩, nofun⟩

end Readings

end Database

namespace MessageRepository

open Database

/-! ## What a call does to the rows -/

/-- What a call does to the rows of the table, and the messages that it
returns. `now` is what the clock says when the call begins. -/
inductive Turn (env : Env) (now : Int64) (rows : RowList) :
    Call → List StoredMessage → RowList → Prop
  | save {call : Call} {m : StoredMessage} (hsaves : call.saves = true)
      (hid : m.msg_id = maxMessageId rows + 1) (htime : m.timestamp = now)
      (hto : ∀ u, isOffline u (toRow m) = true → call.addressee = some u) :
      Turn env now rows call [m] (rows ++ [toRow m])
  | change {call : Call} {f : Row → Row} (hsaves : call.saves = false)
      (hcollects : ∀ userId limit, call ≠ .offlineForUser userId limit)
      (hsame : ∀ row, identity (fromRow (f row)) = identity (fromRow row))
      (hdelivered : ∀ row, (fromRow (f row)).delivered = (fromRow row).delivered) :
      Turn env now rows call [] (rows.map f)
  | collect (userId limit : Int32) {messages : List StoredMessage}
      (hmessages : messages = trimToLimit env ((rows.filter (isOffline userId)).map fromRow) limit) :
      Turn env now rows (.offlineForUser userId limit) messages (rows.map (delivered messages))

section Turns

variable {env : Env} {rows : RowList} {k : Nat} {call : Call}

/-- What a call leaves: its turn, and the clock not before the call. -/
def Leaving (env : Env) (rows : RowList) (k : Nat) (call : Call) (messages : List StoredMessage)
    (db : Database) : Prop :=
  k ≤ db.readings ∧ ∃ rows', db.Lists .messages rows' ∧ Turn env (env.time k) rows call messages rows'

theorem yields_save_at {message : Int64 → Int64 → StoredMessage} (hcall : call.saves = true)
    (hid : ∀ id now, (message id now).msg_id = id) (htime : ∀ id now, (message id now).timestamp = now)
    (hto : ∀ id now u, isOffline u (toRow (message id now)) = true → call.addressee = some u) :
    Yields (fun db => Lists .messages rows db ∧ db.readings = k) (do
      let m ← (do
        let id ← nextMessageId env
        let now ← time env
        insert env .messages (toRow (message id now))
        pure (message id now) : DbM StoredMessage)
      pure [m]) (Leaving env rows k call) := by
  have hnext := @Yields.frame Int64 _ _ _ k (@yields_nextMessageId env rows)
    (Cmd.leaves_bind leaves_readings_queryAll fun _ => Cmd.leaves_pure _)
  simp only [bind_assoc, pure_bind]
  refine hnext.bind fun id => Cmd.Sat.pre (P := fun db => id = maxMessageId rows + 1 ∧
    Lists .messages rows db ∧ db.readings = k) ?_ fun db hdb => ⟨hdb.1.1, .inl hdb.1.2, hdb.2⟩
  refine Cmd.Sat.of_fact fun hmax => (yields_time_at fun _ h => h).bind fun now => Cmd.Sat.of_fact fun hnow => ?_
  refine ((yields_insert _).frame (leaves_readings_insert _)).bind fun _ => Cmd.sat_pure fun db hdb => ?_
  refine ⟨by omega, _, .inl hdb.1, .save hcall ?_ ?_ (hto id now)⟩
  · rw [hid, hmax]
  · rw [htime, hnow]

/-- An update that changes neither what identifies a message nor whether it is delivered. -/
theorem yields_update_at {p : Row → Bool} {u : Row → Row} {j : Nat} (hj : k ≤ j) (hcall : call.saves = false)
    (hcollects : ∀ userId limit, call ≠ .offlineForUser userId limit)
    (hu : ∀ row, identity (fromRow (u row)) = identity (fromRow row) ∧
      (fromRow (u row)).delivered = (fromRow row).delivered) :
    Yields (fun db => Lists .messages rows db ∧ db.readings = j) (do
      let _ ← update env .messages (fun row => .ok (p row)) u
      pure []) (Leaving env rows k call) := by
  refine ((yields_update p u).frame (leaves_readings_update _ u)).bind fun _ => Cmd.sat_pure fun db hdb => ?_
  refine ⟨by omega, _, .inl hdb.1.2, .change hcall hcollects (fun row => ?_) fun row => ?_⟩
  · split
    · exact (hu row).1
    · rfl
  · split
    · exact (hu row).2
    · rfl

/-- Each call returns and takes its turn. -/
theorem yields_turn (call : Call) :
    Yields (fun db => Lists .messages rows db ∧ db.readings = k) (call.execute env)
      (Leaving env rows k call) := by
  have hoffline : ∀ (m : StoredMessage) u, isOffline u (toRow m) = true →
      m.to_id = u ∧ m.group_id = 0 ∧ m.delivered = false := by
    intro m u h
    rwa [isOffline_eq, fromRow_toRow, decide_eq_true_eq] at h
  cases call with
  | savePrivate fromId toId content contentType isDelivered =>
    refine @yields_save_at env rows k _ (fun id now => newMessage id fromId toId 0 content contentType now isDelivered)
      rfl (fun _ _ => rfl) (fun _ _ => rfl) fun id now u h => ?_
    obtain ⟨hto, -, hdelivered⟩ := hoffline _ u h
    have hdelivered : isDelivered = false := hdelivered
    rw [hdelivered]
    exact congrArg some hto
  | saveGroup fromId groupId content contentType =>
    refine @yields_save_at env rows k _ (fun id now => newMessage id fromId 0 groupId content contentType now true)
      rfl (fun _ _ => rfl) (fun _ _ => rfl) fun id now u h => ?_
    obtain ⟨-, -, hdelivered⟩ := hoffline _ u h
    cases hdelivered
  | edit msgId actorId content =>
    show Yields _ (MessageRepository.edit env msgId actorId content >>= fun _ => pure []) _
    unfold MessageRepository.edit
    rw [bind_assoc]
    refine (yields_time_at fun _ h => h).bind fun now => Cmd.Sat.of_fact fun _ =>
      yields_update_at (Nat.le_succ k) rfl (fun _ _ h => by cases h) fun row => ?_
    rw [fromRow_put_edited_at, fromRow_put_edited, fromRow_put_content]
    exact ⟨rfl, rfl⟩
  | softDelete msgId actorId =>
    show Yields _ (MessageRepository.softDelete env msgId actorId >>= fun _ => pure []) _
    unfold MessageRepository.softDelete
    rw [bind_assoc]
    refine (yields_time_at fun _ h => h).bind fun now => Cmd.Sat.of_fact fun _ =>
      yields_update_at (Nat.le_succ k) rfl (fun _ _ h => by cases h) fun row => ?_
    rw [fromRow_put_deleted_at, fromRow_put_deleted, text, fromRow_put_content]
    exact ⟨rfl, rfl⟩
  | addReaction msgId actorId reaction =>
    show Yields _ (MessageRepository.addReaction env msgId actorId reaction >>= fun _ => pure []) _
    unfold MessageRepository.addReaction
    split
    · rintro db ⟨hdb, rfl⟩
      refine ⟨(fun h => by cases h), fun messages hmessages => ?_, fun _ h => by cases h⟩
      cases hmessages
      have hturn : Turn env (env.time db.readings) rows (.addReaction msgId actorId reaction) [] (rows.map id) :=
        .change rfl (fun _ _ h => by cases h) (fun _ => rfl) fun _ => rfl
      rw [List.map_id] at hturn
      exact ⟨Nat.le_refl _, rows, hdb, hturn⟩
    · refine yields_update_at (Nat.le_refl k) rfl (fun _ _ h => by cases h) fun row => ?_
      unfold withReaction
      dsimp only
      split
      · exact ⟨rfl, rfl⟩
      · rw [fromRow_put_reactions]
        exact ⟨rfl, rfl⟩
  | markRead msgId readerId =>
    refine yields_update_at (Nat.le_refl k) rfl (fun _ _ h => by cases h) fun row => ?_
    rw [fromRow_readBy]
    exact ⟨rfl, rfl⟩
  | offlineForUser userId limit =>
    have hmark : ∀ m : StoredMessage, Cmd.Leaves (fun db => db.readings) (markDelivered env m.msg_id) :=
      fun _ => Cmd.leaves_bind (leaves_readings_update _ _) fun _ => Cmd.leaves_pure _
    refine ((yields_offlineForUser userId limit).frame ?_).post fun messages db hdb => ?_
    · exact Cmd.leaves_bind (Cmd.leaves_bind (leaves_readings_query _) fun _ => Cmd.leaves_pure _) fun _ =>
        Cmd.leaves_bind (Cmd.leaves_each hmark) fun _ => Cmd.leaves_pure _
    · obtain ⟨⟨hmessages, hlists⟩, hreadings⟩ := hdb
      exact ⟨hreadings.ge, _, hlists, .collect userId limit hmessages⟩

end Turns

/-! ## Conversations -/

/-- A private conversation, or that of a group. A message without a group has the group `0`. -/
inductive Conversation where
  | between (userA userB : Int32)
  | group (groupId : Int32)
deriving DecidableEq

namespace Conversation

/-- The message belongs to the conversation. -/
def has : Conversation → StoredMessage → Bool
  | between userA userB, m => m.group_id = 0 &&
      ((m.from_id = userA && m.to_id = userB) || (m.from_id = userB && m.to_id = userA))
  | group groupId, m => m.group_id = groupId

def history (env : Env) : Conversation → Int32 → DbM (List StoredMessage)
  | between userA userB, limit => privateHistory env userA userB limit
  | group groupId, limit => groupHistory env groupId limit

/-- The messages are the newest ones of the conversation, as many as the limit
allows, in the order in which they have been saved. -/
def Newest (conversation : Conversation) (limit : Int32) (saved messages : List StoredMessage) : Prop :=
  messages.map identity = ((saved.filter conversation.has).rtake limit.toInt.toNat).map identity ∧
    messages.Pairwise fun a b => a.msg_id < b.msg_id

end Conversation

/-- A call of the repository, with those that read. -/
inductive Request where
  | call (change : Call)
  | history (conversation : Conversation) (limit : Int32)
  | search (keyword : Bytes) (limit : Int32)
  | markDelivered (msgId : Int64)
deriving DecidableEq

/-- The request, with the messages that it saves. -/
def Request.execute (env : Env) : Request → DbM (List StoredMessage)
  | call change => do
    let messages ← change.execute env
    pure (if change.saves then messages else [])
  | history conversation limit => do
    let _ ← conversation.history env limit
    pure []
  | search keyword limit => do
    let _ ← MessageRepository.search env keyword limit
    pure []
  | markDelivered msgId => do
    MessageRepository.markDelivered env msgId
    pure []

/-- The database, and the messages that have been saved, in order. -/
structure Archive where
  db : Database
  saved : List StoredMessage

/-- One request; `none` when it throws. -/
def Archive.step (env : Env) (s : Archive) (request : Request) : Option Archive :=
  match (request.execute env s.db).result with
  | .ok messages => some ⟨(request.execute env s.db).state, s.saved ++ messages⟩
  | .error _ => none

section Requests

variable {env : Env} {rows : RowList} {k : Nat}

/-- What a request leaves: the rows as they were saved, and perhaps one more. -/
def Continuing (env : Env) (rows : RowList) (k : Nat) (messages : List StoredMessage) (db : Database) : Prop :=
  k ≤ db.readings ∧ ∃ rows', db.Lists .messages rows' ∧
    rows'.map (fun row => identity (fromRow row)) =
      rows.map (fun row => identity (fromRow row)) ++ messages.map identity ∧
    ∀ m ∈ messages, messages = [m] ∧ m.msg_id = maxMessageId rows + 1 ∧ m.timestamp = env.time k

theorem continuing_map {f : Row → Row} {db : Database} (hlists : db.Lists .messages (rows.map f))
    (hreadings : k ≤ db.readings) (hf : ∀ row, identity (fromRow (f row)) = identity (fromRow row)) :
    Continuing env rows k [] db :=
  ⟨hreadings, _, hlists, by simp [hf], nofun⟩

theorem continuing_same {db : Database} (hlists : db.Lists .messages rows) (hreadings : k ≤ db.readings) :
    Continuing env rows k [] db :=
  ⟨hreadings, _, hlists, by simp, nofun⟩

theorem Turn.continuing {call : Call} {messages : List StoredMessage} {rows' : RowList} {db : Database}
    (h : Turn env (env.time k) rows call messages rows') (hlists : db.Lists .messages rows')
    (hreadings : k ≤ db.readings) : Continuing env rows k (if call.saves then messages else []) db := by
  cases h with
  | save hsaves hid htime =>
    rw [if_pos hsaves]
    refine ⟨hreadings, _, hlists, by simp [fromRow_toRow], fun m hm => ?_⟩
    cases List.mem_singleton.mp hm
    exact ⟨rfl, hid, htime⟩
  | change hsaves _ hsame =>
    rw [if_neg (by rw [hsaves]; nofun)]
    exact continuing_map hlists hreadings hsame
  | collect userId limit =>
    exact continuing_map hlists hreadings fun row => by rw [fromRow_delivered]; rfl

theorem leaves_readings_select (p : Row → Bool) (limit : Int32) :
    Cmd.Leaves (fun db => db.readings) (select env p limit) :=
  Cmd.leaves_bind (leaves_readings_query _) fun _ => Cmd.leaves_pure _

/-- The rows of the conversation are those of its messages. -/
theorem history_eq (env : Env) (conversation : Conversation) (limit : Int32) :
    conversation.history env limit = select env (fun row => conversation.has (fromRow row)) limit := by
  cases conversation <;> rfl

/-- Each request returns. -/
theorem yields_request (request : Request) :
    Yields (fun db => Lists .messages rows db ∧ db.readings = k) (request.execute env)
      (Continuing env rows k) := by
  have hselect : ∀ (p : Row → Bool) (limit : Int32),
      Yields (fun db => Lists .messages rows db ∧ db.readings = k) (select env p limit >>= fun _ => pure [])
        (Continuing env rows k) := fun p limit =>
    ((yields_select p limit).frame (leaves_readings_select p limit)).bind fun _ => Cmd.sat_pure fun db hdb =>
      continuing_same (.inl hdb.1.2) hdb.2.ge
  cases request with
  | call change =>
    refine (yields_turn change).bind fun messages => Cmd.sat_pure fun db hdb => ?_
    obtain ⟨hreadings, rows', hlists, hturn⟩ := hdb
    exact hturn.continuing hlists hreadings
  | history conversation limit =>
    show Yields _ (conversation.history env limit >>= fun _ => pure []) _
    rw [history_eq]
    exact hselect _ limit
  | search keyword limit =>
    show Yields _ (MessageRepository.search env keyword limit >>= fun _ => pure []) _
    unfold MessageRepository.search
    split
    · exact Cmd.sat_pure fun db hdb => continuing_same hdb.1 hdb.2.ge
    · exact hselect _ limit
  | markDelivered msgId =>
    refine ((yields_markDelivered msgId).frame ?_).bind fun _ => Cmd.sat_pure fun db hdb => ?_
    · exact Cmd.leaves_bind (leaves_readings_update _ _) fun _ => Cmd.leaves_pure _
    · refine continuing_map (.inl hdb.1) hdb.2.ge fun row => ?_
      split
      · rw [fromRow_put_delivered]
        rfl
      · rfl

end Requests

/-! ## Runs -/

/-- No message has the last id that there is. -/
def Roomy (saved : List StoredMessage) : Prop := ∀ m ∈ saved, m.msg_id.toInt < 2 ^ 63 - 1

/-- The rows of the table are the messages that have been saved, in order of
their times and of their ids. -/
structure Chronicle (env : Env) (s : Archive) : Prop where
  rows : ∃ rows, s.db.Lists .messages rows ∧
    rows.map (fun row => identity (fromRow row)) = s.saved.map identity
  times : s.saved.Pairwise fun a b => a.timestamp ≤ b.timestamp
  past : ∀ m ∈ s.saved, ∀ j, s.db.readings ≤ j → m.timestamp ≤ env.time j
  ids : Roomy s.saved → s.saved.Pairwise fun a b => a.msg_id < b.msg_id

section Runs

variable {env : Env} {s t : Archive}

theorem chronicle_empty {db : Database} (h : db.Lists .messages []) : Chronicle env ⟨db, []⟩ :=
  ⟨⟨[], h, rfl⟩, .nil, nofun, fun _ => .nil⟩

/-- The next id is above those of the messages that have been saved. -/
theorem lt_nextId {rows : RowList} {saved : List StoredMessage}
    (h : rows.map (fun row => identity (fromRow row)) = saved.map identity) (hroom : Roomy saved) :
    ∀ m ∈ saved, m.msg_id < maxMessageId rows + 1 := by
  have hids : rows.map (fun row => (fromRow row).msg_id) = saved.map (·.msg_id) := by
    have hfirst := congrArg (List.map Prod.fst) h
    rwa [List.map_map, List.map_map] at hfirst
  have habove := @maxMessageId_above rows fun row hrow => by
    obtain ⟨m, hm, hid⟩ := List.mem_map.mp (hids ▸ List.mem_map_of_mem hrow)
    rw [Operation.idIn_messages, ← hid]
    exact hroom m hm
  intro m hm
  obtain ⟨row, hrow, hid⟩ := List.mem_map.mp (hids ▸ List.mem_map_of_mem hm)
  rw [← hid, Int64.lt_iff_toInt_lt, ← Operation.idIn_messages]
  exact habove row hrow

/-- A request keeps the order. -/
theorem Chronicle.step (hclock : env.Forward) (h : Chronicle env s) (request : Request) :
    ∃ t, Archive.step env s request = some t ∧ Chronicle env t := by
  obtain ⟨rows, hlists, hrows⟩ := h.rows
  obtain ⟨-, hok, hthrow⟩ := @yields_request env rows s.db.readings request s.db ⟨hlists, rfl⟩
  unfold Archive.step
  cases hresult : (request.execute env s.db).result with
  | error e => exact (hthrow e hresult).elim
  | ok messages =>
    obtain ⟨hreadings, rows', hlists', hrows', hnew⟩ := hok messages hresult
    have hpast : ∀ m ∈ messages, m.timestamp = env.time s.db.readings := fun m hm => (hnew m hm).2.2
    have hall : messages.Pairwise fun _ _ => False := by
      rcases messages with _ | ⟨m, rest⟩
      · exact .nil
      · rw [(hnew m List.mem_cons_self).1]
        exact List.pairwise_singleton _ m
    refine ⟨_, rfl, ⟨rows', hlists', ?_⟩, ?_, fun m hm j hj => ?_, fun hroom => ?_⟩
    · rw [hrows', hrows, List.map_append]
    · refine List.pairwise_append.mpr ⟨h.times, hall.imp False.elim, fun a ha b hb => ?_⟩
      rw [hpast b hb]
      exact h.past a ha _ (Nat.le_refl _)
    · rcases List.mem_append.mp hm with hm | hm
      · exact h.past m hm j (hreadings.trans hj)
      · rw [hpast m hm]
        exact hclock _ _ (hreadings.trans hj)
    · have hroom' : Roomy s.saved := fun m hm => hroom m (List.mem_append_left _ hm)
      refine List.pairwise_append.mpr ⟨h.ids hroom', hall.imp False.elim, fun a ha b hb => ?_⟩
      rw [(hnew b hb).2.1]
      exact lt_nextId hrows hroom' a ha

/-- The requests of a run all return and keep the order. -/
theorem Chronicle.run (hclock : env.Forward) (h : Chronicle env s) (requests : List Request) :
    ∃ t, Lib.run (Archive.step env) s requests = some t ∧ Chronicle env t := by
  induction requests generalizing s with
  | nil => exact ⟨s, rfl, h⟩
  | cons request requests ih =>
    obtain ⟨s', hstep, h'⟩ := h.step hclock request
    obtain ⟨t, hrun, ht⟩ := ih h'
    exact ⟨t, run_cons_eq_some.mpr ⟨s', hstep, hrun⟩, ht⟩

/-! ## The newest messages -/

/-- Whether a message belongs to a conversation depends on its identity. -/
theorem filter_has {conversation : Conversation} {xs ys : List StoredMessage}
    (h : xs.map identity = ys.map identity) :
    (xs.filter conversation.has).map identity = (ys.filter conversation.has).map identity := by
  obtain ⟨g, hg⟩ : ∃ g : Int64 × Int32 × Int32 × Int32 × Bytes × Int64 → Bool,
      conversation.has = g ∘ identity := by
    cases conversation with
    | between userA userB =>
      exact ⟨fun i => i.2.2.2.1 = 0 && ((i.2.1 = userA && i.2.2.1 = userB) ||
        (i.2.1 = userB && i.2.2.1 = userA)), rfl⟩
    | group groupId => exact ⟨fun i => i.2.2.2.1 = groupId, rfl⟩
  rw [hg, ← List.filter_map, ← List.filter_map, h]

/-- What is a matter of the identities holds of both lists. -/
theorem pairwise_of_identity {R : Int64 × Int32 × Int32 × Int32 × Bytes × Int64 →
    Int64 × Int32 × Int32 × Int32 × Bytes × Int64 → Prop} {xs ys : List StoredMessage}
    (h : xs.map identity = ys.map identity) (hxs : xs.Pairwise fun a b => R (identity a) (identity b)) :
    ys.Pairwise fun a b => R (identity a) (identity b) := by
  rw [← List.pairwise_map] at hxs ⊢
  rwa [← h]

/-- Among messages in the order of their times, distinct times are increasing. -/
theorem nodup_times_iff {xs : List StoredMessage} (h : xs.Pairwise fun a b => a.timestamp ≤ b.timestamp) :
    (xs.map (·.timestamp)).Nodup ↔ xs.Pairwise fun a b => a.timestamp.toInt < b.timestamp.toInt := by
  rw [List.Nodup, List.pairwise_map]
  refine ⟨fun hne => (h.and hne).imp fun hab => ?_, fun hlt => hlt.imp fun hab heq => ?_⟩
  · have hle := Int64.le_iff_toInt_le.mp hab.1
    have hne : ¬_ = _ := fun heq => hab.2 (Int64.toInt_inj.mp heq)
    exact lt_of_le_of_ne hle hne
  · rw [heq] at hab
    exact lt_irrefl _ hab

/-- The history that the sort makes of the rows. -/
theorem result_history {rows : RowList} {db : Database} (hlists : db.Lists .messages rows) (t : TimeSort)
    (conversation : Conversation) {limit : Int32} (hlimit : 1 ≤ limit) :
    (conversation.history (env.sorting t) limit db).result =
      .ok ((t.sort ((rows.map fromRow).filter conversation.has)).rtake limit.toInt.toNat) := by
  rw [history_eq]
  obtain ⟨-, hok, hthrow⟩ := @yields_select (env.sorting t) rows (fun row => conversation.has (fromRow row)) limit
    db hlists
  cases hresult : (select (env.sorting t) (fun row => conversation.has (fromRow row)) limit db).result with
  | error e => exact (hthrow e hresult).elim
  | ok messages =>
    rw [(hok messages hresult).1, trimToLimit_eq _ hlimit, List.filter_map]
    rfl

/-- In every run of requests on a table that is empty at first, while the clock
does not go backwards and there are ids left: whatever order the sort chooses,
the history of a conversation is its newest messages in the order in which they
were saved, exactly if no two of its `limit + 1` newest messages were saved in
the same second. -/
theorem history_newest_iff (hclock : env.Forward) {db : Database} (hempty : db.Lists .messages [])
    (requests : List Request) :
    ∃ s, Lib.run (Archive.step env) ⟨db, []⟩ requests = some s ∧ (Roomy s.saved →
      ∀ (conversation : Conversation) (limit : Int32), 1 ≤ limit →
        ((∀ t : TimeSort, ∃ messages, (conversation.history (env.sorting t) limit s.db).result = .ok messages ∧
            conversation.Newest limit s.saved messages) ↔
          (((s.saved.filter conversation.has).rtake (limit.toInt.toNat + 1)).map (·.timestamp)).Nodup)) := by
  obtain ⟨s, hrun, hs⟩ := (chronicle_empty hempty).run hclock requests
  refine ⟨s, hrun, fun hroom conversation limit hlimit => ?_⟩
  obtain ⟨rows, hlists, hrows⟩ := hs.rows
  obtain ⟨xs, hxs⟩ : ∃ xs, xs = (rows.map fromRow).filter conversation.has := ⟨_, rfl⟩
  have hsame : xs.map identity = (s.saved.filter conversation.has).map identity := by
    rw [hxs]
    exact filter_has (by rw [List.map_map]; exact hrows)
  have hend : ∀ n, (xs.rtake n).map identity = ((s.saved.filter conversation.has).rtake n).map identity :=
    fun n => by rw [map_rtake, hsame, ← map_rtake]
  have hsuffix : ∀ n, ((s.saved.filter conversation.has).rtake n).Sublist s.saved :=
    fun n => (List.drop_sublist _ _).trans List.filter_sublist
  have htimes : xs.Pairwise fun a b => a.timestamp.toInt ≤ b.timestamp.toInt :=
    pairwise_of_identity (R := fun i j => i.2.2.2.2.2.toInt ≤ j.2.2.2.2.2.toInt) hsame.symm
      ((hs.times.sublist List.filter_sublist).imp Int64.le_iff_toInt_le.mp)
  have hids : (xs.map identity).Nodup := by
    rw [hsame, List.Nodup, List.pairwise_map]
    refine ((hs.ids hroom).sublist List.filter_sublist).imp fun {a b} hlt heq => ?_
    have hid : a.msg_id = b.msg_id := congrArg Prod.fst heq
    rw [hid] at hlt
    exact Int64.lt_irrefl hlt
  have hties := @rtake_sorted_iff _ _ _ _ (fun m : StoredMessage => m.timestamp.toInt) identity xs
    limit.toInt.toNat htimes hids
  have hdistinct : (((s.saved.filter conversation.has).rtake (limit.toInt.toNat + 1)).map (·.timestamp)).Nodup ↔
      (xs.rtake (limit.toInt.toNat + 1)).Pairwise fun a b => a.timestamp.toInt < b.timestamp.toInt := by
    rw [nodup_times_iff (hs.times.sublist (hsuffix _))]
    exact ⟨pairwise_of_identity (R := fun i j => i.2.2.2.2.2.toInt < j.2.2.2.2.2.toInt) (hend _).symm,
      pairwise_of_identity (R := fun i j => i.2.2.2.2.2.toInt < j.2.2.2.2.2.toInt) (hend _)⟩
  rw [hdistinct, ← hties]
  constructor
  · intro h ys hperm hsorted
    obtain ⟨messages, hresult, hnewest, -⟩ := h (.giving xs ys hperm (hsorted.imp Int64.le_iff_toInt_le.mpr))
    rw [result_history hlists _ _ hlimit, ← hxs] at hresult
    have hgiven : messages = ys.rtake limit.toInt.toNat := by
      rw [← Except.ok.inj hresult]
      exact congrArg (List.rtake · limit.toInt.toNat) (if_pos rfl)
    rw [← hgiven, hnewest, hend]
  · intro h t
    refine ⟨_, result_history hlists t conversation hlimit, ?_, ?_⟩
    · rw [← hxs, h _ (t.perm xs) ((t.sorted xs).imp Int64.le_iff_toInt_le.mp), hend]
    · have hnewest := (h _ (t.perm xs) ((t.sorted xs).imp Int64.le_iff_toInt_le.mp)).trans (hend _)
      rw [← hxs]
      exact pairwise_of_identity (R := fun i j => i.1 < j.1) hnewest.symm ((hs.ids hroom).sublist (hsuffix _))

end Runs

/-- The clock ticks once, after it has been read for the first time. -/
def ticksOnce : Env := { Env.ideal with time := fun n => if n = 0 then 0 else 1 }

theorem forward_ticksOnce : ticksOnce.Forward := by
  intro i j hij
  unfold ticksOnce
  dsimp only
  split
  · split <;> decide
  · next hi =>
    rw [if_neg fun hj => hi (by omega)]
    exact Int64.le_refl 1

theorem history_newest_iff_ticksOnce :
    ∃ s, Lib.run (Archive.step ticksOnce) ⟨connect .empty, []⟩
        [.call (.savePrivate 1 2 (lit "a") [] true), .call (.savePrivate 2 1 (lit "b") [] true)] = some s ∧
      ∀ t : TimeSort, ∃ messages,
        ((Conversation.between 1 2).history (ticksOnce.sorting t) 1 s.db).result = .ok messages ∧
        (Conversation.between 1 2).Newest 1 s.saved messages := by
  obtain ⟨s, hrun, h⟩ := @history_newest_iff ticksOnce forward_ticksOnce (connect .empty) (.inr ⟨rfl, rfl, rfl⟩)
    [.call (.savePrivate 1 2 (lit "a") [] true), .call (.savePrivate 2 1 (lit "b") [] true)]
  have hsaved : (Lib.run (Archive.step ticksOnce) ⟨connect .empty, []⟩
      [.call (.savePrivate 1 2 (lit "a") [] true), .call (.savePrivate 2 1 (lit "b") [] true)]).map (·.saved) =
      some [newMessage 1 1 2 0 (lit "a") [] 0 true, newMessage 2 2 1 0 (lit "b") [] 1 true] := by decide +kernel
  rw [hrun, Option.map_some, Option.some.injEq] at hsaved
  refine ⟨s, hrun, (h ?_ (.between 1 2) 1 (by decide)).mpr ?_⟩
  · rw [hsaved]
    unfold Roomy
    decide
  · rw [hsaved]
    decide

/-- The clock stands still. -/
def standsStill : Env := { Env.ideal with time := fun _ => 0 }

/-- Of two messages of one second the history may show the first as the newest. -/
theorem history_shows_older :
    ¬∀ (env : Env), env.Forward → ∀ db : Database, db.Lists .messages [] →
      ∀ (requests : List Request) (s : Archive), Lib.run (Archive.step env) ⟨db, []⟩ requests = some s →
        ∀ (conversation : Conversation) (limit : Int32), 1 ≤ limit →
          ∀ (t : TimeSort) (messages : List StoredMessage),
            (conversation.history (env.sorting t) limit s.db).result = .ok messages →
              messages.map (·.msg_id) =
                ((s.saved.filter conversation.has).rtake limit.toInt.toNat).map (·.msg_id) := by
  intro h
  have hrun : (Lib.run (Archive.step standsStill) ⟨connect .empty, []⟩
      [.call (.savePrivate 1 2 (lit "a") [] true), .call (.savePrivate 2 1 (lit "b") [] true)]).map (fun s =>
        (s.saved.map (·.msg_id), (s.saved.filter (Conversation.between 1 2).has).map (·.msg_id),
          (((Conversation.between 1 2).history (standsStill.sorting .backwards) 1 s.db).result.toOption.map
            (List.map (·.msg_id))))) = some ([1, 2], [1, 2], some [1]) := by decide +kernel
  obtain ⟨s, hs, hfacts⟩ := Option.map_eq_some_iff.mp hrun
  obtain ⟨-, hsaved, hhistory⟩ : _ ∧ _ ∧ _ := by simpa only [Prod.mk.injEq] using hfacts
  obtain ⟨messages, hresult, hids⟩ := Option.map_eq_some_iff.mp hhistory
  have hresult :
      ((Conversation.between 1 2).history (standsStill.sorting .backwards) 1 s.db).result = .ok messages := by
    revert hresult
    cases ((Conversation.between 1 2).history (standsStill.sorting .backwards) 1 s.db).result with
    | error e => exact nofun
    | ok found => exact fun hfound => congrArg _ (Option.some.inj hfound)
  have hclaim := h standsStill (fun _ _ _ => Int64.le_refl 0) (connect .empty) (.inr ⟨rfl, rfl, rfl⟩) _ s hs
    (.between 1 2) 1 (by decide) .backwards messages hresult
  rw [hids, map_rtake, hsaved] at hclaim
  exact absurd hclaim (by decide)

end MessageRepository

end LanChat
