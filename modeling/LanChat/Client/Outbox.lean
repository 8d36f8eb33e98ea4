import LanChat.Client.World

/-!
# The ways of a message out of the client

`sendPrivateMessage` and `sendGroupMessage` queue a message while the client is
not connected, and else send it at once; `flushOfflineQueue` sends a snapshot of
the queue, one message after the other. Each call of `sendRawJson` settles at some
later time, in any order, and any number of flushes may be waiting for theirs.

* `queue_loses_nothing`: the queue holds what has not been sent, in order.
* `sent_once`: no message is sent twice, as long as flushes do not overlap.
* `sent_in_order`: nor out of order, if none is sent past the queue either.
-/

namespace LanChat

open Lib Json

namespace Client

/-- A message of the user. `serial` is an annotation: the how-manieth it is. -/
structure Composed extends QueuedMessage where
  serial : Nat

/-- A call of `sendRawJson` for a message: by `flushOfflineQueue`, with the messages
behind it, or else by `sendPrivateMessage` or `sendGroupMessage`. It is `invoked` if
the client is connected, and rejects if not. `result` says how it has settled. -/
structure SendCall where
  message : Composed
  rest : Option (List Composed)
  invoked : Bool
  result : Option Bool

/-- `storage` is the queue in `localStorage`, and `calls` are all calls in the order
in which they are made. `enqueued` and `next` are annotations: the messages that
have ever been queued, and the number of messages. -/
structure Outbox where
  status : ConnectionStatus
  storage : List Composed
  calls : List SendCall
  enqueued : List Composed
  next : Nat

namespace Outbox

inductive Event where
  /-- `sendPrivateMessage` or `sendGroupMessage` -/
  | compose (target : Target) (localMessageId json : Bytes) (createdAt : Int)
  /-- the status of the connection is set -/
  | status (status : ConnectionStatus)
  /-- `flushOfflineQueue` is called -/
  | flush
  /-- the call at this position resolves, or rejects -/
  | settle (position : Nat) (ok : Bool)

/-- The page with the queue of an earlier one. -/
def start (queue : List QueuedMessage) : Outbox :=
  let messages := queue.zipIdx.map fun (item, serial) => { item with serial := serial }
  ⟨.disconnected, messages, [], messages, queue.length⟩

variable (o : Outbox)

/-- `sendRawJson`. -/
def sendRawJson (message : Composed) (rest : Option (List Composed)) : Outbox :=
  { o with calls := o.calls ++ [⟨message, rest, o.status = .connected, none⟩] }

def compose (message : Composed) : Outbox :=
  let o' := { o with next := o.next + 1 }
  if o.status = .connected then o'.sendRawJson message none
  else { o' with storage := o.storage ++ [message], enqueued := o.enqueued ++ [message] }

/-- The loop of `flushOfflineQueue`, up to the next call that it waits for. -/
def flushLoop : List Composed → Outbox
  | [] => o
  | message :: rest => o.sendRawJson message (some rest)

def flushOfflineQueue : Outbox := if o.status = .connected then o.flushLoop o.storage else o

/-- `dequeueOfflineMessage`. -/
def dequeueOfflineMessage (localMessageId : Bytes) : Outbox :=
  { o with storage := o.storage.filter fun queued => queued.localMessageId ≠ localMessageId }

/-- The `catch` of the loop. -/
def flushFailed (message : Composed) : Outbox :=
  { o with storage := o.storage.map fun queued =>
      if queued.localMessageId = message.localMessageId then { queued with attempts := queued.attempts + 1 }
      else queued }

/-- What follows a call that has settled. -/
def settled (message : Composed) : Option (List Composed) → Bool → Outbox
  | some rest, true => (o.dequeueOfflineMessage message.localMessageId).flushLoop rest
  | some _, false => o.flushFailed message
  | none, _ => o

def step (o : Outbox) : Event → Option Outbox
  | .compose target localMessageId json createdAt =>
    some (o.compose ⟨⟨target, localMessageId, json, createdAt, 0⟩, o.next⟩)
  | .status status => some { o with status := status }
  | .flush => some o.flushOfflineQueue
  | .settle position ok =>
    match o.calls[position]? with
    | some ⟨message, rest, invoked, none⟩ =>
      if ok && !invoked then none
      else some ({ o with calls := o.calls.set position ⟨message, rest, invoked, some ok⟩ }.settled message rest ok)
    | _ => none

/-! ## What a step does -/

/-- The call that a flush with these messages left waits for next. -/
def nextCall (status : ConnectionStatus) : List Composed → List SendCall
  | [] => []
  | message :: rest => [⟨message, some rest, status = .connected, none⟩]

/-- The page after a call at this position has settled, before anything follows from it. -/
def withResult (position : Nat) (call : SendCall) (ok : Bool) : Outbox :=
  { o with calls := o.calls.set position { call with result := some ok } }

/-- All that a step can do. -/
inductive Moves (o : Outbox) : Event → Outbox → Prop
  | sendNow (message : Composed) : message.serial = o.next → o.status = .connected →
      Moves o (.compose message.target message.localMessageId message.json message.createdAt)
        { o with next := o.next + 1, calls := o.calls ++ [⟨message, none, true, none⟩] }
  | enqueue (message : Composed) : message.serial = o.next → o.status ≠ .connected →
      Moves o (.compose message.target message.localMessageId message.json message.createdAt)
        { o with next := o.next + 1, storage := o.storage ++ [message], enqueued := o.enqueued ++ [message] }
  | setStatus (status : ConnectionStatus) : Moves o (.status status) { o with status := status }
  | ignore : o.status ≠ .connected → Moves o .flush o
  | flush : o.status = .connected → Moves o .flush { o with calls := o.calls ++ nextCall o.status o.storage }
  | settleOne (position : Nat) (call : SendCall) (ok : Bool) : o.calls[position]? = some call → call.result = none →
      call.rest = none → Moves o (.settle position ok) (o.withResult position call ok)
  | flushed (position : Nat) (call : SendCall) (rest : List Composed) : o.calls[position]? = some call →
      call.result = none → call.rest = some rest →
      Moves o (.settle position true)
        { (o.withResult position call true).dequeueOfflineMessage call.message.localMessageId with
          calls := (o.withResult position call true).calls ++ nextCall o.status rest }
  | failed (position : Nat) (call : SendCall) (rest : List Composed) : o.calls[position]? = some call →
      call.result = none → call.rest = some rest →
      Moves o (.settle position false) ((o.withResult position call false).flushFailed call.message)

variable {o} {o' : Outbox} {e : Event}

theorem flushLoop_eq (messages : List Composed) :
    o.flushLoop messages = { o with calls := o.calls ++ nextCall o.status messages } := by
  cases messages with
  | nil => simp [flushLoop, nextCall]
  | cons message rest => rfl

theorem moves_of_step (h : o.step e = some o') : Moves o e o' := by
  cases e with
  | compose target localMessageId json createdAt =>
    cases h
    unfold compose
    split
    · next hstatus =>
      have hmoves := Moves.sendNow (o := o) ⟨⟨target, localMessageId, json, createdAt, 0⟩, o.next⟩ rfl hstatus
      simpa [sendRawJson, hstatus] using hmoves
    · next hstatus =>
      exact .enqueue ⟨⟨target, localMessageId, json, createdAt, 0⟩, o.next⟩ rfl hstatus
  | status status =>
    cases h
    exact .setStatus status
  | flush =>
    cases h
    unfold flushOfflineQueue
    split
    · next hstatus =>
      rw [flushLoop_eq]
      exact .flush hstatus
    · next hstatus => exact .ignore hstatus
  | settle position ok =>
    simp only [step] at h
    split at h
    · next message rest invoked hcall =>
      split at h
      · cases h
      · cases h
        cases rest with
        | none => exact .settleOne position ⟨message, none, invoked, none⟩ ok hcall rfl rfl
        | some rest =>
          cases ok with
          | true =>
            rw [settled, flushLoop_eq]
            exact .flushed position ⟨message, some rest, invoked, none⟩ rest hcall rfl rfl
          | false => exact .failed position ⟨message, some rest, invoked, none⟩ rest hcall rfl rfl
    · cases h

/-! ## What the queue holds -/

/-- A call of `flushOfflineQueue` for the message has resolved. -/
def Flushed (o : Outbox) (serial : Nat) : Prop :=
  ∃ call ∈ o.calls, call.message.serial = serial ∧ call.rest.isSome = true ∧ call.result = some true

instance (o : Outbox) (serial : Nat) : Decidable (o.Flushed serial) := by
  unfold Flushed
  infer_instance

/-- The message without the number of attempts. -/
def fresh (message : Composed) : Composed := { message with attempts := 0 }

/-- The messages in the queue, and those of the flushes, have been queued. -/
structure Known (o : Outbox) : Prop where
  increasing : o.enqueued.Pairwise fun m m' => m.serial < m'.serial
  below : ∀ message ∈ o.enqueued, message.serial < o.next
  stored : ∀ message ∈ o.storage, ∃ queued ∈ o.enqueued, fresh queued = fresh message
  flushing : ∀ call ∈ o.calls, ∀ rest, call.rest = some rest → ∀ message ∈ call.message :: rest,
    ∃ queued ∈ o.enqueued, fresh queued = fresh message

/-- The queue holds exactly the messages that no flush has sent, in the order in
which they were queued. -/
def Kept (o : Outbox) : Prop :=
  o.storage.map fresh = (o.enqueued.filter fun message => ¬o.Flushed message.serial).map fresh

theorem mem_withResult {call call' : SendCall} {position : Nat} {ok : Bool} (hcall : o.calls[position]? = some call)
    (h : call' ∈ (o.withResult position call ok).calls) :
    call' ∈ o.calls ∨ call' = { call with result := some ok } ∧ call ∈ o.calls := by
  rcases List.mem_or_eq_of_mem_set h with h | rfl
  · exact .inl h
  · exact .inr ⟨rfl, List.mem_of_getElem? hcall⟩

theorem mem_nextCall {status : ConnectionStatus} {messages : List Composed} {call : SendCall}
    (h : call ∈ nextCall status messages) :
    ∃ rest, messages = call.message :: rest ∧ call.rest = some rest ∧ call.result = none ∧
      (call.invoked = true ↔ status = .connected) := by
  cases messages with
  | nil => cases h
  | cons message rest =>
    rw [List.mem_singleton.mp h]
    exact ⟨rest, rfl, rfl, rfl, decide_eq_true_iff⟩

/-- Calls that have not settled send nothing. -/
theorem flushed_append {calls : List SendCall} (hcalls : o'.calls = o.calls ++ calls)
    (h : ∀ call ∈ calls, call.result = none) (serial : Nat) : o'.Flushed serial ↔ o.Flushed serial := by
  unfold Flushed
  rw [hcalls]
  constructor
  · rintro ⟨call, hcall, hrest⟩
    rcases List.mem_append.mp hcall with hcall | hcall
    · exact ⟨call, hcall, hrest⟩
    · rw [h call hcall] at hrest
      cases hrest.2.2
  · rintro ⟨call, hcall, hrest⟩
    exact ⟨call, List.mem_append_left _ hcall, hrest⟩

theorem result_nextCall {status : ConnectionStatus} {messages : List Composed} :
    ∀ call ∈ nextCall status messages, call.result = none := by
  intro call hcall
  obtain ⟨_, -, -, hnone, -⟩ := mem_nextCall hcall
  exact hnone

theorem flushed_withResult {call : SendCall} {position : Nat} {ok : Bool} (hcall : o.calls[position]? = some call)
    (hresult : call.result = none) (serial : Nat) :
    (o.withResult position call ok).Flushed serial ↔
      o.Flushed serial ∨ call.message.serial = serial ∧ call.rest.isSome = true ∧ ok = true := by
  constructor
  · rintro ⟨call', hmem, hserial, hrest, hok⟩
    rcases mem_withResult hcall hmem with hmem | ⟨rfl, -⟩
    · exact .inl ⟨call', hmem, hserial, hrest, hok⟩
    · exact .inr ⟨hserial, hrest, Option.some.inj hok⟩
  · rintro (⟨call', hmem, hserial, hrest, hok⟩ | ⟨hserial, hrest, rfl⟩)
    · obtain ⟨position', hposition'⟩ := List.mem_iff_getElem?.mp hmem
      have hne : position ≠ position' := by
        rintro rfl
        rw [hcall, Option.some.injEq] at hposition'
        rw [← hposition', hresult] at hok
        cases hok
      refine ⟨call', List.mem_iff_getElem?.mpr ⟨position', ?_⟩, hserial, hrest, hok⟩
      rw [withResult, List.getElem?_set_ne hne]
      exact hposition'
    · refine ⟨{ call with result := some true }, ?_, hserial, hrest, rfl⟩
      obtain ⟨hlt, -⟩ := List.getElem?_eq_some_iff.mp hcall
      exact List.mem_set hlt _

theorem fresh_flushFailed (message queued : Composed) :
    fresh (if queued.localMessageId = message.localMessageId then
      { queued with attempts := queued.attempts + 1 } else queued) = fresh queued := by
  split <;> rfl

theorem Known.step (h : Known o) (hmoves : Moves o e o') : Known o' := by
  have hnext : ∀ {messages : List Composed}, (∀ message ∈ messages, ∃ queued ∈ o.enqueued, fresh queued = fresh message) →
      ∀ call ∈ nextCall o.status messages, ∀ rest, call.rest = some rest → ∀ message ∈ call.message :: rest,
        ∃ queued ∈ o.enqueued, fresh queued = fresh message := by
    rintro messages hmessages call hcall rest hrest
    obtain ⟨rest', rfl, hrest', -⟩ := mem_nextCall hcall
    rw [hrest', Option.some.injEq] at hrest
    exact hrest ▸ hmessages
  have hresult : ∀ {position : Nat} {call : SendCall} {ok : Bool}, o.calls[position]? = some call →
      ∀ call' ∈ (o.withResult position call ok).calls, ∀ rest, call'.rest = some rest →
        ∀ message ∈ call'.message :: rest, ∃ queued ∈ o.enqueued, fresh queued = fresh message := by
    intro position call ok hcall call' hcall'
    rcases mem_withResult hcall hcall' with hmem | ⟨rfl, hmem⟩
    · exact h.flushing call' hmem
    · exact h.flushing call hmem
  cases hmoves with
  | sendNow message hserial hstatus =>
    refine ⟨h.increasing, fun m hm => Nat.lt_succ_of_lt (h.below m hm), h.stored, fun call hcall => ?_⟩
    rcases List.mem_append.mp hcall with hcall | hcall
    · exact h.flushing call hcall
    · rw [List.mem_singleton.mp hcall]
      exact nofun
  | enqueue message hserial hstatus =>
    have hmore : ∀ {m : Composed}, (∃ queued ∈ o.enqueued, fresh queued = fresh m) →
        ∃ queued ∈ o.enqueued ++ [message], fresh queued = fresh m := by
      rintro m ⟨queued, hqueued, hfresh⟩
      exact ⟨queued, List.mem_append_left _ hqueued, hfresh⟩
    refine ⟨?_, fun m hm => ?_, fun m hm => ?_,
      fun call hcall rest hrest m hm => hmore (h.flushing call hcall rest hrest m hm)⟩
    · refine List.pairwise_append.mpr ⟨h.increasing, List.pairwise_singleton _ _, fun m hm m' hm' => ?_⟩
      rw [List.mem_singleton.mp hm', hserial]
      exact h.below m hm
    · rcases List.mem_append.mp hm with hm | hm
      · exact Nat.lt_succ_of_lt (h.below m hm)
      · rw [List.mem_singleton.mp hm, hserial]
        exact Nat.lt_succ_self _
    · rcases List.mem_append.mp hm with hm | hm
      · exact hmore (h.stored m hm)
      · exact ⟨message, List.mem_append_right _ List.mem_cons_self, by rw [List.mem_singleton.mp hm]⟩
  | setStatus status => exact ⟨h.increasing, h.below, h.stored, h.flushing⟩
  | ignore _ => exact h
  | flush hstatus =>
    refine ⟨h.increasing, h.below, h.stored, fun call hcall => ?_⟩
    rcases List.mem_append.mp hcall with hcall | hcall
    · exact h.flushing call hcall
    · exact hnext h.stored call hcall
  | settleOne position call ok hcall _ _ => exact ⟨h.increasing, h.below, h.stored, hresult hcall⟩
  | flushed position call rest hcall _ hrest =>
    refine ⟨h.increasing, h.below, fun m hm => h.stored m (List.mem_filter.mp hm).1, fun call' hcall' => ?_⟩
    rcases List.mem_append.mp hcall' with hcall' | hcall'
    · exact hresult hcall call' hcall'
    · exact hnext (fun m hm => h.flushing call (List.mem_of_getElem? hcall) rest hrest m (List.mem_cons_of_mem _ hm))
        call' hcall'
  | failed position call rest hcall _ hrest =>
    refine ⟨h.increasing, h.below, fun m hm => ?_, hresult hcall⟩
    obtain ⟨queued, hqueued, rfl⟩ := List.mem_map.mp hm
    rw [fresh_flushFailed]
    exact h.stored queued hqueued

theorem of_fresh_eq {m m' : Composed} (h : fresh m = fresh m') :
    m.localMessageId = m'.localMessageId ∧ m.serial = m'.serial := by
  have hid : (fresh m).localMessageId = (fresh m').localMessageId := by rw [h]
  have hserial : (fresh m).serial = (fresh m').serial := by rw [h]
  exact ⟨hid, hserial⟩

theorem Known.serial_inj (h : Known o) {m m' : Composed} (hm : m ∈ o.enqueued) (hm' : m' ∈ o.enqueued)
    (hserial : m.serial = m'.serial) : m = m' := by
  have hnodup : (o.enqueued.map (·.serial)).Nodup := by
    rw [List.Nodup, List.pairwise_map]
    exact h.increasing.imp fun hlt => Nat.ne_of_lt hlt
  exact List.inj_on_of_nodup_map hnodup hm hm' hserial

/-- Messages of one local id are one message, if the ids are distinct. -/
theorem Known.id_iff (h : Known o) (hdistinct : (o.enqueued.map (·.localMessageId)).Nodup) {m m' : Composed}
    (hm : m ∈ o.enqueued) (hm' : ∃ queued ∈ o.enqueued, fresh queued = fresh m') :
    m.localMessageId = m'.localMessageId ↔ m'.serial = m.serial := by
  obtain ⟨queued, hqueued, hfresh⟩ := hm'
  obtain ⟨hid, hserial⟩ := of_fresh_eq hfresh
  rw [← hid, ← hserial]
  constructor
  · intro hsame
    rw [List.inj_on_of_nodup_map hdistinct hm hqueued hsame]
  · intro hsame
    rw [h.serial_inj hm hqueued hsame.symm]

theorem Kept.of_flushed (h : Kept o) (hsame : ∀ serial, o'.Flushed serial ↔ o.Flushed serial)
    (henqueued : o'.enqueued = o.enqueued) (hstorage : o'.storage.map fresh = o.storage.map fresh) : Kept o' := by
  rw [Kept, hstorage, h, henqueued]
  simp only [hsame]

theorem Kept.step (h : Kept o) (hknown : Known o) (hdistinct : (o.enqueued.map (·.localMessageId)).Nodup)
    (hmoves : Moves o e o') : Kept o' := by
  cases hmoves with
  | sendNow message hserial hstatus =>
    refine h.of_flushed (flushed_append rfl fun call hcall => ?_) rfl rfl
    rw [List.mem_singleton.mp hcall]
  | enqueue message hserial hstatus =>
    have hnew : ¬o.Flushed message.serial := by
      rintro ⟨call, hcall, hsame, hrest, -⟩
      obtain ⟨rest, hrest⟩ := Option.isSome_iff_exists.mp hrest
      obtain ⟨queued, hqueued, hfresh⟩ := hknown.flushing call hcall rest hrest call.message List.mem_cons_self
      have hlt := hknown.below queued hqueued
      have hsame' := (of_fresh_eq hfresh).2
      omega
    show (o.storage ++ [message]).map fresh = ((o.enqueued ++ [message]).filter fun m => ¬o.Flushed m.serial).map fresh
    rw [List.map_append, h, List.filter_append, List.map_append]
    simp [hnew]
  | setStatus status => exact h
  | ignore _ => exact h
  | flush hstatus =>
    exact h.of_flushed (flushed_append rfl result_nextCall) rfl rfl
  | settleOne position call ok hcall hresult hrest =>
    refine h.of_flushed (fun serial => ?_) rfl rfl
    rw [flushed_withResult hcall hresult, hrest]
    simp
  | flushed position call rest hcall hresult hrest =>
    have hflushed : ∀ serial, Flushed { (o.withResult position call true).dequeueOfflineMessage
        call.message.localMessageId with calls := (o.withResult position call true).calls ++ nextCall o.status rest }
        serial ↔ o.Flushed serial ∨ call.message.serial = serial := by
      intro serial
      refine (@flushed_append (o.withResult position call true) _ _ rfl result_nextCall serial).trans ?_
      rw [flushed_withResult hcall hresult, hrest]
      simp
    have hsent := hknown.flushing call (List.mem_of_getElem? hcall) rest hrest call.message List.mem_cons_self
    have hdequeued : (o.storage.filter fun queued => queued.localMessageId ≠ call.message.localMessageId).map fresh =
        (o.storage.map fresh).filter fun queued => queued.localMessageId ≠ call.message.localMessageId := by
      rw [List.filter_map]
      rfl
    unfold Kept
    simp only [hflushed]
    show (o.storage.filter fun queued => queued.localMessageId ≠ call.message.localMessageId).map fresh = _
    rw [hdequeued, h, List.filter_map, List.filter_filter]
    refine congrArg (List.map fresh) (List.filter_congr fun m hm => ?_)
    have hid := hknown.id_iff hdistinct hm hsent
    show (decide (m.localMessageId ≠ call.message.localMessageId) && decide ¬o.Flushed m.serial) =
      decide ¬(o.Flushed m.serial ∨ call.message.serial = m.serial)
    rw [Bool.eq_iff_iff]
    simp only [Bool.and_eq_true, decide_eq_true_eq, not_or, ne_eq, hid]
    exact and_comm
  | failed position call rest hcall hresult hrest =>
    refine h.of_flushed (fun serial => ?_) rfl ?_
    · refine (flushed_withResult hcall hresult serial).trans ?_
      simp
    · show (o.storage.map _).map fresh = _
      rw [List.map_map]
      exact List.map_congr_left fun queued _ => fresh_flushFailed call.message queued

/-! ### Runs -/

theorem known_start (queue : List QueuedMessage) : Known (start queue) where
  increasing := by
    have hserials : ((queue.zipIdx.map Prod.snd).Pairwise (· < ·)) := by
      rw [List.zipIdx_map_snd]
      exact List.pairwise_lt_range'
    show List.Pairwise _ (queue.zipIdx.map _)
    rw [List.pairwise_map] at hserials ⊢
    exact hserials
  below message hmessage := by
    obtain ⟨⟨item, serial⟩, hitem, rfl⟩ := List.mem_map.mp hmessage
    have hlt := List.snd_lt_of_mem_zipIdx hitem
    simpa [start] using hlt
  stored message hmessage := ⟨message, hmessage, rfl⟩
  flushing := nofun

theorem kept_start (queue : List QueuedMessage) : Kept (start queue) := by
  have hnone : ∀ serial, ¬(start queue).Flushed serial := by
    rintro serial ⟨call, hcall, -⟩
    cases hcall
  have hall : ((start queue).enqueued.filter fun message => ¬(start queue).Flushed message.serial) =
      (start queue).enqueued :=
    List.filter_eq_self.mpr fun message _ => decide_eq_true (hnone message.serial)
  rw [Kept, hall]
  rfl

/-- Messages are added to those that have been queued. -/
theorem enqueued_step (hmoves : Moves o e o') : o.enqueued <+: o'.enqueued := by
  cases hmoves with
  | enqueue message _ _ => exact List.prefix_append _ _
  | _ => exact List.prefix_rfl

theorem flushed_step {serial : Nat} (hmoves : Moves o e o') (h : o.Flushed serial) : o'.Flushed serial := by
  cases hmoves with
  | sendNow message _ _ => exact h.imp fun call hcall => ⟨List.mem_append_left _ hcall.1, hcall.2⟩
  | flush _ => exact h.imp fun call hcall => ⟨List.mem_append_left _ hcall.1, hcall.2⟩
  | settleOne position call ok hcall hresult _ => exact (flushed_withResult hcall hresult serial).mpr (.inl h)
  | failed position call rest hcall hresult _ => exact (flushed_withResult hcall hresult serial).mpr (.inl h)
  | flushed position call rest hcall hresult _ =>
    exact ((flushed_withResult hcall hresult serial).mpr (.inl h)).imp fun call hcall =>
      ⟨List.mem_append_left _ hcall.1, hcall.2⟩
  | _ => exact h

/-- What holds at the end of a run whose queued messages have distinct ids. -/
theorem kept_of_run (queue : List QueuedMessage) {es : List Event} (hrun : run step (start queue) es = some o)
    (hdistinct : (o.enqueued.map (·.localMessageId)).Nodup) : Known o ∧ Kept o := by
  have hinv : Known o ∧ ((o.enqueued.map (·.localMessageId)).Nodup → Kept o) := by
    refine invariant_run (I := fun o => Known o ∧ ((o.enqueued.map (·.localMessageId)).Nodup → Kept o))
      (fun o e o' hinv hstep => ?_) ⟨known_start queue, fun _ => kept_start queue⟩ hrun
    obtain ⟨hknown, hkept⟩ := hinv
    have hmoves := moves_of_step hstep
    refine ⟨hknown.step hmoves, fun hdistinct => ?_⟩
    have hbefore : (o.enqueued.map (·.localMessageId)).Nodup :=
      hdistinct.sublist ((enqueued_step hmoves).sublist.map _)
    exact (hkept hbefore).step hknown hbefore hmoves
  exact ⟨hinv.1, hinv.2 hdistinct⟩

/-- Whatever is sent and flushed in between, and however the calls settle: a message
that has been queued stays in the queue until a call for it has resolved, one that
has left the queue does not come back, and the queue keeps its order. -/
theorem queue_loses_nothing (queue : List QueuedMessage) {es fs : List Event} {o o' : Outbox}
    (hrun : run step (start queue) es = some o) (hlater : run step o fs = some o')
    (hdistinct : (o'.enqueued.map (·.localMessageId)).Nodup) :
    (∀ message ∈ o.enqueued, ¬o.Flushed message.serial → ∃ queued ∈ o.storage, fresh queued = fresh message) ∧
      (∀ message ∈ o.enqueued, (∀ queued ∈ o.storage, fresh queued ≠ fresh message) →
        ∀ queued ∈ o'.storage, fresh queued ≠ fresh message) ∧
      (o.storage.map fresh).Sublist (o.enqueued.map fresh) := by
  have hsince : o.enqueued <+: o'.enqueued ∧ ∀ serial, o.Flushed serial → o'.Flushed serial := by
    refine invariant_run (I := fun s => o.enqueued <+: s.enqueued ∧ ∀ serial, o.Flushed serial → s.Flushed serial)
      (fun s e s' hinv hstep => ?_) ⟨List.prefix_rfl, fun _ h => h⟩ hlater
    have hmoves := moves_of_step hstep
    exact ⟨hinv.1.trans (enqueued_step hmoves), fun serial h => flushed_step hmoves (hinv.2 serial h)⟩
  have hbefore : (o.enqueued.map (·.localMessageId)).Nodup := hdistinct.sublist (hsince.1.sublist.map _)
  obtain ⟨-, hkept⟩ := kept_of_run queue hrun hbefore
  have hrun' : run step (start queue) (es ++ fs) = some o' := by
    rw [run_append, hrun]
    exact hlater
  obtain ⟨hknown', hkept'⟩ := kept_of_run queue hrun' hdistinct
  have hstays : ∀ message ∈ o.enqueued, ¬o.Flushed message.serial →
      ∃ queued ∈ o.storage, fresh queued = fresh message := by
    intro message hmessage hunsent
    have hmem : fresh message ∈ o.storage.map fresh := by
      rw [hkept]
      exact List.mem_map_of_mem (List.mem_filter.mpr ⟨hmessage, decide_eq_true hunsent⟩)
    exact List.mem_map.mp hmem
  refine ⟨hstays, fun message hmessage hgone queued hqueued hfresh => ?_, ?_⟩
  · have hsent : o.Flushed message.serial := by
      by_contra hunsent
      obtain ⟨queued, hqueued, hfresh⟩ := hstays message hmessage hunsent
      exact hgone queued hqueued hfresh
    have hmem : fresh message ∈ o'.storage.map fresh := hfresh ▸ List.mem_map_of_mem hqueued
    rw [hkept'] at hmem
    obtain ⟨message', hmessage', hsame⟩ := List.mem_map.mp hmem
    obtain ⟨-, hunsent⟩ := List.mem_filter.mp hmessage'
    rw [(of_fresh_eq hsame).2] at hunsent
    exact of_decide_eq_true hunsent (hsince.2 _ hsent)
  · rw [hkept]
    exact (List.filter_sublist).map _

/-- Two messages that are written while the client is not connected, and a flush. -/
def flushTwo : List Event :=
  [.compose (.direct 5) (lit "a") (lit "first") 0, .compose (.group 6) (lit "b") (lit "second") 1,
    .status .connected, .flush]

theorem queue_loses_nothing_flushTwo :
    ∃ o o', run step (start []) flushTwo = some o ∧ run step o [.settle 0 true, .settle 1 false] = some o' ∧
      o.storage.length = 2 ∧ o'.storage.length = 1 ∧
      (∀ message ∈ o.enqueued, ¬o.Flushed message.serial → ∃ queued ∈ o.storage, fresh queued = fresh message) ∧
      (∀ message ∈ o.enqueued, (∀ queued ∈ o.storage, fresh queued ≠ fresh message) →
        ∀ queued ∈ o'.storage, fresh queued ≠ fresh message) ∧
      (o.storage.map fresh).Sublist (o.enqueued.map fresh) :=
  ⟨_, _, rfl, rfl, rfl, rfl,
    @queue_loses_nothing [] flushTwo [.settle 0 true, .settle 1 false] _ _ rfl rfl (by decide)⟩

/-! ## What is sent -/

/-- The call has not been rejected. -/
def Alive (call : SendCall) : Prop := call.result ≠ some false

/-- A flush waits for the call. -/
def Waiting (call : SendCall) : Prop := call.rest.isSome = true ∧ call.result = none

instance (call : SendCall) : Decidable (Waiting call) := inferInstanceAs (Decidable (_ ∧ _))

/-- No flush is under way. -/
def Idle (o : Outbox) : Prop := ∀ call ∈ o.calls, ¬Waiting call

instance (o : Outbox) : Decidable o.Idle := inferInstanceAs (Decidable (∀ call ∈ o.calls, ¬Waiting call))

theorem pairwise_set {R : SendCall → SendCall → Prop} {calls : List SendCall} {position : Nat} {call call' : SendCall}
    (h : calls.Pairwise R) (hcall : calls[position]? = some call) (hleft : ∀ c, R call c → R call' c)
    (hright : ∀ c, R c call → R c call') : (calls.set position call').Pairwise R := by
  obtain ⟨hlt, hget⟩ := List.getElem?_eq_some_iff.mp hcall
  rw [List.pairwise_iff_getElem] at h ⊢
  intro i j hi hj hij
  rw [List.length_set] at hi hj
  have hold := h i j hi hj hij
  rw [List.getElem_set, List.getElem_set]
  split
  · next heq =>
    subst heq
    rw [if_neg (Nat.ne_of_lt hij)]
    exact hleft _ (hget ▸ hold)
  · split
    · next heq =>
      subst heq
      exact hright _ (hget ▸ hold)
    · exact hold

/-- A call that is alive after one has settled was alive before. -/
theorem alive_withResult {call call' : SendCall} {position : Nat} {ok : Bool} (hcall : o.calls[position]? = some call)
    (hresult : call.result = none) (h : call' ∈ (o.withResult position call ok).calls) (halive : Alive call') :
    ∃ c ∈ o.calls, Alive c ∧ c.message = call'.message := by
  rcases mem_withResult hcall h with hmem | ⟨rfl, hmem⟩
  · exact ⟨call', hmem, halive, rfl⟩
  · refine ⟨call, hmem, ?_, rfl⟩
    rw [Alive, hresult]
    exact nofun

/-- What `flushOfflineQueue` sends next has been neither sent nor given to `TcpManager`. -/
structure Once (o : Outbox) : Prop where
  increasing : o.storage.Pairwise fun m m' => m.serial < m'.serial
  called : ∀ call ∈ o.calls, call.message.serial < o.next
  alone : o.calls.Pairwise fun c c' => ¬(Waiting c ∧ Waiting c')
  distinct : o.calls.Pairwise fun c c' => Alive c → Alive c' → c.message.serial ≠ c'.message.serial
  stored : ∀ message ∈ o.storage, ∀ call ∈ o.calls, Alive call → call.message.serial = message.serial → Waiting call
  ahead : ∀ call ∈ o.calls, call.result = none → ∀ rest, call.rest = some rest →
    (call.message :: rest).Pairwise (fun m m' => m.serial < m'.serial) ∧
      ∀ message ∈ rest, ∀ c ∈ o.calls, Alive c → c.message.serial ≠ message.serial

/-- One more call. -/
theorem Once.append (h : Once o) {call : SendCall} {next : Nat} (hnext : o.next ≤ next)
    (hcalled : call.message.serial < next) (halone : Waiting call → o.Idle)
    (hdistinct : ∀ c ∈ o.calls, Alive c → c.message.serial ≠ call.message.serial)
    (hstored : ∀ message ∈ o.storage, call.message.serial = message.serial → Waiting call)
    (hbefore : ∀ c ∈ o.calls, c.result = none → ∀ rest, c.rest = some rest → ∀ message ∈ rest,
      call.message.serial ≠ message.serial)
    (hahead : ∀ rest, call.rest = some rest → (call.message :: rest).Pairwise (fun m m' => m.serial < m'.serial) ∧
      ∀ message ∈ rest, ∀ c ∈ o.calls, Alive c → c.message.serial ≠ message.serial) :
    Once { o with calls := o.calls ++ [call], next := next } where
  increasing := h.increasing
  called c hc := by
    rcases List.mem_append.mp hc with hc | hc
    · exact Nat.lt_of_lt_of_le (h.called c hc) hnext
    · rw [List.mem_singleton.mp hc]
      exact hcalled
  alone := by
    refine List.pairwise_append.mpr ⟨h.alone, List.pairwise_singleton _ _, fun c hc c' hc' hboth => ?_⟩
    rw [List.mem_singleton.mp hc'] at hboth
    exact halone hboth.2 c hc hboth.1
  distinct := by
    refine List.pairwise_append.mpr ⟨h.distinct, List.pairwise_singleton _ _, fun c hc c' hc' halive _ => ?_⟩
    rw [List.mem_singleton.mp hc']
    exact hdistinct c hc halive
  stored message hmessage c hc halive hserial := by
    rcases List.mem_append.mp hc with hc | hc
    · exact h.stored message hmessage c hc halive hserial
    · rw [List.mem_singleton.mp hc] at hserial ⊢
      exact hstored message hmessage hserial
  ahead c hc hnone rest hrest := by
    rcases List.mem_append.mp hc with hc | hc
    · obtain ⟨hincreasing, hnew⟩ := h.ahead c hc hnone rest hrest
      refine ⟨hincreasing, fun message hmessage c' hc' halive => ?_⟩
      rcases List.mem_append.mp hc' with hc' | hc'
      · exact hnew message hmessage c' hc' halive
      · rw [List.mem_singleton.mp hc']
        exact hbefore c hc hnone rest hrest message hmessage
    · rw [List.mem_singleton.mp hc] at hrest ⊢
      obtain ⟨hincreasing, hnew⟩ := hahead rest hrest
      refine ⟨hincreasing, fun message hmessage c' hc' halive => ?_⟩
      rcases List.mem_append.mp hc' with hc' | hc'
      · exact hnew message hmessage c' hc' halive
      · rw [List.mem_singleton.mp hc']
        exact Nat.ne_of_lt (List.rel_of_pairwise_cons hincreasing hmessage)

/-- A flush sends its next message, when no other one is under way. -/
theorem Once.goesOn (h : Once o) (hidle : o.Idle) {messages : List Composed}
    (hincreasing : messages.Pairwise fun m m' => m.serial < m'.serial) (hbelow : ∀ m ∈ messages, m.serial < o.next)
    (hnew : ∀ m ∈ messages, ∀ c ∈ o.calls, Alive c → c.message.serial ≠ m.serial) :
    Once { o with calls := o.calls ++ nextCall o.status messages } := by
  cases messages with
  | nil =>
    rw [nextCall, List.append_nil]
    exact h
  | cons message rest =>
    refine h.append (Nat.le_refl _) (hbelow message List.mem_cons_self) (fun _ => hidle)
      (hnew message List.mem_cons_self) (fun _ _ _ => ⟨rfl, rfl⟩) (fun c hc hnone rest' hrest => ?_)
      (fun rest' hrest => ?_)
    · exact absurd ⟨by rw [hrest]; rfl, hnone⟩ (hidle c hc)
    · cases hrest
      exact ⟨hincreasing, fun m hm => hnew m (List.mem_cons_of_mem _ hm)⟩

theorem Once.withResult (h : Once o) {call : SendCall} {position : Nat} {ok : Bool}
    (hcall : o.calls[position]? = some call) (hresult : call.result = none)
    (hstored : ok = true → Waiting call → ∀ message ∈ o.storage, call.message.serial ≠ message.serial) :
    Once (o.withResult position call ok) where
  increasing := h.increasing
  called c hc := by
    rcases mem_withResult hcall hc with hc | ⟨rfl, hmem⟩
    · exact h.called c hc
    · exact h.called call hmem
  alone := pairwise_set h.alone hcall (fun _ _ hboth => nomatch hboth.1.2) (fun _ _ hboth => nomatch hboth.2.2)
  distinct := by
    have halive : Alive call := by
      rw [Alive, hresult]
      exact nofun
    exact pairwise_set h.distinct hcall (fun _ hr _ => hr halive) (fun _ hr hc _ => hr hc halive)
  stored message hmessage c hc halive hserial := by
    rcases mem_withResult hcall hc with hc | ⟨rfl, hmem⟩
    · exact h.stored message hmessage c hc halive hserial
    · have hwaiting := h.stored message hmessage call hmem (by rw [Alive, hresult]; exact nofun) hserial
      cases ok with
      | true => exact absurd hserial (hstored rfl hwaiting message hmessage)
      | false => exact absurd rfl halive
  ahead c hc hnone rest hrest := by
    rcases mem_withResult hcall hc with hc | ⟨rfl, hc⟩
    · obtain ⟨hincreasing, hnew⟩ := h.ahead c hc hnone rest hrest
      refine ⟨hincreasing, fun message hmessage c' hc' halive => ?_⟩
      obtain ⟨c₀, hc₀, halive₀, hsame⟩ := alive_withResult hcall hresult hc' halive
      rw [← hsame]
      exact hnew message hmessage c₀ hc₀ halive₀
    · cases hnone

/-- The queue becomes shorter, or the numbers of attempts change. -/
theorem Once.store (h : Once o) {storage : List Composed}
    (hstorage : (storage.map (·.serial)).Sublist (o.storage.map (·.serial))) : Once { o with storage := storage } where
  increasing := by
    have hserials : (o.storage.map (·.serial)).Pairwise (· < ·) := List.pairwise_map.mpr h.increasing
    exact List.pairwise_map.mp (hserials.sublist hstorage)
  called := h.called
  alone := h.alone
  distinct := h.distinct
  stored message hmessage call hcall halive hserial := by
    obtain ⟨message', hmessage', hsame⟩ := List.mem_map.mp (hstorage.subset (List.mem_map_of_mem hmessage))
    exact h.stored message' hmessage' call hcall halive (hserial.trans hsame.symm)
  ahead := h.ahead

/-- When the call that a flush waits for settles, no flush is under way. -/
theorem Once.idle_withResult (h : Once o) {call : SendCall} {position : Nat} {ok : Bool}
    (hcall : o.calls[position]? = some call) (hwaiting : Waiting call) : (o.withResult position call ok).Idle := by
  intro c hc hwaits
  obtain ⟨i, hi⟩ := List.mem_iff_getElem?.mp hc
  rw [Outbox.withResult] at hi
  rcases eq_or_ne position i with rfl | hne
  · rw [List.getElem?_set_self (List.getElem?_eq_some_iff.mp hcall).1, Option.some.injEq] at hi
    rw [← hi] at hwaits
    cases hwaits.2
  · rw [List.getElem?_set_ne hne] at hi
    obtain ⟨hlt, hget⟩ := List.getElem?_eq_some_iff.mp hcall
    obtain ⟨hlt', hget'⟩ := List.getElem?_eq_some_iff.mp hi
    rcases Nat.lt_or_gt_of_ne hne with hlt'' | hlt''
    · exact List.pairwise_iff_getElem.mp h.alone position i hlt hlt' hlt'' ⟨hget ▸ hwaiting, hget' ▸ hwaits⟩
    · exact List.pairwise_iff_getElem.mp h.alone i position hlt' hlt hlt'' ⟨hget' ▸ hwaits, hget ▸ hwaiting⟩

/-- Messages of one serial have one local id. -/
theorem Known.same_id (h : Known o) {m m' : Composed} (hm : ∃ queued ∈ o.enqueued, fresh queued = fresh m)
    (hm' : ∃ queued ∈ o.enqueued, fresh queued = fresh m') (hserial : m.serial = m'.serial) :
    m.localMessageId = m'.localMessageId := by
  obtain ⟨queued, hqueued, hfresh⟩ := hm
  obtain ⟨queued', hqueued', hfresh'⟩ := hm'
  have hsame : queued = queued' :=
    h.serial_inj hqueued hqueued' (by rw [(of_fresh_eq hfresh).2, (of_fresh_eq hfresh').2, hserial])
  rw [← (of_fresh_eq hfresh).1, ← (of_fresh_eq hfresh').1, hsame]

theorem Known.lt_next (h : Known o) {m : Composed} (hm : ∃ queued ∈ o.enqueued, fresh queued = fresh m) :
    m.serial < o.next := by
  obtain ⟨queued, hqueued, hfresh⟩ := hm
  rw [← (of_fresh_eq hfresh).2]
  exact h.below queued hqueued

theorem serial_flushFailed (message : Composed) :
    (o.flushFailed message).storage.map (·.serial) = o.storage.map (·.serial) := by
  show (o.storage.map _).map _ = _
  rw [List.map_map]
  refine List.map_congr_left fun queued _ => ?_
  show Composed.serial (if _ then _ else _) = _
  split <;> rfl

/-- A flush that is called finds no other one under way, or nothing to send. -/
def FlushesAlone (o : Outbox) : Event → Prop
  | .flush => o.status = .connected → o.storage ≠ [] → o.Idle
  | _ => True

theorem Once.step (h : Once o) (hknown : Known o) (hmoves : Moves o e o') (halone : o.FlushesAlone e) : Once o' := by
  cases hmoves with
  | sendNow message hserial hstatus =>
    refine h.append (Nat.le_succ _) (Nat.lt_of_le_of_lt (Nat.le_of_eq hserial) (Nat.lt_succ_self _))
      (fun hwaiting => nomatch hwaiting.1) (fun c hc _ => ?_) (fun m hm hsame => ?_)
      (fun c hc _ rest hrest m hm hsame => ?_) nofun
    · rw [hserial]
      exact Nat.ne_of_lt (h.called c hc)
    · have hlt := hknown.lt_next (hknown.stored m hm)
      have hsame : message.serial = m.serial := hsame
      omega
    · have hlt := hknown.lt_next (hknown.flushing c hc rest hrest m (List.mem_cons_of_mem _ hm))
      have hsame : message.serial = m.serial := hsame
      omega
  | enqueue message hserial hstatus =>
    refine ⟨?_, fun c hc => Nat.lt_succ_of_lt (h.called c hc), h.alone, h.distinct,
      fun m hm c hc halive hsame => ?_, h.ahead⟩
    · refine List.pairwise_append.mpr ⟨h.increasing, List.pairwise_singleton _ _, fun m hm m' hm' => ?_⟩
      rw [List.mem_singleton.mp hm', hserial]
      exact hknown.lt_next (hknown.stored m hm)
    · rcases List.mem_append.mp hm with hm | hm
      · exact h.stored m hm c hc halive hsame
      · have hlt := h.called c hc
        rw [List.mem_singleton.mp hm] at hsame
        omega
  | setStatus status => exact ⟨h.increasing, h.called, h.alone, h.distinct, h.stored, h.ahead⟩
  | ignore _ => exact h
  | flush hstatus =>
    by_cases hempty : o.storage = []
    · have hnothing : o.calls ++ nextCall o.status o.storage = o.calls := by rw [hempty, nextCall, List.append_nil]
      rw [hnothing]
      exact h
    · have hidle : o.Idle := halone hstatus hempty
      refine h.goesOn hidle h.increasing (fun m hm => hknown.lt_next (hknown.stored m hm))
        fun m hm c hc halive hsame => ?_
      exact hidle c hc (h.stored m hm c hc halive hsame)
  | settleOne position call ok hcall hresult hrest =>
    refine h.withResult hcall hresult fun _ hwaiting => ?_
    rw [Waiting, hrest] at hwaiting
    cases hwaiting.1
  | flushed position call rest hcall hresult hrest =>
    have hmem : call ∈ o.calls := List.mem_of_getElem? hcall
    have hwaiting : Waiting call := ⟨by rw [hrest]; rfl, hresult⟩
    obtain ⟨hincreasing, hnew⟩ := h.ahead call hmem hresult rest hrest
    have hflushing := hknown.flushing call hmem rest hrest
    have hstore : Once (o.dequeueOfflineMessage call.message.localMessageId) :=
      h.store ((List.filter_sublist).map _)
    have hsent : Once ((o.dequeueOfflineMessage call.message.localMessageId).withResult position call true) := by
      refine hstore.withResult hcall hresult fun _ _ m hm hsame => ?_
      obtain ⟨hm, hid⟩ := List.mem_filter.mp hm
      exact of_decide_eq_true hid (hknown.same_id (hknown.stored m hm) (hflushing _ List.mem_cons_self) hsame.symm)
    refine hsent.goesOn (h.idle_withResult hcall hwaiting) hincreasing.of_cons
      (fun m hm => hknown.lt_next (hflushing m (List.mem_cons_of_mem _ hm))) fun m hm c hc halive => ?_
    obtain ⟨c₀, hc₀, halive₀, hsame⟩ := alive_withResult hcall hresult hc halive
    rw [← hsame]
    exact hnew m hm c₀ hc₀ halive₀
  | failed position call rest hcall hresult hrest =>
    have hfailed : Once (o.withResult position call false) := h.withResult hcall hresult nofun
    refine hfailed.store ?_
    show List.Sublist (((o.withResult position call false).flushFailed call.message).storage.map (·.serial)) _
    rw [serial_flushFailed]

/-- Two calls that have resolved were for different messages. -/
def SentOnce (o : Outbox) : Prop :=
  o.calls.Pairwise fun c c' => c.result = some true → c'.result = some true → c.message.serial ≠ c'.message.serial

theorem alive_of_sent {call : SendCall} (h : call.result = some true) : Alive call := by
  rw [Alive, h]
  exact nofun

theorem once_start (queue : List QueuedMessage) : Once (start queue) where
  increasing := (known_start queue).increasing
  called := nofun
  alone := .nil
  distinct := .nil
  stored _ _ := nofun
  ahead := nofun

instance (o : Outbox) : ∀ e, Decidable (o.FlushesAlone e)
  | .flush => inferInstanceAs (Decidable (_ → _ → _))
  | .compose .. => .isTrue trivial
  | .status _ => .isTrue trivial
  | .settle .. => .isTrue trivial

/-- If no flush starts while another one waits, no message is sent twice. -/
theorem sent_once (queue : List QueuedMessage) {es : List Event} {o : Outbox}
    (hrun : run step (start queue) es = some o) (halone : Along step FlushesAlone (start queue) es) : SentOnce o := by
  have honce : Throughout step Once (start queue) es :=
    throughout_of_along (J := Known) (fun o e o' hknown hstep => hknown.step (moves_of_step hstep))
      (fun o e o' hknown honce hstep hflush => honce.step hknown (moves_of_step hstep) hflush)
      (known_start queue) (once_start queue) halone
  exact (honce.last hrun).distinct.imp fun hne hsent hsent' => hne (alive_of_sent hsent) (alive_of_sent hsent')

theorem sent_once_flushTwo :
    ∃ o, run step (start []) (flushTwo ++ [Event.settle 0 true, .settle 1 true]) = some o ∧
      (o.calls.map fun call => (call.message.serial, call.result)) = [(0, some true), (1, some true)] ∧ SentOnce o :=
  ⟨_, rfl, rfl, @sent_once [] (flushTwo ++ [Event.settle 0 true, .settle 1 true]) _ rfl (by decide)⟩

/-- The connection is lost and made again while the first message is being sent:
the second flush sends it as well. -/
theorem message_sent_twice :
    ∃ o, run step (start []) [.compose (.direct 5) (lit "a") (lit "first") 0, .status .connected, .flush,
      .status .disconnected, .status .connected, .flush, .settle 0 true, .settle 1 true] = some o ∧ ¬SentOnce o := by
  refine ⟨_, rfl, fun h => ?_⟩
  exact List.rel_of_pairwise_cons h List.mem_cons_self rfl rfl rfl

/-! ## In which order -/

/-- No message for the target is in the queue, or ahead of a flush. -/
def NothingFor (o : Outbox) (target : Target) : Prop :=
  (∀ queued ∈ o.storage, queued.target ≠ target) ∧
    ∀ call ∈ o.calls, call.result = none → ∀ queued ∈ call.rest.getD [], queued.target ≠ target

instance (o : Outbox) (target : Target) : Decidable (o.NothingFor target) := inferInstanceAs (Decidable (_ ∧ _))

/-- No message is sent past one that has been queued for the same target, and no
flush starts while another one waits. -/
def KeepsOrder (o : Outbox) : Event → Prop
  | .compose target .. => o.status = .connected → o.NothingFor target
  | e => o.FlushesAlone e

/-- The messages that are sent, those that a flush is to send, those that are in the
queue besides: for each target, in this order. -/
structure Ordered (o : Outbox) : Prop where
  sent : o.calls.Pairwise fun c c' => Alive c → Alive c' → c.message.target = c'.message.target →
    c.message.serial ≤ c'.message.serial
  behind : ∀ message ∈ o.storage, ∀ c ∈ o.calls, Alive c → c.message.target = message.target →
    c.message.serial ≤ message.serial
  ahead : ∀ call ∈ o.calls, call.result = none → ∀ rest, call.rest = some rest → ∀ message ∈ rest,
    ∀ c ∈ o.calls, Alive c → c.message.target = message.target → c.message.serial ≤ message.serial
  newer : ∀ call ∈ o.calls, call.result = none → ∀ rest, call.rest = some rest → ∀ message ∈ o.storage,
    message.serial ∈ (call.message :: rest).map (·.serial) ∨ ∀ m ∈ call.message :: rest, m.serial < message.serial

/-- One more call, when no flush is under way or for the newest message. -/
theorem Ordered.append (h : Ordered o) {call : SendCall} {next : Nat}
    (hsent : ∀ c ∈ o.calls, Alive c → c.message.target = call.message.target → c.message.serial ≤ call.message.serial)
    (hbehind : ∀ message ∈ o.storage, call.message.target = message.target → call.message.serial ≤ message.serial)
    (hbefore : ∀ c ∈ o.calls, c.result = none → ∀ rest, c.rest = some rest → ∀ message ∈ rest,
      call.message.target = message.target → call.message.serial ≤ message.serial)
    (hahead : ∀ rest, call.rest = some rest → ∀ message ∈ rest, call.message.serial ≤ message.serial ∧
      ∀ c ∈ o.calls, Alive c → c.message.target = message.target → c.message.serial ≤ message.serial)
    (hnewer : ∀ rest, call.rest = some rest → ∀ message ∈ o.storage,
      message.serial ∈ (call.message :: rest).map (·.serial) ∨ ∀ m ∈ call.message :: rest, m.serial < message.serial) :
    Ordered { o with calls := o.calls ++ [call], next := next } where
  sent := by
    refine List.pairwise_append.mpr ⟨h.sent, List.pairwise_singleton _ _, fun c hc c' hc' halive _ => ?_⟩
    rw [List.mem_singleton.mp hc']
    exact hsent c hc halive
  behind message hmessage c hc halive htarget := by
    rcases List.mem_append.mp hc with hc | hc
    · exact h.behind message hmessage c hc halive htarget
    · rw [List.mem_singleton.mp hc] at htarget ⊢
      exact hbehind message hmessage htarget
  ahead c hc hnone rest hrest message hmessage c' hc' halive htarget := by
    rcases List.mem_append.mp hc with hc | hc <;> rcases List.mem_append.mp hc' with hc' | hc'
    · exact h.ahead c hc hnone rest hrest message hmessage c' hc' halive htarget
    · rw [List.mem_singleton.mp hc'] at htarget ⊢
      exact hbefore c hc hnone rest hrest message hmessage htarget
    · rw [List.mem_singleton.mp hc] at hrest
      exact (hahead rest hrest message hmessage).2 c' hc' halive htarget
    · rw [List.mem_singleton.mp hc] at hrest
      rw [List.mem_singleton.mp hc']
      exact (hahead rest hrest message hmessage).1
  newer c hc hnone rest hrest := by
    rcases List.mem_append.mp hc with hc | hc
    · exact h.newer c hc hnone rest hrest
    · rw [List.mem_singleton.mp hc] at hrest ⊢
      exact hnewer rest hrest

theorem Ordered.goesOn (h : Ordered o) (hidle : o.Idle) {messages : List Composed}
    (hincreasing : messages.Pairwise fun m m' => m.serial < m'.serial)
    (hsent : ∀ m ∈ messages, ∀ c ∈ o.calls, Alive c → c.message.target = m.target → c.message.serial ≤ m.serial)
    (hnewer : ∀ message ∈ o.storage,
      message.serial ∈ messages.map (·.serial) ∨ ∀ m ∈ messages, m.serial < message.serial) :
    Ordered { o with calls := o.calls ++ nextCall o.status messages } := by
  cases messages with
  | nil =>
    rw [nextCall, List.append_nil]
    exact h
  | cons message rest =>
    refine h.append (hsent message List.mem_cons_self) (fun m hm _ => ?_) (fun c hc hnone rest' hrest => ?_)
      (fun rest' hrest m hm => ?_) (fun rest' hrest => ?_)
    · rcases hnewer m hm with hmem | hlt
      · obtain ⟨m', hm', hsame⟩ := List.mem_map.mp hmem
        rw [← hsame]
        rcases List.mem_cons.mp hm' with rfl | hm'
        · exact Nat.le_refl _
        · exact Nat.le_of_lt (List.rel_of_pairwise_cons hincreasing hm')
      · exact Nat.le_of_lt (hlt message List.mem_cons_self)
    · exact absurd ⟨by rw [hrest]; rfl, hnone⟩ (hidle c hc)
    · cases hrest
      exact ⟨Nat.le_of_lt (List.rel_of_pairwise_cons hincreasing hm), hsent m (List.mem_cons_of_mem _ hm)⟩
    · cases hrest
      exact hnewer

theorem Ordered.withResult (h : Ordered o) {call : SendCall} {position : Nat} {ok : Bool}
    (hcall : o.calls[position]? = some call) (hresult : call.result = none) :
    Ordered (o.withResult position call ok) where
  sent := by
    have halive : Alive call := by
      rw [Alive, hresult]
      exact nofun
    exact pairwise_set h.sent hcall (fun _ hr _ => hr halive) (fun _ hr hc _ => hr hc halive)
  behind message hmessage c hc halive htarget := by
    obtain ⟨c₀, hc₀, halive₀, hsame⟩ := alive_withResult hcall hresult hc halive
    rw [← hsame] at htarget ⊢
    exact h.behind message hmessage c₀ hc₀ halive₀ htarget
  ahead c hc hnone rest hrest message hmessage c' hc' halive htarget := by
    rcases mem_withResult hcall hc with hc | ⟨rfl, -⟩
    · obtain ⟨c₀, hc₀, halive₀, hsame⟩ := alive_withResult hcall hresult hc' halive
      rw [← hsame] at htarget ⊢
      exact h.ahead c hc hnone rest hrest message hmessage c₀ hc₀ halive₀ htarget
    · cases hnone
  newer c hc hnone := by
    rcases mem_withResult hcall hc with hc | ⟨rfl, -⟩
    · exact h.newer c hc hnone
    · cases hnone

theorem Ordered.store (h : Ordered o) {storage : List Composed}
    (hstorage : ∀ m ∈ storage, ∃ m' ∈ o.storage, m'.serial = m.serial ∧ m'.target = m.target) :
    Ordered { o with storage := storage } where
  sent := h.sent
  behind message hmessage c hc halive htarget := by
    obtain ⟨m, hm, hserial, htarget'⟩ := hstorage message hmessage
    rw [← hserial]
    exact h.behind m hm c hc halive (htarget.trans htarget'.symm)
  ahead := h.ahead
  newer c hc hnone rest hrest message hmessage := by
    obtain ⟨m, hm, hserial, -⟩ := hstorage message hmessage
    rw [← hserial]
    exact h.newer c hc hnone rest hrest m hm

theorem Ordered.step (h : Ordered o) (honce : Once o) (hknown : Known o) (hmoves : Moves o e o')
    (hkeeps : o.KeepsOrder e) : Ordered o' := by
  cases hmoves with
  | sendNow message hserial hstatus =>
    obtain ⟨hstored, hflushing⟩ := hkeeps hstatus
    refine h.append (fun c hc _ _ => ?_) (fun m hm htarget => absurd htarget.symm (hstored m hm))
      (fun c hc hnone rest hrest m hm htarget => ?_) nofun nofun
    · rw [hserial]
      exact Nat.le_of_lt (honce.called c hc)
    · refine absurd htarget.symm (hflushing c hc hnone m ?_)
      rw [hrest]
      exact hm
  | enqueue message hserial hstatus =>
    refine ⟨h.sent, fun m hm c hc halive htarget => ?_, h.ahead, fun c hc hnone rest hrest m hm => ?_⟩
    · rcases List.mem_append.mp hm with hm | hm
      · exact h.behind m hm c hc halive htarget
      · rw [List.mem_singleton.mp hm, hserial]
        exact Nat.le_of_lt (honce.called c hc)
    · rcases List.mem_append.mp hm with hm | hm
      · exact h.newer c hc hnone rest hrest m hm
      · rw [List.mem_singleton.mp hm, hserial]
        exact .inr fun m' hm' => hknown.lt_next (hknown.flushing c hc rest hrest m' hm')
  | setStatus status => exact ⟨h.sent, h.behind, h.ahead, h.newer⟩
  | ignore _ => exact h
  | flush hstatus =>
    by_cases hempty : o.storage = []
    · have hnothing : o.calls ++ nextCall o.status o.storage = o.calls := by rw [hempty, nextCall, List.append_nil]
      rw [hnothing]
      exact h
    · exact h.goesOn (hkeeps hstatus hempty) honce.increasing h.behind fun m hm => .inl (List.mem_map_of_mem hm)
  | settleOne position call ok hcall hresult _ => exact h.withResult hcall hresult
  | flushed position call rest hcall hresult hrest =>
    have hmem : call ∈ o.calls := List.mem_of_getElem? hcall
    have hwaiting : Waiting call := ⟨by rw [hrest]; rfl, hresult⟩
    have hflushing := hknown.flushing call hmem rest hrest
    have hstore : Ordered (o.dequeueOfflineMessage call.message.localMessageId) :=
      h.store fun m hm => ⟨m, (List.mem_filter.mp hm).1, rfl, rfl⟩
    have hsent : Ordered ((o.dequeueOfflineMessage call.message.localMessageId).withResult position call true) :=
      hstore.withResult hcall hresult
    refine hsent.goesOn (honce.idle_withResult hcall hwaiting) (honce.ahead call hmem hresult rest hrest).1.of_cons
      (fun m hm c hc halive htarget => ?_) fun m hm => ?_
    · obtain ⟨c₀, hc₀, halive₀, hsame⟩ := alive_withResult hcall hresult hc halive
      rw [← hsame] at htarget ⊢
      exact h.ahead call hmem hresult rest hrest m hm c₀ hc₀ halive₀ htarget
    · obtain ⟨hm, hid⟩ := List.mem_filter.mp hm
      have hother : m.serial ≠ call.message.serial := fun hsame =>
        of_decide_eq_true hid (hknown.same_id (hknown.stored m hm) (hflushing _ List.mem_cons_self) hsame)
      rcases h.newer call hmem hresult rest hrest m hm with hserial | hlt
      · rw [List.map_cons] at hserial
        exact .inl ((List.mem_cons.mp hserial).resolve_left hother)
      · exact .inr fun m' hm' => hlt m' (List.mem_cons_of_mem _ hm')
  | failed position call rest hcall hresult _ =>
    have hfailed : Ordered (o.withResult position call false) := h.withResult hcall hresult
    refine hfailed.store fun m hm => ?_
    obtain ⟨queued, hqueued, rfl⟩ := List.mem_map.mp hm
    refine ⟨queued, hqueued, ?_⟩
    split <;> exact ⟨rfl, rfl⟩

/-- Of two calls for one target that have resolved, the first was not for the newer message. -/
def SentInOrder (o : Outbox) : Prop :=
  o.calls.Pairwise fun c c' => c.result = some true → c'.result = some true → c.message.target = c'.message.target →
    c.message.serial ≤ c'.message.serial

theorem ordered_start (queue : List QueuedMessage) : Ordered (start queue) where
  sent := .nil
  behind _ _ := nofun
  ahead := nofun
  newer := nofun

instance (o : Outbox) : ∀ e, Decidable (o.KeepsOrder e)
  | .compose .. => inferInstanceAs (Decidable (_ → _))
  | .status _ => .isTrue trivial
  | .flush => inferInstanceAs (Decidable (o.FlushesAlone .flush))
  | .settle .. => .isTrue trivial

theorem flushesAlone_of_keepsOrder (h : o.KeepsOrder e) : o.FlushesAlone e := by
  cases e with
  | compose => trivial
  | _ => exact h

/-- If no flush starts while another one waits, and no message is sent past the queue,
the messages for a target are sent in the order in which they were written. -/
theorem sent_in_order (queue : List QueuedMessage) {es : List Event} {o : Outbox}
    (hrun : run step (start queue) es = some o) (hkeeps : Along step KeepsOrder (start queue) es) : SentInOrder o := by
  have hordered : Throughout step (fun o => Once o ∧ Ordered o) (start queue) es := by
    refine throughout_of_along (J := Known) (fun o e o' hknown hstep => hknown.step (moves_of_step hstep))
      (fun o e o' hknown hinv hstep hkeep => ?_) (known_start queue) ⟨once_start queue, ordered_start queue⟩ hkeeps
    have hmoves := moves_of_step hstep
    exact ⟨hinv.1.step hknown hmoves (flushesAlone_of_keepsOrder hkeep), hinv.2.step hinv.1 hknown hmoves hkeep⟩
  exact (hordered.last hrun).2.sent.imp fun hle hsent hsent' => hle (alive_of_sent hsent) (alive_of_sent hsent')

/-- Two messages are queued for a user and flushed; a third one is sent when they are. -/
def writeThree : List Event :=
  [.compose (.direct 5) (lit "a") (lit "first") 0, .compose (.direct 5) (lit "b") (lit "second") 1,
    .status .connected, .flush, .settle 0 true, .settle 1 true, .compose (.direct 5) (lit "c") (lit "third") 2,
    .settle 2 true]

theorem sent_in_order_writeThree :
    ∃ o, run step (start []) writeThree = some o ∧
      (o.calls.map fun call => (call.message.serial, call.result)) = [(0, some true), (1, some true), (2, some true)] ∧
      SentInOrder o :=
  ⟨_, rfl, rfl, @sent_in_order [] writeThree _ rfl (by decide)⟩

/-- The third message is sent while the flush waits for the first one: it is ahead
of the second. -/
theorem message_sent_early :
    ∃ o, run step (start []) [.compose (.direct 5) (lit "a") (lit "first") 0,
      .compose (.direct 5) (lit "b") (lit "second") 1, .status .connected, .flush,
      .compose (.direct 5) (lit "c") (lit "third") 2, .settle 0 true, .settle 1 true, .settle 2 true] = some o ∧
        ¬SentInOrder o := by
  refine ⟨_, rfl, fun h => ?_⟩
  have hle := List.rel_of_pairwise_cons (List.Pairwise.of_cons h) List.mem_cons_self rfl rfl rfl
  exact absurd hle (by decide)

end Outbox

end Client

end LanChat
