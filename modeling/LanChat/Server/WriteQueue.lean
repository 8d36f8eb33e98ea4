import LanChat.Lib.Run
import LanChat.Server.AsyncSession
import LanChat.Server.FrameStream

/-!
# The write queue of a session

`deliver` queues a frame and `doWrite` hands the rest of the first frame to the
socket. The socket completes the write later, with a part of the buffer or with
an error, and frames can be delivered at any point in between.

The queue is a `std::vector<std::string>` and the buffer of a write points into its
first string. When the vector has no room for another frame it moves its strings: a
long string keeps its characters where they are, a short one has them in itself, and
then the buffer dangles.
-/

namespace LanChat

open Lib

namespace AsyncSession

/-- `doWrite`, with the buffer of the write that it starts. -/
def doWrite (s : AsyncSession) : AsyncSession × Option Bytes :=
  match s.write_queue with
  | [] => ({ s with writing := false }, none)
  | front :: _ => ({ s with writing := true }, some (front.drop s.write_offset))

def push (frame : Bytes) (s : AsyncSession) : AsyncSession := { s with write_queue := s.write_queue ++ [frame] }

/-- `deliver`, with the buffer of the write that it starts. -/
def send (s : AsyncSession) (json : Bytes) : Except Exn (AsyncSession × Option Bytes) :=
  match FrameCodec.encode json with
  | none => .error .frameTooLarge
  | some frame => .ok (if s.writing then (s.push frame, none) else (s.push frame).doWrite)

/-- The handler of a write that has failed. -/
def writeFailed (s : AsyncSession) : AsyncSession :=
  { s with write_queue := [], write_offset := 0, writing := false }

/-- The handler of a write that has written `bytes` bytes. It reads the front of
the queue, which is undefined when the queue is empty: `none`. -/
def written (bytes : Nat) (s : AsyncSession) : Option (AsyncSession × Option Bytes) :=
  let s := { s with write_offset := s.write_offset + bytes }
  match s.write_queue with
  | [] => none
  | front :: rest =>
    if s.write_offset < front.length then some s.doWrite
    else some (doWrite { s with write_queue := rest, write_offset := 0 })

/-- What the queue still has to write. -/
def pending (s : AsyncSession) : Bytes := s.write_queue.flatten.drop s.write_offset

/-- The buffer of the write that the queue waits for. -/
def inFlight (s : AsyncSession) : Option Bytes := s.write_queue.head?.map fun front => front.drop s.write_offset

/-- The offset lies inside the first frame, and a frame is never empty. -/
structure Queued (s : AsyncSession) : Prop where
  frames : ∀ frame ∈ s.write_queue, frame ≠ []
  offset : ∀ front ∈ s.write_queue.head?, s.write_offset < front.length
  idle : s.write_queue = [] → s.write_offset = 0

/-- The queue waits for a write exactly when it is not empty. -/
structure Waiting (s : AsyncSession) : Prop extends Queued s where
  writing : s.writing = true ↔ s.write_queue ≠ []

theorem doWrite_eq (s : AsyncSession) :
    s.doWrite = ({ s with writing := !s.write_queue.isEmpty }, s.inFlight) := by
  unfold doWrite
  split <;> simp [inFlight, *]

/-- `send` does to the session what `deliver` does. -/
theorem send_deliver (s : AsyncSession) (json : Bytes) : (s.send json).map Prod.fst = s.deliver json := by
  unfold send deliver
  cases FrameCodec.encode json with
  | none => rfl
  | some frame =>
    simp only [doWrite_eq, Except.map]
    cases hwriting : s.writing <;> simp [push, hwriting]

section Queue

variable {s : AsyncSession}

theorem inFlight_eq_none : s.inFlight = none ↔ s.write_queue = [] := by
  simp [inFlight]

/-- `doWrite` starts the write that the queue then waits for. -/
theorem Queued.doWrite (h : s.Queued) :
    s.doWrite.1.Waiting ∧ s.doWrite.1.pending = s.pending ∧ s.doWrite.2 = s.doWrite.1.inFlight := by
  rw [doWrite_eq]
  exact ⟨⟨⟨h.frames, h.offset, h.idle⟩, by simp⟩, rfl, rfl⟩

theorem Waiting.length_offset (h : s.Waiting) : s.write_offset ≤ s.write_queue.flatten.length := by
  rcases hqueue : s.write_queue with _ | ⟨front, rest⟩
  · rw [h.idle hqueue]
    exact Nat.zero_le _
  · have := h.offset front (by simp [hqueue])
    rw [List.flatten_cons, List.length_append]
    exact this.le.trans (Nat.le_add_right _ _)

theorem Waiting.push (h : s.Waiting) {frame : Bytes} (hne : frame ≠ []) : (s.push frame).Queued where
  frames := by
    intro f hf
    rcases List.mem_append.mp hf with hf | hf
    · exact h.frames f hf
    · rwa [List.mem_singleton.mp hf]
  offset := by
    intro f hf
    change f ∈ (s.write_queue ++ [frame]).head? at hf
    show s.write_offset < f.length
    rcases hqueue : s.write_queue with _ | ⟨front, rest⟩
    · rw [hqueue] at hf
      cases hf
      rw [h.idle hqueue]
      exact List.length_pos_iff.mpr hne
    · rw [hqueue] at hf
      cases hf
      exact h.offset f (by rw [hqueue]; rfl)
  idle := fun hqueue => absurd hqueue (List.append_ne_nil_of_right_ne_nil _ (List.cons_ne_nil _ _))

theorem Waiting.pending_push (h : s.Waiting) (frame : Bytes) : (s.push frame).pending = s.pending ++ frame := by
  show (s.write_queue ++ [frame]).flatten.drop s.write_offset = s.write_queue.flatten.drop s.write_offset ++ frame
  rw [List.flatten_append, List.flatten_singleton, List.drop_append_of_le_length h.length_offset]

/-- A frame that is delivered comes after what is pending, and a write is started
unless one is outstanding. -/
theorem Waiting.send (h : s.Waiting) {json frame : Bytes} (hframe : FrameCodec.encode json = some frame)
    (hne : frame ≠ []) :
    ∃ r, s.send json = .ok r ∧ r.1.Waiting ∧ r.1.pending = s.pending ++ frame ∧
      (r.2 = none ∧ r.1.write_queue.head? = s.write_queue.head? ∧ r.1.inFlight = s.inFlight ∨
        s.write_queue = [] ∧ r.2 = r.1.inFlight) := by
  refine ⟨_, by rw [AsyncSession.send, hframe], ?_⟩
  cases hwriting : s.writing with
  | true =>
    have hqueue := h.writing.mp hwriting
    have hhead : (s.push frame).write_queue.head? = s.write_queue.head? :=
      List.head?_append_of_ne_nil _ hqueue
    refine ⟨⟨h.push hne, ?_⟩, h.pending_push frame, .inl ⟨rfl, hhead, ?_⟩⟩
    · exact iff_of_true hwriting (List.append_ne_nil_of_left_ne_nil hqueue _)
    · exact congrArg (Option.map fun front => front.drop s.write_offset) hhead
  | false =>
    have hqueue : s.write_queue = [] := by
      by_contra hne
      exact absurd (h.writing.mpr hne) (by simp [hwriting])
    obtain ⟨hw, hp, hi⟩ := (h.push hne).doWrite
    exact ⟨hw, hp.trans (h.pending_push frame), .inr ⟨hqueue, hi⟩⟩

/-- What a write reports is taken off what is pending, and the next write is started. -/
theorem Waiting.written (h : s.Waiting) {buffer : Bytes} {n : Nat} (hbuffer : s.inFlight = some buffer)
    (hn : n ≤ buffer.length) :
    ∃ r, s.written n = some r ∧ r.1.Waiting ∧ s.pending = buffer.take n ++ r.1.pending ∧
      r.2 = r.1.inFlight := by
  rcases hqueue : s.write_queue with _ | ⟨front, rest⟩
  · rw [inFlight_eq_none.mpr hqueue] at hbuffer
    cases hbuffer
  have hfront : s.write_offset < front.length := h.offset front (by simp [hqueue])
  obtain rfl : front.drop s.write_offset = buffer := by
    simpa [inFlight, hqueue] using hbuffer
  rw [List.length_drop] at hn
  have hpending : s.pending = front.drop s.write_offset ++ rest.flatten := by
    rw [pending, hqueue, List.flatten_cons, List.drop_append_of_le_length hfront.le]
  simp only [AsyncSession.written, hqueue]
  split
  · next hmore =>
    have hq : Queued { s with write_offset := s.write_offset + n } := by
      refine ⟨h.frames, fun f hf => ?_, fun he => ?_⟩
      · obtain rfl : front = f := by simpa [hqueue] using hf
        exact hmore
      · exact absurd (hqueue.symm.trans he) (List.cons_ne_nil _ _)
    obtain ⟨hw, hp, hi⟩ := hq.doWrite
    refine ⟨_, by rw [hqueue], hw, ?_, hi⟩
    rw [hp, hpending, pending, hqueue, List.flatten_cons, List.drop_append_of_le_length (by exact hmore.le),
      ← List.drop_drop, ← List.append_assoc, List.take_append_drop]
  · next hdone =>
    have hq : Queued { s with write_offset := 0, write_queue := rest } := by
      refine ⟨fun f hf => h.frames f (by simp [hqueue, hf]), fun f hf => ?_, fun _ => rfl⟩
      exact List.length_pos_iff.mpr (h.frames f (by
        rw [hqueue]
        exact List.mem_cons_of_mem _ (List.mem_of_mem_head? hf)))
    obtain ⟨hw, hp, hi⟩ := hq.doWrite
    refine ⟨_, rfl, hw, ?_, hi⟩
    rw [hp, hpending, List.take_of_length_le (by rw [List.length_drop]; omega)]
    rfl

theorem writeFailed_waiting (s : AsyncSession) : s.writeFailed.Waiting where
  frames := by simp [writeFailed]
  offset := by simp [writeFailed]
  idle := fun _ => rfl
  writing := by simp [writeFailed]

end Queue

end AsyncSession

/-! ## The session and its socket -/

/-- The buffer of a write that is outstanding: the bytes that were there when the write
was started, whether they lie inside the string object, and whether it has been moved. -/
structure Buffer where
  bytes : Bytes
  inside : Bool
  dangles : Bool
deriving DecidableEq

namespace Buffer

/-- A `std::string` has up to so many characters in itself. -/
def smallString : Nat := 15

/-- The strings of the vector have been moved. -/
def moved (b : Buffer) : Buffer := { b with dangles := b.dangles || b.inside }

/-- The socket may send these bytes. Nothing is known of what a dangling pointer points to. -/
def Sends (b : Buffer) (sent : Bytes) : Prop :=
  1 ≤ sent.length ∧ sent.length ≤ b.bytes.length ∧ (b.dangles = false → sent <+: b.bytes)

instance (b : Buffer) (sent : Bytes) : Decidable (b.Sends sent) :=
  inferInstanceAs (Decidable (_ ∧ _ ∧ _))

/-- Of a buffer that does not dangle, the first bytes are sent. -/
theorem Sends.take {b : Buffer} {sent : Bytes} (h : b.Sends sent) (hsteady : b.dangles = false) :
    sent = b.bytes.take sent.length :=
  List.prefix_iff_eq_take.mp (h.2.2 hsteady)

end Buffer

/-- A session with its socket: the buffers of the writes that are outstanding,
the bytes that have been sent, whether a write has failed, and the capacity of
`write_queue_`. -/
structure Connection where
  session : AsyncSession
  outstanding : List Buffer
  written : Bytes
  failed : Bool
  capacity : Nat

namespace Connection

/-- What can happen to the write queue. The socket can complete any of the
writes that are outstanding. -/
inductive Event where
  | deliver (json : Bytes)
  | completes (i : Nat) (sent : Bytes)
  | fails (i : Nat)
deriving DecidableEq

/-- A new session. -/
def create (now : Int) : Connection := ⟨.construct now, [], [], false, 0⟩

/-- The buffer of the write that a call has started. -/
def started (r : AsyncSession × Option Bytes) : List Buffer :=
  r.2.toList.map fun bytes =>
    ⟨bytes, r.1.write_queue.head?.any fun front => front.length ≤ Buffer.smallString, false⟩

/-- The session after a call, and the write that the call has started. -/
def call (r : AsyncSession × Option Bytes) (c : Connection) : Connection :=
  { c with session := r.1, outstanding := c.outstanding ++ started r }

section Step

variable (grow : Nat → Nat)

/-- `push_back` on a vector without room; `grow` is how the library enlarges it. -/
def reserve (c : Connection) : Connection :=
  if c.session.write_queue.length = c.capacity then
    { c with outstanding := c.outstanding.map Buffer.moved, capacity := grow c.capacity }
  else c

/-- A frame that is too large is not delivered. A write reports at least one byte
and at most those of its buffer; after a failure none succeeds. -/
def step (c : Connection) : Event → Option Connection
  | .deliver json =>
    match c.session.send json with
    | .error _ => some c
    | .ok r => some ((c.reserve grow).call r)
  | .completes i sent => do
    let buffer ← c.outstanding[i]?
    if c.failed = false ∧ buffer.Sends sent then
      let r ← c.session.written sent.length
      let outstanding := c.outstanding.eraseIdx i
      some (call r { c with outstanding := outstanding, written := c.written ++ sent })
    else none
  | .fails i => do
    let _ ← c.outstanding[i]?
    some { c with session := c.session.writeFailed, outstanding := c.outstanding.eraseIdx i, failed := true }

end Step

/-- The frames that have been delivered, in order. -/
def delivered (events : List Event) : List Bytes :=
  events.filterMap fun event =>
    match event with
    | .deliver json => FrameCodec.encode json
    | _ => none

/-- When the vector has no room for the frame and a write is outstanding, the
characters of the frame that it writes lie outside of the string. -/
def StaysPut (c : Connection) : Event → Prop
  | .deliver _ => c.outstanding ≠ [] → c.session.write_queue.length = c.capacity →
    ∀ front ∈ c.session.write_queue.head?, Buffer.smallString < front.length
  | _ => True

instance (c : Connection) : ∀ event, Decidable (StaysPut c event)
  | .deliver _ => inferInstanceAs (Decidable (_ → _ → ∀ front ∈ c.session.write_queue.head?, _))
  | .completes _ _ | .fails _ => .isTrue trivial

/-- What the queue owes to the frames that have been delivered. -/
structure Accounts (frames : List Bytes) (c : Connection) : Prop where
  waiting : c.session.Waiting
  outstanding : c.outstanding = started (c.session, c.session.inFlight)
  written : c.written <+: frames.flatten
  pending : c.failed = false → c.written ++ c.session.pending = frames.flatten

/-- What the peer and the socket may rely on. -/
structure Orderly (frames : List Bytes) (c : Connection) : Prop where
  single : c.outstanding.length ≤ 1
  writing : c.session.writing = true ↔ c.outstanding ≠ []
  inOrder : c.written <+: frames.flatten
  complete : c.failed = false → c.outstanding = [] → c.written = frames.flatten
  defined : ∀ grow i sent buffer, c.outstanding[i]? = some buffer → c.failed = false → buffer.Sends sent →
    (step grow c (.completes i sent)).isSome

variable {grow : Nat → Nat} {frames : List Bytes} {c c' : Connection}

theorem started_eq_nil {s : AsyncSession} : started (s, s.inFlight) = [] ↔ s.write_queue = [] := by
  rw [started, List.map_eq_nil_iff, Option.toList_eq_nil_iff, AsyncSession.inFlight_eq_none]

theorem Accounts.create (now : Int) : Accounts [] (create now) where
  waiting := (AsyncSession.construct now).writeFailed_waiting
  outstanding := rfl
  written := List.prefix_rfl
  pending := fun _ => rfl

theorem encode_ne_nil {json frame : Bytes} (h : FrameCodec.encode json = some frame) : frame ≠ [] := by
  rintro rfl
  unfold FrameCodec.encode at h
  split at h <;> simp [FrameCodec.header_eq] at h

/-- No buffer dangles when the vector has moved its strings. -/
theorem Accounts.reserve (h : Accounts frames c) {json : Bytes} (hput : StaysPut c (.deliver json)) :
    (c.reserve grow).session = c.session ∧ (c.reserve grow).written = c.written ∧
      (c.reserve grow).failed = c.failed ∧ (c.reserve grow).outstanding = c.outstanding := by
  unfold Connection.reserve
  split
  · next hfull =>
    refine ⟨rfl, rfl, rfl, ?_⟩
    show c.outstanding.map Buffer.moved = c.outstanding
    refine (List.map_congr_left fun b hb => ?_).trans (List.map_id' c.outstanding)
    have hlong := hput (List.ne_nil_of_mem hb) hfull
    rw [h.outstanding, started] at hb
    obtain ⟨bytes, -, rfl⟩ := List.mem_map.mp hb
    have hinside : (c.session.write_queue.head?.any fun front => front.length ≤ Buffer.smallString) = false := by
      rw [Option.any_eq_false]
      intro front hfront
      exact decide_eq_false (Nat.not_le.mpr (hlong front hfront))
    simp only [Buffer.moved, hinside, Bool.or_false]
  · exact ⟨rfl, rfl, rfl, rfl⟩

theorem Accounts.deliver (h : Accounts frames c) {json : Bytes} (hput : StaysPut c (.deliver json))
    (hs : step grow c (.deliver json) = some c') :
    Accounts (frames ++ (FrameCodec.encode json).toList) c' := by
  cases hencode : FrameCodec.encode json with
  | none =>
    simp only [step, AsyncSession.send, hencode] at hs
    cases hs
    simpa using h
  | some frame =>
    obtain ⟨r, hr, hw, hp, hi⟩ := h.waiting.send hencode (encode_ne_nil hencode)
    obtain ⟨-, hwritten, hfailed, houtstanding⟩ := @Accounts.reserve grow _ _ h _ hput
    have hframes : (frames ++ (some frame).toList).flatten = frames.flatten ++ frame := by
      rw [Option.toList_some, List.flatten_append, List.flatten_singleton]
    simp only [step, hr] at hs
    cases hs
    refine ⟨hw, ?_, ?_, fun hok => ?_⟩
    · show (c.reserve grow).outstanding ++ started r = started (r.1, r.1.inFlight)
      rw [houtstanding, h.outstanding]
      rcases hi with ⟨hnone, hhead, hsame⟩ | ⟨hempty, hstarts⟩
      · simp only [started, hnone, hhead, hsame, Option.toList_none, List.map_nil, List.append_nil]
      · rw [started_eq_nil.mpr hempty, List.nil_append, started, started, hstarts]
    · show (c.reserve grow).written <+: _
      rw [hwritten, hframes]
      exact h.written.trans (List.prefix_append _ _)
    · show (c.reserve grow).written ++ r.1.pending = _
      rw [hwritten, hp, ← List.append_assoc, h.pending (hfailed ▸ hok), hframes]

/-- At most one write is outstanding, so it is the one that completes, and it does not dangle. -/
theorem Accounts.completed (h : Accounts frames c) {i : Nat} {buffer : Buffer}
    (hi : c.outstanding[i]? = some buffer) :
    c.session.inFlight = some buffer.bytes ∧ buffer.dangles = false ∧ c.outstanding.eraseIdx i = [] := by
  rw [h.outstanding, started] at hi ⊢
  rcases hin : c.session.inFlight with _ | bytes
  · simp [hin] at hi
  · rw [hin] at hi
    cases i with
    | zero =>
      cases hi
      exact ⟨rfl, rfl, rfl⟩
    | succ i => simp at hi

theorem Accounts.completes (h : Accounts frames c) {i : Nat} {sent : Bytes}
    (hs : step grow c (.completes i sent) = some c') : Accounts frames c' := by
  simp only [step, Option.bind_eq_bind, Option.bind_eq_some_iff] at hs
  obtain ⟨buffer, hi, hs⟩ := hs
  split at hs
  · next hsends =>
    obtain ⟨hbuffer, hsteady, herase⟩ := h.completed hi
    obtain ⟨r, hr, hw, hp, hnext⟩ := h.waiting.written hbuffer hsends.2.2.1
    have haccount : (c.written ++ sent) ++ r.1.pending = frames.flatten := by
      rw [List.append_assoc, Buffer.Sends.take hsends.2 hsteady, ← hp]
      exact h.pending hsends.1
    simp only [hr, Option.bind_some] at hs
    cases hs
    refine ⟨hw, ?_, ?_, fun _ => haccount⟩
    · show c.outstanding.eraseIdx i ++ started r = started (r.1, r.1.inFlight)
      rw [herase, List.nil_append, started, started, hnext]
    · exact ⟨r.1.pending, haccount⟩
  · cases hs

theorem Accounts.fails (h : Accounts frames c) {i : Nat} (hs : step grow c (.fails i) = some c') :
    Accounts frames c' := by
  simp only [step, Option.bind_eq_bind, Option.bind_eq_some_iff] at hs
  obtain ⟨buffer, hi, hs⟩ := hs
  cases hs
  exact ⟨c.session.writeFailed_waiting, (h.completed hi).2.2, h.written, fun hfailed => nomatch hfailed⟩

theorem Accounts.orderly (h : Accounts frames c) : Orderly frames c where
  single := by
    rw [h.outstanding, started]
    cases c.session.inFlight <;> simp
  writing := by
    rw [h.waiting.writing, h.outstanding, ne_eq, ne_eq, started_eq_nil]
  inOrder := h.written
  complete := by
    intro hfailed houtstanding
    rw [h.outstanding, started_eq_nil] at houtstanding
    have hpending := h.pending hfailed
    rwa [AsyncSession.pending, houtstanding, List.flatten_nil, List.drop_nil, List.append_nil] at hpending
  defined := by
    intro grow i sent buffer hi hfailed hsends
    obtain ⟨r, hr, -⟩ := h.waiting.written (h.completed hi).1 hsends.2.1
    simp [step, hi, hr, hfailed, hsends]

theorem delivered_concat (events : List Event) (event : Event) :
    delivered (events ++ [event]) = delivered events ++ delivered [event] := by
  simp [delivered]

/-- What is written is what has been delivered, in order, and nothing is left out
but what is still pending, in every run in which no buffer is moved. -/
theorem orderly_run (grow : Nat → Nat) (now : Int) (events : List Event) (c : Connection)
    (hput : Along (step grow) StaysPut (create now) events)
    (h : run (step grow) (create now) events = some c) : Orderly (delivered events) c := by
  refine Accounts.orderly ?_
  refine history_of_alongAfter (P := fun events c => Accounts (delivered events) c) (C := fun _ => StaysPut)
    (Accounts.create now) ?_ (alongAfter_of_along (fun _ _ _ h => h) hput) h
  intro es t e t' _ hacc hstays hstep
  rw [delivered_concat]
  cases e with
  | deliver json =>
    have hframes : delivered [.deliver json] = (FrameCodec.encode json).toList := by
      unfold delivered
      cases hencode : FrameCodec.encode json with
      | none => simp [hencode]
      | some frame => simp [hencode]
    rw [hframes]
    exact hacc.deliver hstays hstep
  | completes i sent =>
    rw [show delivered [Event.completes i sent] = [] from rfl, List.append_nil]
    exact hacc.completes hstep
  | fails i =>
    rw [show delivered [Event.fails i] = [] from rfl, List.append_nil]
    exact hacc.fails hstep

/-! ## Long payloads -/

/-- No frame of the queue has its characters inside the string. -/
def Long (c : Connection) : Prop := ∀ frame ∈ c.session.write_queue, Buffer.smallString < frame.length

theorem long_of_send {s : AsyncSession} {json : Bytes} {r : AsyncSession × Option Bytes}
    (h : s.send json = .ok r) (hjson : 11 < json.length) {frame : Bytes} (hmem : frame ∈ r.1.write_queue) :
    frame ∈ s.write_queue ∨ Buffer.smallString < frame.length := by
  unfold AsyncSession.send at h
  cases hencode : FrameCodec.encode json with
  | none =>
    rw [hencode] at h
    cases h
  | some sent =>
    rw [hencode] at h
    have hqueue : r.1.write_queue = s.write_queue ++ [sent] := by
      cases h
      split
      · rfl
      · rw [AsyncSession.doWrite_eq]
        rfl
    rw [hqueue] at hmem
    rcases List.mem_append.mp hmem with hmem | hmem
    · exact .inl hmem
    · right
      have hle := FrameCodec.encode_isSome.mp (Option.isSome_of_eq_some hencode)
      rw [FrameCodec.encode_of_le hle] at hencode
      cases hencode
      rw [List.mem_singleton.mp hmem, FrameCodec.length_frame, Buffer.smallString]
      omega

theorem long_of_written {s : AsyncSession} {n : Nat} {r : AsyncSession × Option Bytes}
    (h : s.written n = some r) {frame : Bytes} (hmem : frame ∈ r.1.write_queue) : frame ∈ s.write_queue := by
  unfold AsyncSession.written at h
  dsimp only at h
  split at h
  · cases h
  · next front rest hqueue =>
    rw [hqueue]
    split at h
    · cases h
      rw [AsyncSession.doWrite_eq] at hmem
      exact hqueue ▸ hmem
    · cases h
      rw [AsyncSession.doWrite_eq] at hmem
      exact List.mem_cons_of_mem _ hmem

theorem long_step {event : Event} (hlong : ∀ json, event = .deliver json → 11 < json.length) (h : Long c)
    (hs : step grow c event = some c') : Long c' := by
  cases event with
  | deliver json =>
    cases hsend : c.session.send json with
    | error e =>
      simp only [step, hsend] at hs
      cases hs
      exact h
    | ok r =>
      simp only [step, hsend] at hs
      cases hs
      exact fun frame hmem => (long_of_send hsend (hlong json rfl) hmem).elim (h frame) id
  | completes i sent =>
    simp only [step, Option.bind_eq_bind, Option.bind_eq_some_iff] at hs
    obtain ⟨buffer, -, hs⟩ := hs
    split at hs
    · obtain ⟨r, hwritten, hs⟩ := Option.bind_eq_some_iff.mp hs
      cases hs
      exact fun frame hmem => h frame (long_of_written hwritten hmem)
    · cases hs
  | fails i =>
    simp only [step, Option.bind_eq_bind, Option.bind_eq_some_iff] at hs
    obtain ⟨buffer, -, hs⟩ := hs
    cases hs
    exact nofun

/-- Payloads of more than 11 bytes make frames that stay where they are. -/
theorem along_of_long {events : List Event} (hlong : ∀ json, .deliver json ∈ events → 11 < json.length) (h : Long c) :
    Along (step grow) StaysPut c events := by
  induction events generalizing c with
  | nil => trivial
  | cons event events ih =>
    intro c' hs
    refine ⟨?_, ih (fun json hmem => hlong json (List.mem_cons_of_mem _ hmem))
      (long_step (fun json heq => hlong json (heq ▸ List.mem_cons_self)) h hs)⟩
    cases event with
    | deliver json => exact fun _ _ front hfront => h front (List.mem_of_mem_head? hfront)
    | completes i sent => trivial
    | fails i => trivial

theorem along_create_of_long (grow : Nat → Nat) (now : Int) {events : List Event}
    (hlong : ∀ json, .deliver json ∈ events → 11 < json.length) :
    Along (step grow) StaysPut (create now) events :=
  along_of_long hlong nofun

/-- A frame of sixteen bytes, written in two parts; when the next one is delivered, the
vector has no room for it. -/
def pair : List Event :=
  [.deliver (lit "twelve bytes"), .completes 0 [0, 0, 0], .deliver (lit "another twelve"),
    .completes 0 (12 :: lit "twelve bytes"), .completes 0 (FrameCodec.frame (lit "another twelve"))]

theorem orderly_run_pair :
    ∃ c, run (step fun n => 2 * n + 1) (create 0) pair = some c ∧ c.written.length = 34 ∧
      Orderly (delivered pair) c := by
  have hrun : ((run (step fun n => 2 * n + 1) (create 0) pair).map fun c => c.written.length) = some 34 := by
    decide +kernel
  obtain ⟨c, hc, hlength⟩ := Option.map_eq_some_iff.mp hrun
  have hput : Along (step fun n => 2 * n + 1) StaysPut (create 0) pair := by
    refine along_create_of_long _ 0 fun json hmem => ?_
    simp only [pair, List.mem_cons, List.not_mem_nil, or_false, reduceCtorEq, false_or, Event.deliver.injEq] at hmem
    rcases hmem with rfl | rfl
    · decide +kernel
    · decide +kernel
  exact ⟨c, hc, hlength, orderly_run _ 0 pair c hput hc⟩

/-- Two payloads of one byte: the second frame moves the first one, and what is sent in
its place is no part of it. -/
theorem short_frames_dangle :
    ¬∀ grow events c, run (step grow) (create 0) events = some c → Orderly (delivered events) c := by
  intro hall
  have hrun : ((run (step fun n => 2 * n + 1) (create 0)
      [.deliver [97], .deliver [98], .completes 0 [0, 0, 0, 1, 120]]).map fun c => c.written) =
        some [0, 0, 0, 1, 120] := by
    decide +kernel
  obtain ⟨c, hc, hwritten⟩ := Option.map_eq_some_iff.mp hrun
  have hprefix := (hall _ _ c hc).inOrder
  rw [hwritten] at hprefix
  exact absurd hprefix (by decide +kernel)

end Connection

end LanChat
