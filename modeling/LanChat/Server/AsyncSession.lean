import LanChat.Db.Records

/-!
# Sessions

The part of `AsyncSession` that does not touch the network. A reading of
`steady_clock` is a number of nanoseconds.
-/

namespace LanChat

open Json

/-- `AsyncSession`. `reading` says that the chain of reads which `start` begins
has not ended yet. -/
structure AsyncSession where
  user_id : Int32
  reading : Bool
  read_accumulator : Bytes
  write_queue : List Bytes
  write_offset : Nat
  writing : Bool
  last_heartbeat : Int
  rate_window_start : Int
  messages_this_window : Nat
deriving DecidableEq

namespace AsyncSession

/-- One second in nanoseconds. -/
def second : Int := 1000000000

/-- A session object that has just been constructed. -/
def construct (now : Int) : AsyncSession := ⟨0, false, [], [], 0, false, now, now, 0⟩

/-- `start`. -/
def start (now : Int) (s : AsyncSession) : AsyncSession :=
  { s with reading := true, last_heartbeat := now }

/-- A read has failed: `doRead` is not called again. -/
def stopReading (s : AsyncSession) : AsyncSession := { s with reading := false }

def authenticated (s : AsyncSession) : Bool := s.user_id ≠ 0

/-- `deliver`: the frame is queued, and `doWrite` starts a write unless one is
outstanding. -/
def deliver (s : AsyncSession) (json : Bytes) : Except Exn AsyncSession :=
  match FrameCodec.encode json with
  | none => .error .frameTooLarge
  | some frame => .ok { s with write_queue := s.write_queue ++ [frame], writing := true }

/-- `consumeRateLimitToken` at the clock reading `now`. -/
def consumeRateLimitToken (now : Int) (s : AsyncSession) : Bool × AsyncSession :=
  let s := if second ≤ now - s.rate_window_start then
    { s with rate_window_start := now, messages_this_window := 0 } else s
  let s := { s with messages_this_window := s.messages_this_window + 1 }
  (s.messages_this_window ≤ 20, s)

/-- `heartbeatReceived`. -/
def heartbeatReceived (now : Int) (s : AsyncSession) : AsyncSession := { s with last_heartbeat := now }

/-- `isTimedOut` at the clock reading `now`. -/
def isTimedOut (now : Int) (s : AsyncSession) : Bool := 90 * second < now - s.last_heartbeat

@[simp] theorem consumeRateLimitToken_user_id (now : Int) (s : AsyncSession) :
    (s.consumeRateLimitToken now).2.user_id = s.user_id := by
  unfold consumeRateLimitToken
  split <;> rfl

theorem deliver_ok {s s' : AsyncSession} {json : Bytes} (h : s.deliver json = .ok s') :
    json.length ≤ FrameCodec.MaxFrameBytes ∧ s'.user_id = s.user_id := by
  unfold deliver at h
  split at h
  · cases h
  · next frame hf =>
    cases h
    exact ⟨FrameCodec.encode_isSome.mp (by simp [hf]), rfl⟩

theorem deliver_error {s : AsyncSession} {json : Bytes} {e : Exn} (h : s.deliver json = .error e) :
    FrameCodec.MaxFrameBytes < json.length := by
  unfold deliver at h
  split at h
  · next hf =>
    by_contra hle
    have := FrameCodec.encode_isSome.mpr (Nat.le_of_not_lt hle)
    simp [hf] at this
  · cases h

theorem deliver_throws {s : AsyncSession} {json : Bytes} {e : Exn} (h : s.deliver json = .error e) :
    e = .frameTooLarge := by
  unfold deliver at h
  split at h
  · cases h
    rfl
  · cases h

end AsyncSession

end LanChat
