import Mathlib.Data.List.TakeWhile
import LanChat.Server.FrameStream

/-!
# The client's side of a connection

`message_codec.rs` and `TcpManager`: the frames that the client sends, and its
read loop. The encoder has no limit on the size of a string, the server's decoder
has. The decoder of the client has one result, `None`, for a frame that is not
complete and for a frame that it drops.
-/

namespace LanChat

open Lib Lib.Framing

namespace Client

/-- `u32::to_be_bytes`. -/
def to_be_bytes (n : UInt32) : Bytes :=
  [(n >>> 24).toUInt8, (n >>> 16).toUInt8, (n >>> 8).toUInt8, n.toUInt8]

/-- `encode_frame`; `as u32` wraps around. -/
def encode_frame (json : Bytes) : Bytes := to_be_bytes (UInt32.ofNat json.length) ++ json

/-! ## Sending -/

/-- What `TcpManager` keeps: the bytes written on the connection, while there is
one, and the number of calls of `write_all`. -/
structure TcpManager where
  writer : Option Bytes
  writes : Nat

namespace TcpManager

/-- `connect`. -/
def connect (tcp : TcpManager) : TcpManager := { tcp with writer := some [] }

/-- `send_json`. `failure n` tells how the n-th `write_all` fails, if it does:
after how many bytes, and with which error. -/
def send_json (failure : Nat → Option (Nat × Bytes)) (tcp : TcpManager) (json : Bytes) :
    Except Bytes Unit × TcpManager :=
  match tcp.writer with
  | none => (.error (lit "not connected"), tcp)
  | some written =>
    match failure tcp.writes with
    | none => (.ok (), ⟨some (written ++ encode_frame json), tcp.writes + 1⟩)
    | some (n, err) => (.error err, ⟨some (written ++ (encode_frame json).take n), tcp.writes + 1⟩)

/-- The strings in order; `none` if one of them is not sent. -/
def sendAll (failure : Nat → Option (Nat × Bytes)) (tcp : TcpManager) : List Bytes → Option TcpManager
  | [] => some tcp
  | json :: jsons =>
    match send_json failure tcp json with
    | (.ok (), tcp') => sendAll failure tcp' jsons
    | (.error _, _) => none

end TcpManager

/-- A byte of a length, however large the length is. -/
theorem toUInt8_shiftRight (n : Nat) {shift : UInt32} {k : Nat} (hshift : shift.toNat = k)
    (hk : k = 0 ∨ k = 8 ∨ k = 16 ∨ k = 24) :
    (UInt32.ofNat n >>> shift).toUInt8 = UInt8.ofNat (n / 2 ^ k) := by
  rw [← UInt8.toNat_inj, UInt32.toNat_toUInt8, UInt32.toNat_shiftRight, UInt32.toNat_ofNat',
    UInt8.toNat_ofNat', Nat.shiftRight_eq_div_pow, hshift]
  rcases hk with rfl | rfl | rfl | rfl <;> norm_num <;> omega

/-- The encoder of the client makes the frames of the server's. -/
theorem encode_frame_eq (json : Bytes) : encode_frame json = FrameCodec.frame json := by
  have hlast : (UInt32.ofNat json.length).toUInt8 = UInt8.ofNat json.length := by
    rw [← UInt8.toNat_inj, UInt32.toNat_toUInt8, UInt32.toNat_ofNat', UInt8.toNat_ofNat']
    omega
  rw [encode_frame, to_be_bytes, toUInt8_shiftRight _ rfl (.inr (.inr (.inr rfl))),
    toUInt8_shiftRight _ rfl (.inr (.inr (.inl rfl))), toUInt8_shiftRight _ rfl (.inr (.inl rfl)), hlast]
  rfl

/-- What has been written when all strings have been accepted. -/
theorem writer_of_sendAll {failure : Nat → Option (Nat × Bytes)} {tcp tcp' : TcpManager}
    {written : Bytes} {jsons : List Bytes} (hwriter : tcp.writer = some written)
    (h : tcp.sendAll failure jsons = some tcp') :
    tcp'.writer = some (written ++ stream FrameCodec.frame jsons) := by
  induction jsons generalizing tcp written with
  | nil =>
    cases h
    simpa using hwriter
  | cons json jsons ih =>
    simp only [TcpManager.sendAll, TcpManager.send_json, hwriter] at h
    cases hfail : failure tcp.writes with
    | some failed =>
      rw [hfail] at h
      cases h
    | none =>
      rw [hfail] at h
      rw [ih rfl h, encode_frame_eq, stream_cons, List.append_assoc]

open FrameCodec AsyncSession

/-- However the bytes of the accepted strings are cut into reads, the server takes
out exactly these strings if and only if each has a size that a body may have and
no read ends too far into a frame. -/
theorem server_decodes_iff {failure : Nat → Option (Nat × Bytes)} {tcp tcp' : TcpManager}
    {jsons reads : List Bytes} (hsent : tcp.connect.sendAll failure jsons = some tcp')
    (hreads : tcp'.writer = some reads.flatten) :
    (doReads [] reads).1 = jsons ↔ (∀ json ∈ jsons, Sized json) ∧ ReadsFit jsons reads := by
  have hstream : reads.flatten = stream frame jsons := by
    rw [writer_of_sendAll rfl hsent] at hreads
    exact (Option.some.inj hreads).symm
  constructor
  · intro h
    have hsized : ∀ json ∈ jsons, Sized json := by
      rw [← h]
      exact (doReads_bounds [] reads).1
    exact ⟨hsized, (readsFit_iff hstream hsized).mp h⟩
  · rintro ⟨hsized, hfit⟩
    exact (readsFit_iff hstream hsized).mpr hfit

/-- Two strings in three reads, the second of which ends in the header of the second frame. -/
theorem server_decodes_iff_two_strings :
    ∃ tcp', (TcpManager.connect ⟨none, 0⟩).sendAll (fun _ => none) [lit "{}", lit "[1]"] = some tcp' ∧
      ((doReads [] [[0, 0, 0, 2, 123], [125, 0, 0], [0, 3, 91, 49, 93]]).1 = [lit "{}", lit "[1]"] ↔
        (∀ json ∈ [lit "{}", lit "[1]"], Sized json) ∧
          ReadsFit [lit "{}", lit "[1]"] [[0, 0, 0, 2, 123], [125, 0, 0], [0, 3, 91, 49, 93]]) :=
  ⟨⟨some (encode_frame (lit "{}") ++ encode_frame (lit "[1]")), 2⟩, rfl,
    @server_decodes_iff (fun _ => none) ⟨none, 0⟩ _ _ [[0, 0, 0, 2, 123], [125, 0, 0], [0, 3, 91, 49, 93]] rfl
      (by decide +kernel)⟩

/-- A JSON string one byte longer than a body may be. -/
def tooLong : Bytes := 34 :: (List.replicate 262143 97 ++ [34])

theorem length_tooLong : tooLong.length = 262145 := by
  rw [tooLong, List.length_cons, List.length_append, List.length_replicate]
  rfl

/-- Its frame in full reads. -/
def fullReads : List Bytes := pieces [65536, 65536, 65536, 65536, 5] (frame tooLong)

theorem length_frame_tooLong : (frame tooLong).length = 262149 := by
  rw [length_frame, length_tooLong]

theorem flatten_fullReads : fullReads.flatten = frame tooLong := by
  rw [fullReads, flatten_pieces]
  exact List.take_of_length_le (by rw [length_frame_tooLong]; decide)

theorem sendAll_singleton (json : Bytes) :
    (TcpManager.connect ⟨none, 0⟩).sendAll (fun _ => none) [json] =
      some ⟨some (encode_frame json), 1⟩ := rfl

theorem accepted_string_dropped :
    ¬∀ (failure : Nat → Option (Nat × Bytes)) (tcp tcp' : TcpManager) (jsons reads : List Bytes),
      tcp.connect.sendAll failure jsons = some tcp' → tcp'.writer = some reads.flatten →
      (∀ bytes ∈ reads, 1 ≤ bytes.length ∧ bytes.length ≤ 65536) →
        (doReads [] reads).1 = jsons := by
  intro hall
  have hread : ∀ bytes ∈ fullReads, 1 ≤ bytes.length ∧ bytes.length ≤ 65536 := by
    intro bytes hbytes
    have hlen := length_of_mem_pieces (by rw [length_frame_tooLong]; decide) hbytes
    generalize bytes.length = n at hlen
    revert n
    decide
  have hdecoded := hall (fun _ => none) ⟨none, 0⟩ _ [tooLong] fullReads (sendAll_singleton _)
    (by rw [flatten_fullReads, encode_frame_eq]) hread
  have hsized := (doReads_bounds [] fullReads).1 tooLong (by rw [hdecoded]; exact List.mem_singleton_self _)
  rw [Sized, length_tooLong] at hsized
  exact absurd hsized.2 (by decide)

/-! ## Receiving -/

/-- Whether `String::from_utf8` succeeds. -/
def isUtf8 (body : Bytes) : Bool := (ByteArray.mk body.toArray).validateUTF8

/-- The string that stands for a frame with an impossible length. -/
def invalidFrame : Bytes :=
  lit "\x7b\"type\":33,\"status\":\"error\",\"code\":400,\"msg\":\"invalid frame\"\x7d"

/-- `try_decode_frame`: the string, if there is one, and the buffer afterwards. -/
def try_decode_frame (buffer : Bytes) : Option Bytes × Bytes :=
  match buffer with
  | b₀ :: b₁ :: b₂ :: b₃ :: rest =>
    let len := bodyLength b₀ b₁ b₂ b₃
    if len = 0 ∨ 4 * 1024 * 1024 < len then (some invalidFrame, [])
    else if rest.length < len then (none, buffer)
    -- `None` again, but the frame is gone
    else (if isUtf8 (rest.take len) then some (rest.take len) else none, rest.drop len)
  | _ => (none, buffer)

theorem length_try_decode_frame {buffer buffer' json : Bytes}
    (h : try_decode_frame buffer = (some json, buffer')) : buffer'.length < buffer.length := by
  unfold try_decode_frame at h
  split at h
  · dsimp only at h
    split at h
    · cases h
      simp
    split at h
    · cases h
    · rw [Prod.mk.injEq] at h
      obtain ⟨-, rfl⟩ := h
      simp only [List.length_drop, List.length_cons]
      omega
  · cases h

theorem try_decode_frame_frame {body : Bytes} (h : Sized body) (rest : Bytes) :
    try_decode_frame (frame body ++ rest) = (if isUtf8 body then some body else none, rest) := by
  obtain ⟨hpos, hmax⟩ := h
  simp only [MaxFrameBytes] at hmax
  simp only [frame, header_eq, List.cons_append, List.nil_append, try_decode_frame,
    bodyLength_header (show body.length < 2 ^ 32 by omega)]
  rw [if_neg (by omega), if_neg (by rw [List.length_append]; omega)]
  simp

theorem try_decode_frame_part {body part : Bytes} (h : Sized body) (hpart : part <+: frame body)
    (hshort : part.length < (frame body).length) : try_decode_frame part = (none, part) := by
  obtain ⟨hpos, hmax⟩ := h
  simp only [MaxFrameBytes] at hmax
  match part with
  | [] | [_] | [_, _] | [_, _, _] => rfl
  | b₀ :: b₁ :: b₂ :: b₃ :: rest =>
    simp only [frame, header_eq, List.cons_append, List.nil_append, List.cons_prefix_cons] at hpart
    obtain ⟨rfl, rfl, rfl, rfl, -⟩ := hpart
    simp only [length_frame, List.length_cons] at hshort
    simp only [try_decode_frame, bodyLength_header (show body.length < 2 ^ 32 by omega)]
    rw [if_neg (by omega), if_pos (by omega)]

theorem try_decode_frame_of_longer {later : List Bytes} {part unseen : Bytes}
    (hrest : part ++ unseen = stream frame later) (hshort : Longer frame later part.length)
    (h : ∀ body ∈ later, Sized body) : try_decode_frame part = (none, part) := by
  cases later with
  | nil =>
    rw [(List.append_eq_nil_iff.mp hrest).1]
    rfl
  | cons body bodies =>
    have hlt := hshort body bodies rfl
    exact try_decode_frame_part (h body List.mem_cons_self)
      (List.prefix_of_prefix_length_le ⟨unseen, hrest⟩ ⟨stream frame bodies, rfl⟩ (Nat.le_of_lt hlt)) hlt

namespace TcpManager

/-- The `while let` loop of the read task: what is emitted, and the accumulator. -/
def decodeFrames (accumulator : Bytes) : List Bytes × Bytes :=
  match _hdecode : try_decode_frame accumulator with
  | (none, accumulator') => ([], accumulator')
  | (some json, accumulator') =>
    let (jsons, final) := decodeFrames accumulator'
    (json :: jsons, final)
termination_by accumulator.length
decreasing_by exact length_try_decode_frame _hdecode

/-- The body of the read task's loop. -/
def onRead (accumulator bytes : Bytes) : List Bytes × Bytes :=
  let (jsons, accumulator) := decodeFrames (accumulator ++ bytes)
  (jsons, if 4 * 1024 * 1024 < accumulator.length then [] else accumulator)

/-- The read task after one read and the next. -/
def onReads (accumulator : Bytes) : List Bytes → List Bytes × Bytes
  | [] => ([], accumulator)
  | bytes :: reads =>
    let (jsons, accumulator) := onRead accumulator bytes
    let (jsons', accumulator) := onReads accumulator reads
    (jsons ++ jsons', accumulator)

section Loop

variable {buffer buffer' json part : Bytes} {bodies todo later : List Bytes}

theorem decodeFrames_of_none (h : try_decode_frame buffer = (none, buffer')) :
    decodeFrames buffer = ([], buffer') := by
  rw [decodeFrames]
  split
  · next h' => rw [h] at h'; cases h'; rfl
  · next h' => rw [h] at h'; cases h'

theorem decodeFrames_of_some (h : try_decode_frame buffer = (some json, buffer')) :
    decodeFrames buffer = (json :: (decodeFrames buffer').1, (decodeFrames buffer').2) := by
  rw [decodeFrames]
  split
  · next h' => rw [h] at h'; cases h'
  · next h' => rw [h] at h'; cases h'; rfl

/-- The loop ends at the first frame that is not UTF-8: it takes that frame away
and leaves the frames behind it. -/
theorem decodeFrames_stream (h : ∀ body ∈ bodies, Sized body)
    (hpart : try_decode_frame part = (none, part)) :
    decodeFrames (stream frame bodies ++ part) =
      (bodies.takeWhile isUtf8, stream frame (bodies.dropWhile isUtf8).tail ++ part) := by
  induction bodies with
  | nil => exact decodeFrames_of_none hpart
  | cons body bodies ih =>
    have hnext := try_decode_frame_frame (h body List.mem_cons_self) (stream frame bodies ++ part)
    rw [stream_cons, List.append_assoc]
    rcases Bool.eq_false_or_eq_true (isUtf8 body) with hutf | hutf
    · rw [if_pos hutf] at hnext
      rw [decodeFrames_of_some hnext, ih fun b hb => h b (List.mem_cons_of_mem _ hb)]
      simp only [List.takeWhile_cons, List.dropWhile_cons, hutf, if_true]
    · rw [if_neg (by rw [hutf]; decide)] at hnext
      rw [decodeFrames_of_none hnext]
      simp [hutf]

end Loop

/-- No frame stands behind one that is not UTF-8. -/
def BadLast (bodies : List Bytes) : Prop := (bodies.dropWhile isUtf8).tail = []

instance (bodies : List Bytes) : Decidable (BadLast bodies) :=
  inferInstanceAs (Decidable (_ = _))

/-- After every read, from an accumulator with `seen` bytes of the stream: exactly
the UTF-8 bodies of the complete frames have been emitted, and no complete frame
is in the accumulator any more. -/
def Reassembles (bodies : List Bytes) (accumulator : Bytes) (reads : List Bytes) : Prop :=
  ∀ k ≤ reads.length,
    let seen := accumulator.length + (reads.take k).flatten.length
    (onReads accumulator (reads.take k)).1 = (completed frame bodies seen).filter isUtf8 ∧
      (onReads accumulator (reads.take k)).2.length = remainder frame bodies seen

/-- No read completes a frame behind one that is not UTF-8 and that it completes too. -/
def BadFramesLast (bodies : List Bytes) (seen : Nat) (reads : List Bytes) : Prop :=
  ∀ k < reads.length,
    BadLast (completedBetween frame bodies (seen + (reads.take k).flatten.length)
      (seen + (reads.take (k + 1)).flatten.length))

theorem BadLast.takeWhile_eq {bodies : List Bytes} (h : BadLast bodies) :
    bodies.takeWhile isUtf8 = bodies.filter isUtf8 := by
  unfold BadLast at h
  induction bodies with
  | nil => rfl
  | cons body bodies ih =>
    rcases Bool.eq_false_or_eq_true (isUtf8 body) with hutf | hutf
    · rw [List.dropWhile_cons_of_pos hutf] at h
      rw [List.takeWhile_cons_of_pos hutf, List.filter_cons_of_pos hutf, ih h]
    · rw [List.dropWhile_cons_of_neg (by rw [hutf]; decide), List.tail_cons] at h
      subst h
      simp [hutf]

theorem length_lt_of_longer {later : List Bytes} {part unseen : Bytes}
    (hrest : part ++ unseen = stream frame later) (hshort : Longer frame later part.length)
    (h : ∀ body ∈ later, Sized body) : part.length < 4 + MaxFrameBytes := by
  cases later with
  | nil =>
    rw [(List.append_eq_nil_iff.mp hrest).1]
    decide
  | cons body bodies =>
    have hlt := hshort body bodies rfl
    have hmax := (h body List.mem_cons_self).2
    rw [length_frame] at hlt
    omega

/-- What one read does to an accumulator with the beginning of a frame. The limit
of the accumulator is far above what a read can leave. -/
theorem onRead_cut {todo done later : List Bytes} {part part' bytes unseen : Bytes}
    (hcut : Cut frame todo (part ++ bytes) unseen done later part')
    (hsized : ∀ body ∈ todo, Sized body) (hpart : part.length < 4 + MaxFrameBytes)
    (hbytes : bytes.length ≤ 8192) :
    onRead part bytes =
      (done.takeWhile isUtf8, stream frame (done.dropWhile isUtf8).tail ++ part') := by
  rw [hcut.frames] at hsized
  have hdecode : decodeFrames (part ++ bytes) =
      (done.takeWhile isUtf8, stream frame (done.dropWhile isUtf8).tail ++ part') := by
    rw [hcut.seen_eq]
    exact decodeFrames_stream (fun body hb => hsized body (List.mem_append_left _ hb))
      (try_decode_frame_of_longer hcut.rest hcut.short fun body hb =>
        hsized body (List.mem_append_right _ hb))
  have hbehind : (stream frame (done.dropWhile isUtf8).tail).length ≤ (stream frame done).length :=
    (((List.tail_sublist _).trans (List.dropWhile_sublist _)).flatMap frame).length_le
  have hlength := hcut.length_seen
  rw [List.length_append] at hlength
  simp only [MaxFrameBytes] at hpart
  simp only [onRead, hdecode]
  rw [if_neg (by rw [List.length_append]; omega)]

/-- A read that leaves no frame behind a bad one: the rest of the reads start with
the beginning of the next frame. -/
theorem reassembles_cons {todo done later : List Bytes} {part part' bytes : Bytes} {reads : List Bytes}
    (hcut : Cut frame todo (part ++ bytes) reads.flatten done later part')
    (hshort : Longer frame todo part.length)
    (hread : onRead part bytes = (done.filter isUtf8, part')) :
    Reassembles todo part (bytes :: reads) ↔ Reassembles later part' reads := by
  have hseen : ∀ k, part.length + ((bytes :: reads).take (k + 1)).flatten.length =
      (part ++ bytes).length + (reads.take k).flatten.length := fun k => by
    rw [List.take_succ_cons, List.flatten_cons, List.length_append, List.length_append, Nat.add_assoc]
  have hnext : ∀ k, onReads part ((bytes :: reads).take (k + 1)) =
      (done.filter isUtf8 ++ (onReads part' (reads.take k)).1, (onReads part' (reads.take k)).2) :=
    fun k => by rw [List.take_succ_cons, onReads, hread]
  constructor
  · intro h k hk
    have hk' := h (k + 1) (Nat.succ_le_succ hk)
    simp only [hseen, hnext, hcut.completed_add, hcut.remainder_add, List.filter_append,
      List.append_right_inj] at hk'
    exact hk'
  · intro h k hk
    cases k with
    | zero => simp [onReads, hshort.completed_eq, hshort.remainder_eq]
    | succ k =>
      simp only [hseen, hnext, hcut.completed_add, hcut.remainder_add, List.filter_append,
        List.append_right_inj]
      exact h k (Nat.le_of_succ_le_succ hk)

theorem badFramesLast_cons {todo done later : List Bytes} {part part' bytes : Bytes}
    {reads : List Bytes} (hcut : Cut frame todo (part ++ bytes) reads.flatten done later part')
    (hshort : Longer frame todo part.length) :
    BadFramesLast todo part.length (bytes :: reads) ↔
      BadLast done ∧ BadFramesLast later part'.length reads := by
  have hseen : ∀ k, part.length + ((bytes :: reads).take (k + 1)).flatten.length =
      (part ++ bytes).length + (reads.take k).flatten.length := fun k => by
    rw [List.take_succ_cons, List.flatten_cons, List.length_append, List.length_append, Nat.add_assoc]
  have hfirst : completedBetween frame todo part.length (part ++ bytes).length = done := by
    rw [completedBetween, hshort.completed_eq, hcut.completed_eq]
    rfl
  constructor
  · intro h
    refine ⟨?_, fun k hk => ?_⟩
    · have hzero := h 0 (Nat.zero_lt_succ _)
      rw [hseen] at hzero
      simpa only [List.take_zero, List.flatten_nil, List.length_nil, Nat.add_zero, hfirst] using hzero
    · have hk' := h (k + 1) (Nat.succ_lt_succ hk)
      rw [hseen, hseen, hcut.completedBetween_add] at hk'
      exact hk'
  · rintro ⟨hdone, h⟩ k hk
    cases k with
    | zero =>
      rw [hseen]
      simpa only [List.take_zero, List.flatten_nil, List.length_nil, Nat.add_zero, hfirst] using hdone
    | succ k =>
      rw [hseen, hseen, hcut.completedBetween_add]
      exact h k (Nat.lt_of_succ_lt_succ hk)

/-- From an accumulator that holds the beginning of the frames to come. -/
theorem reassembles_iff_of_part {reads : List Bytes} {part : Bytes} {todo : List Bytes}
    (hstream : part ++ reads.flatten = stream frame todo) (hsized : ∀ body ∈ todo, Sized body)
    (hshort : Longer frame todo part.length) (hreads : ∀ bytes ∈ reads, bytes.length ≤ 8192) :
    Reassembles todo part reads ↔ BadFramesLast todo part.length reads := by
  induction reads generalizing part todo with
  | nil =>
    refine iff_of_true (fun k hk => ?_) nofun
    obtain rfl := Nat.le_zero.mp hk
    simp [onReads, hshort.completed_eq, hshort.remainder_eq]
  | cons bytes reads ih =>
    have hpart := length_lt_of_longer hstream hshort hsized
    rw [List.flatten_cons, ← List.append_assoc] at hstream
    obtain ⟨done, later, part', hcut⟩ := exists_cut hstream
    have hread := onRead_cut hcut hsized hpart (hreads bytes List.mem_cons_self)
    have hlater : ∀ body ∈ later, Sized body := fun body hb =>
      hsized body (hcut.frames ▸ List.mem_append_right _ hb)
    rw [badFramesLast_cons hcut hshort]
    rcases em (BadLast done) with hlast | hbehind
    · rw [hlast.takeWhile_eq, show (done.dropWhile isUtf8).tail = [] from hlast] at hread
      rw [reassembles_cons hcut hshort hread, and_iff_right hlast]
      exact ih hcut.rest hlater hcut.short fun b hb => hreads b (List.mem_cons_of_mem _ hb)
    · refine iff_of_false (fun h => ?_) fun h => hbehind h.1
      have hone := (h 1 (Nat.succ_le_succ (Nat.zero_le _))).2
      simp only [List.take_succ_cons, List.take_zero, onReads, hread, List.flatten_cons,
        List.flatten_nil, List.append_nil, ← List.length_append, hcut.remainder_eq] at hone
      rw [List.length_append] at hone
      refine hbehind ?_
      unfold BadLast
      cases htail : (done.dropWhile isUtf8).tail with
      | nil => rfl
      | cons body bodies =>
        rw [htail, stream_cons, List.length_append, length_frame] at hone
        omega

/-- From an empty accumulator. -/
theorem reassembled_iff {bodies reads : List Bytes} (hsized : ∀ body ∈ bodies, Sized body)
    (hstream : reads.flatten = stream frame bodies) (hreads : ∀ bytes ∈ reads, bytes.length ≤ 8192) :
    Reassembles bodies [] reads ↔ BadFramesLast bodies 0 reads :=
  @reassembles_iff_of_part reads [] bodies hstream hsized
    (fun body bodies _ => by rw [length_frame, List.length_nil]; omega) hreads

/-- However the frames of the server are cut into reads, after every read exactly
the UTF-8 bodies of the complete frames have been emitted and no complete frame is
held back, if and only if no read completes a frame behind a bad one. -/
theorem emits_iff_badFramesLast {bodies frames reads : List Bytes}
    (hsized : ∀ body ∈ bodies, Sized body) (hframes : bodies.mapM encode = some frames)
    (hflat : reads.flatten = frames.flatten)
    (hreads : ∀ bytes ∈ reads, 1 ≤ bytes.length ∧ bytes.length ≤ 8192) :
    Reassembles bodies [] reads ↔ BadFramesLast bodies 0 reads := by
  have hstream : reads.flatten = stream frame bodies := by
    rw [mapM_encode hsized] at hframes
    cases hframes
    exact hflat
  exact reassembled_iff hsized hstream fun bytes hb => (hreads bytes hb).2

/-! ### Two ways of reading -/

theorem onReads_append (accumulator : Bytes) (reads later : List Bytes) :
    onReads accumulator (reads ++ later) =
      ((onReads accumulator reads).1 ++ (onReads (onReads accumulator reads).2 later).1,
        (onReads (onReads accumulator reads).2 later).2) := by
  induction reads generalizing accumulator with
  | nil => rfl
  | cons bytes reads ih =>
    simp only [List.cons_append, onReads, ih, List.append_assoc]

/-- When all bodies are UTF-8, they are emitted, however the frames are cut into reads. -/
theorem onReads_of_utf8 {bodies reads : List Bytes} (hsized : ∀ body ∈ bodies, Sized body)
    (hutf8 : ∀ body ∈ bodies, isUtf8 body = true) (hflat : reads.flatten = stream frame bodies)
    (hreads : ∀ bytes ∈ reads, bytes.length ≤ 8192) : (onReads [] reads).1 = bodies := by
  have hnone : ∀ some : List Bytes, (∀ body ∈ some, body ∈ bodies) → BadLast some := fun some hsome => by
    rw [BadLast, List.dropWhile_eq_nil_iff.mpr fun body hb => hutf8 body (hsome body hb), List.tail_nil]
  have hall := (reassembled_iff hsized hflat hreads).mpr fun k _ => hnone _ fun body hb => (isPrefix_completed _ _).subset (List.mem_of_mem_drop hb)
  have hlast := (hall reads.length (Nat.le_refl _)).1
  rwa [List.take_length, List.length_nil, Nat.zero_add, hflat, completed_stream,
    List.filter_eq_self.mpr hutf8] at hlast

/-- Reads of one byte each. -/
def bytewise (bytes : Bytes) : List Bytes := bytes.map fun b => [b]

theorem flatten_bytewise (bytes : Bytes) : (bytewise bytes).flatten = bytes := by
  rw [bytewise, ← List.flatMap_def, List.flatMap_singleton']

theorem length_of_mem_bytewise {bytes read : Bytes} (h : read ∈ bytewise bytes) : read.length = 1 := by
  obtain ⟨b, -, rfl⟩ := List.mem_map.mp h
  rfl

theorem onReads_frame {body : Bytes} (h : Sized body) :
    onReads [] (bytewise (frame body)) = ([body].filter isUtf8, []) := by
  have hflat : (bytewise (frame body)).flatten = stream frame [body] := by
    rw [flatten_bytewise, stream_cons, stream_nil, List.append_nil]
  have hshort : ∀ some : List Bytes, some.length ≤ 1 → BadLast some := fun some hsome => by
    refine List.eq_nil_of_length_eq_zero ?_
    have hle := (@List.dropWhile_sublist _ some isUtf8).length_le
    rw [List.length_tail]
    omega
  have hall := (reassembled_iff (fun b hb => List.mem_singleton.mp hb ▸ h) hflat fun bytes hb => ?_).mpr fun k _ => hshort _ ?_
  · obtain ⟨hemitted, hleft⟩ := hall _ (Nat.le_refl _)
    rw [List.take_length, List.length_nil, Nat.zero_add, hflat] at hemitted hleft
    rw [completed_stream] at hemitted
    rw [remainder_stream, List.length_eq_zero_iff] at hleft
    exact Prod.ext hemitted hleft
  · rw [length_of_mem_bytewise hb]
    decide
  · rw [completedBetween, List.length_drop]
    exact (Nat.sub_le _ _).trans (isPrefix_completed _ _).length_le

/-- Byte by byte exactly the UTF-8 bodies are emitted. -/
theorem onReads_bytewise {bodies : List Bytes} (h : ∀ body ∈ bodies, Sized body) :
    onReads [] (bytewise (stream frame bodies)) = (bodies.filter isUtf8, []) := by
  induction bodies with
  | nil => rfl
  | cons body bodies ih =>
    have hsplit : bytewise (stream frame (body :: bodies)) = bytewise (frame body) ++ bytewise (stream frame bodies) :=
      List.map_append
    rw [hsplit, onReads_append, onReads_frame (h body List.mem_cons_self),
      ih fun b hb => h b (List.mem_cons_of_mem _ hb), ← List.filter_append, List.singleton_append]

theorem emits_iff_badFramesLast_two_reads :
    Reassembles [[0xFF], [97]] [] [[0, 0, 0, 1, 0xFF, 0], [0, 0, 1, 97]] ↔
      BadFramesLast [[0xFF], [97]] 0 [[0, 0, 0, 1, 0xFF, 0], [0, 0, 1, 97]] :=
  @emits_iff_badFramesLast [[0xFF], [97]] [[0, 0, 0, 1, 0xFF], [0, 0, 0, 1, 97]]
    [[0, 0, 0, 1, 0xFF, 0], [0, 0, 1, 97]] (by decide) (by decide) rfl (by decide)

/-- A frame that is not UTF-8 and a good one behind it, in one read: nothing is emitted. -/
theorem bad_frame_holds_back :
    ¬∀ bodies frames reads : List Bytes, (∀ body ∈ bodies, Sized body) →
      bodies.mapM encode = some frames → reads.flatten = frames.flatten →
      (∀ bytes ∈ reads, 1 ≤ bytes.length ∧ bytes.length ≤ 8192) →
        ∀ k ≤ reads.length, (onReads [] (reads.take k)).1 =
          (completed frame bodies (reads.take k).flatten.length).filter isUtf8 := by
  intro hall
  have hsized : ∀ body ∈ [[0xFF], [97]], Sized body := by decide
  have hemitted := hall [[0xFF], [97]] [[0, 0, 0, 1, 0xFF], [0, 0, 0, 1, 97]]
    [[0, 0, 0, 1, 0xFF, 0, 0, 0, 1, 97]] hsized (by decide) rfl (by decide) 1 (Nat.le_refl 1)
  have hnone : try_decode_frame [0, 0, 0, 1, 0xFF, 0, 0, 0, 1, 97] = (none, [0, 0, 0, 1, 97]) := by
    decide
  simp only [List.take_succ_cons, List.take_zero, onReads, onRead, List.nil_append,
    decodeFrames_of_none hnone] at hemitted
  exact absurd hemitted (by decide)

end TcpManager

end Client

end LanChat
