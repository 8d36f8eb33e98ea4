import LanChat.Lib.Framing
import LanChat.Protocol

/-!
# Reading frames from a connection

`FrameCodec::tryDecode` and the read handler of `AsyncSession`. The handler
appends what has been read, takes out the complete frames, and throws the rest
away when it is longer than a body may be. The header counts too, so the last
bytes of a frame of almost the largest size can come too late.
-/

namespace LanChat

open Lib Lib.Framing

namespace FrameCodec

/-- The length that a header of four bytes states. -/
def bodyLength (b₀ b₁ b₂ b₃ : UInt8) : Nat :=
  b₀.toNat * 2 ^ 24 + b₁.toNat * 2 ^ 16 + b₂.toNat * 2 ^ 8 + b₃.toNat

/-- `tryDecode`: the body of the first frame if there is one, and the buffer afterwards. -/
def tryDecode (buffer : Bytes) : Option Bytes × Bytes :=
  match buffer with
  | b₀ :: b₁ :: b₂ :: b₃ :: rest =>
    let len := bodyLength b₀ b₁ b₂ b₃
    if len = 0 ∨ MaxFrameBytes < len then (none, [])
    else if rest.length < len then (none, buffer)
    else (some (rest.take len), rest.drop len)
  | _ => (none, buffer)

theorem header_eq (n : Nat) : header n =
    [UInt8.ofNat (n / 2 ^ 24), UInt8.ofNat (n / 2 ^ 16), UInt8.ofNat (n / 2 ^ 8), UInt8.ofNat n] := rfl

theorem bodyLength_header {n : Nat} (h : n < 2 ^ 32) :
    bodyLength (UInt8.ofNat (n / 2 ^ 24)) (UInt8.ofNat (n / 2 ^ 16)) (UInt8.ofNat (n / 2 ^ 8))
      (UInt8.ofNat n) = n := by
  simp only [bodyLength, UInt8.toNat_ofNat']
  omega

/-- A frame as `encode` makes it. -/
def frame (body : Bytes) : Bytes := header body.length ++ body

@[simp] theorem length_frame (body : Bytes) : (frame body).length = 4 + body.length := by
  simp only [frame, header_eq, List.length_append, List.length_cons, List.length_nil]

theorem encode_of_le {body : Bytes} (h : body.length ≤ MaxFrameBytes) :
    encode body = some (frame body) := by
  rw [encode, if_neg (Nat.not_lt.mpr h)]
  rfl

/-- A body that a frame may have. -/
def Sized (body : Bytes) : Prop := 1 ≤ body.length ∧ body.length ≤ MaxFrameBytes

instance (body : Bytes) : Decidable (Sized body) := inferInstanceAs (Decidable (_ ∧ _))

variable {body part : Bytes}

/-- The first frame of a buffer is taken out. -/
theorem tryDecode_frame (h : Sized body) (rest : Bytes) :
    tryDecode (frame body ++ rest) = (some body, rest) := by
  have hlen : body.length < 2 ^ 32 := Nat.lt_of_le_of_lt h.2 (by decide)
  simp only [frame, header_eq, List.cons_append, List.nil_append, tryDecode, bodyLength_header hlen]
  rw [if_neg (not_or.mpr ⟨Nat.pos_iff_ne_zero.mp h.1, Nat.not_lt.mpr h.2⟩),
    if_neg (by rw [List.length_append]; omega)]
  simp

/-- A frame that is not complete stays in the buffer. -/
theorem tryDecode_part (h : Sized body) (hpart : part <+: frame body)
    (hshort : part.length < (frame body).length) : tryDecode part = (none, part) := by
  have hlen : body.length < 2 ^ 32 := Nat.lt_of_le_of_lt h.2 (by decide)
  match part with
  | [] | [_] | [_, _] | [_, _, _] => rfl
  | b₀ :: b₁ :: b₂ :: b₃ :: rest =>
    simp only [frame, header_eq, List.cons_append, List.nil_append, List.cons_prefix_cons] at hpart
    obtain ⟨rfl, rfl, rfl, rfl, -⟩ := hpart
    simp only [length_frame, List.length_cons] at hshort
    simp only [tryDecode, bodyLength_header hlen]
    rw [if_neg (not_or.mpr ⟨Nat.pos_iff_ne_zero.mp h.1, Nat.not_lt.mpr h.2⟩), if_pos (by omega)]

/-- A body that has been taken out is one that a frame may have, and the buffer
has lost its frame. -/
theorem tryDecode_some {buffer buffer' : Bytes} (h : tryDecode buffer = (some body, buffer')) :
    Sized body ∧ buffer'.length + (4 + body.length) = buffer.length := by
  unfold tryDecode at h
  split at h
  · dsimp only at h
    split at h
    · cases h
    next hlen =>
    split at h
    · cases h
    next hrest =>
    cases h
    simp only [Sized, List.length_take, List.length_drop, List.length_cons]
    omega
  · cases h

theorem length_tryDecode_none {buffer buffer' : Bytes} (h : tryDecode buffer = (none, buffer')) :
    buffer'.length ≤ buffer.length := by
  unfold tryDecode at h
  split at h
  · dsimp only at h
    split at h
    · cases h
      exact Nat.zero_le _
    split at h
    · cases h
      exact Nat.le_refl _
    · cases h
  · cases h
    exact Nat.le_refl _

end FrameCodec

namespace AsyncSession

open FrameCodec

/-- The `while` loop of `doRead`: what is passed to `onMessage`, and the buffer. -/
def drain (buffer : Bytes) : List Bytes × Bytes :=
  match _hdecode : tryDecode buffer with
  | (none, buffer') => ([], buffer')
  | (some message, buffer') =>
    let (messages, final) := drain buffer'
    (message :: messages, final)
termination_by buffer.length
decreasing_by
  have hlost := (tryDecode_some _hdecode).2
  omega

/-- The handler of `doRead` after `bytes` have been read. -/
def doRead (read_accumulator bytes : Bytes) : List Bytes × Bytes :=
  let (messages, read_accumulator) := drain (read_accumulator ++ bytes)
  -- the cap is the size of a body, without the header
  (messages, if MaxFrameBytes < read_accumulator.length then [] else read_accumulator)

/-- The handler for one read after the other. -/
def doReads (read_accumulator : Bytes) : List Bytes → List Bytes × Bytes
  | [] => ([], read_accumulator)
  | bytes :: reads =>
    let (messages, read_accumulator) := doRead read_accumulator bytes
    let (messages', read_accumulator) := doReads read_accumulator reads
    (messages ++ messages', read_accumulator)

/-! ## What the handler takes out -/

section Drain

variable {body part buffer buffer' : Bytes} {bodies : List Bytes}

theorem drain_of_none (h : tryDecode buffer = (none, buffer')) : drain buffer = ([], buffer') := by
  rw [drain]
  split
  · next h' => rw [h] at h'; cases h'; rfl
  · next h' => rw [h] at h'; cases h'

theorem drain_of_some (h : tryDecode buffer = (some body, buffer')) :
    drain buffer = (body :: (drain buffer').1, (drain buffer').2) := by
  rw [drain]
  split
  · next h' => rw [h] at h'; cases h'
  · next h' => rw [h] at h'; cases h'; rfl

theorem drain_stream (h : ∀ body ∈ bodies, Sized body) (part : Bytes) :
    drain (stream frame bodies ++ part) = (bodies ++ (drain part).1, (drain part).2) := by
  induction bodies with
  | nil => rfl
  | cons body bodies ih =>
    have hnext := tryDecode_frame (h body List.mem_cons_self) (stream frame bodies ++ part)
    rw [stream_cons, List.append_assoc, drain_of_some hnext,
      ih fun b hb => h b (List.mem_cons_of_mem _ hb)]
    rfl

/-- The beginning of a frame stays in the buffer. -/
theorem drain_part {later : List Bytes} {unseen : Bytes} (hrest : part ++ unseen = stream frame later)
    (hshort : Longer frame later part.length) (h : ∀ body ∈ later, Sized body) :
    drain part = ([], part) := by
  refine drain_of_none ?_
  cases later with
  | nil =>
    rw [(List.append_eq_nil_iff.mp hrest).1]
    rfl
  | cons body bodies =>
    have hpart : part <+: frame body := List.prefix_of_prefix_length_le ⟨unseen, hrest⟩
      ⟨stream frame bodies, rfl⟩ (Nat.le_of_lt (hshort body bodies rfl))
    exact tryDecode_part (h body List.mem_cons_self) hpart (hshort body bodies rfl)

/-- Complete frames are taken out, and the beginning of the next one stays. -/
theorem drain_cut {todo done later : List Bytes} {unseen : Bytes}
    (hcut : Cut frame todo buffer unseen done later part) (h : ∀ body ∈ todo, Sized body) :
    drain buffer = (done, part) := by
  rw [hcut.frames] at h
  rw [hcut.seen_eq, drain_stream fun body hb => h body (List.mem_append_left _ hb),
    drain_part hcut.rest hcut.short fun body hb => h body (List.mem_append_right _ hb),
    List.append_nil]

/-- What is taken out are bodies of frames, and it fits into what was there. -/
theorem drain_bounds (buffer : Bytes) : (∀ body ∈ (drain buffer).1, Sized body) ∧
    (stream frame (drain buffer).1).length + (drain buffer).2.length ≤ buffer.length := by
  induction buffer using drain.induct with
  | case1 buffer buffer' h =>
    rw [drain_of_none h]
    exact ⟨nofun, by simpa using length_tryDecode_none h⟩
  | case2 buffer body buffer' h messages final heq ih =>
    obtain ⟨hsized, hlost⟩ := tryDecode_some h
    rw [drain_of_some h]
    refine ⟨fun b hb => ?_, ?_⟩
    · rcases List.mem_cons.mp hb with rfl | hb
      · exact hsized
      · exact ih.1 b hb
    · have hrest := ih.2
      simp only [stream_cons, List.length_append, length_frame]
      omega

theorem doRead_bounds (read_accumulator bytes : Bytes) :
    (∀ body ∈ (doRead read_accumulator bytes).1, Sized body) ∧
      (stream frame (doRead read_accumulator bytes).1).length +
        (doRead read_accumulator bytes).2.length ≤ read_accumulator.length + bytes.length := by
  obtain ⟨hsized, hlength⟩ := drain_bounds (read_accumulator ++ bytes)
  rw [List.length_append] at hlength
  refine ⟨hsized, ?_⟩
  simp only [doRead]
  split
  · rw [List.length_nil]
    omega
  · exact hlength

theorem doReads_bounds (read_accumulator : Bytes) (reads : List Bytes) :
    (∀ body ∈ (doReads read_accumulator reads).1, Sized body) ∧
      (stream frame (doReads read_accumulator reads).1).length +
        (doReads read_accumulator reads).2.length ≤ read_accumulator.length + reads.flatten.length := by
  induction reads generalizing read_accumulator with
  | nil => exact ⟨nofun, by simp [doReads]⟩
  | cons bytes reads ih =>
    obtain ⟨hsized, hlength⟩ := doRead_bounds read_accumulator bytes
    obtain ⟨hsized', hlength'⟩ := ih (doRead read_accumulator bytes).2
    simp only [doReads, stream_append, List.length_append, List.flatten_cons]
    refine ⟨fun b hb => (List.mem_append.mp hb).elim (hsized b) (hsized' b), ?_⟩
    omega

end Drain

/-! ## Reassembly -/

/-- No read ends more than `MaxFrameBytes` into a frame that is not complete. -/
def ReadsFit (bodies : List Bytes) (reads : List Bytes) : Prop :=
  ∀ k ≤ reads.length, remainder frame bodies (reads.take k).flatten.length ≤ MaxFrameBytes

/-- From a buffer that holds the beginning of the frames to come. -/
theorem doReads_iff {reads : List Bytes} {part : Bytes} {todo : List Bytes}
    (hstream : part ++ reads.flatten = stream frame todo) (hsized : ∀ body ∈ todo, Sized body)
    (hshort : Longer frame todo part.length) (hpart : part.length ≤ MaxFrameBytes) :
    (doReads part reads).1 = todo ↔
      ∀ k ≤ reads.length,
        remainder frame todo (part.length + (reads.take k).flatten.length) ≤ MaxFrameBytes := by
  induction reads generalizing part todo with
  | nil =>
    have htodo : todo = [] := by
      cases todo with
      | nil => rfl
      | cons body bodies =>
        have hlt := hshort body bodies rfl
        have hlen := congrArg List.length hstream
        simp only [List.flatten_nil, List.append_nil, stream_cons, List.length_append] at hlen
        omega
    subst htodo
    simp [doReads, remainder, hpart]
  | cons bytes reads ih =>
    rw [List.flatten_cons, ← List.append_assoc] at hstream
    obtain ⟨done, later, part', hcut⟩ := exists_cut hstream
    have hdrain := drain_cut hcut hsized
    have hlater : ∀ body ∈ later, Sized body := fun body hb =>
      hsized body (hcut.frames ▸ List.mem_append_right _ hb)
    have hremainder : ∀ n, remainder frame todo (part.length + (bytes.length + n)) =
        remainder frame later (part'.length + n) := fun n => by
      rw [← Nat.add_assoc, ← List.length_append, hcut.remainder_add]
    have hcond : (∀ k ≤ (bytes :: reads).length, remainder frame todo
          (part.length + ((bytes :: reads).take k).flatten.length) ≤ MaxFrameBytes) ↔
        ∀ k ≤ reads.length,
          remainder frame later (part'.length + (reads.take k).flatten.length) ≤ MaxFrameBytes := by
      constructor
      · intro h k hk
        rw [← hremainder, ← List.length_append, ← List.flatten_cons, ← List.take_succ_cons]
        exact h (k + 1) (Nat.succ_le_succ hk)
      · intro h k hk
        cases k with
        | zero => simpa [hshort.remainder_eq] using hpart
        | succ k =>
          rw [List.take_succ_cons, List.flatten_cons, List.length_append, hremainder]
          exact h k (Nat.le_of_succ_le_succ hk)
    rw [hcond]
    simp only [doReads, doRead, hdrain]
    rcases Nat.lt_or_ge MaxFrameBytes part'.length with hlong | hfits
    · rw [if_pos hlong]
      refine iff_of_false (fun heq => ?_) fun h => ?_
      · rw [hcut.frames] at heq
        have hsame := List.append_cancel_left heq
        have hbound := (doReads_bounds [] reads).2
        have hlen := congrArg List.length hcut.rest
        rw [hsame] at hbound
        simp only [List.length_append, List.length_nil] at hbound hlen
        omega
      · have hzero := h 0 (Nat.zero_le _)
        simp only [List.take_zero, List.flatten_nil, List.length_nil, Nat.add_zero,
          hcut.short.remainder_eq] at hzero
        omega
    · rw [if_neg (Nat.not_lt.mpr hfits), ← ih hcut.rest hlater hcut.short hfits, hcut.frames,
        List.append_right_inj]

theorem readsFit_iff {reads bodies : List Bytes} (hstream : reads.flatten = stream frame bodies)
    (hsized : ∀ body ∈ bodies, Sized body) :
    (doReads [] reads).1 = bodies ↔ ReadsFit bodies reads := by
  have hiff := @doReads_iff reads [] bodies hstream hsized
    (fun body bodies _ => by rw [length_frame, List.length_nil]; omega) (Nat.zero_le _)
  simpa only [ReadsFit, List.length_nil, Nat.zero_add] using hiff

/-- Whatever is taken out of a stream, if it is all of the frames nothing is left. -/
theorem doReads_eq_of_fst {reads : List Bytes} {bodies : List Bytes}
    (hstream : reads.flatten = stream frame bodies) (h : (doReads [] reads).1 = bodies) :
    doReads [] reads = (bodies, []) := by
  have hbound := (doReads_bounds [] reads).2
  rw [h, hstream] at hbound
  have hnil : (doReads [] reads).2 = [] := List.eq_nil_of_length_eq_zero (by
    simp only [List.length_nil] at hbound
    omega)
  exact Prod.ext h hnil

theorem mapM_encode {bodies : List Bytes} (h : ∀ body ∈ bodies, Sized body) :
    bodies.mapM encode = some (bodies.map frame) := by
  induction bodies with
  | nil => rfl
  | cons body bodies ih =>
    rw [List.mapM_cons, encode_of_le (h body List.mem_cons_self).2,
      ih fun b hb => h b (List.mem_cons_of_mem _ hb)]
    rfl

/-- However the frames are cut into reads, exactly their bodies are passed on and
nothing is left over if and only if no read ends too far into a frame. -/
theorem reassembles_iff {bodies frames reads : List Bytes} (hsized : ∀ body ∈ bodies, Sized body)
    (hframes : bodies.mapM encode = some frames) (hreads : reads.flatten = frames.flatten) :
    doReads [] reads = (bodies, []) ↔ ReadsFit bodies reads := by
  have hstream : reads.flatten = stream frame bodies := by
    rw [mapM_encode hsized] at hframes
    cases hframes
    exact hreads
  exact ⟨fun h => (readsFit_iff hstream hsized).mp (congrArg Prod.fst h),
    fun h => doReads_eq_of_fst hstream ((readsFit_iff hstream hsized).mpr h)⟩

/-- Two frames in three reads, the second of which ends in the header of the second frame. -/
theorem reassembles_iff_two_frames :
    doReads [] [[0, 0], [0, 1, 97, 0, 0], [0, 2, 98, 99]] = ([[97], [98, 99]], []) ↔
      ReadsFit [[97], [98, 99]] [[0, 0], [0, 1, 97, 0, 0], [0, 2, 98, 99]] := by
  have hsized : ∀ body ∈ [[97], [98, 99]], Sized body := by decide
  exact @reassembles_iff [[97], [98, 99]] [[0, 0, 0, 1, 97], [0, 0, 0, 2, 98, 99]]
    [[0, 0], [0, 1, 97, 0, 0], [0, 2, 98, 99]] hsized rfl rfl

/-- A body of the largest size. -/
def largest : Bytes := List.replicate MaxFrameBytes 97

theorem length_largest : largest.length = MaxFrameBytes := List.length_replicate

theorem sized_largest : Sized largest := by
  rw [Sized, length_largest]
  decide

/-- Its frame in full reads, the last three bytes apart. -/
def lateReads : List Bytes := pieces [65536, 65536, 65536, 65536, 1, 3] (frame largest)

theorem length_frame_largest : (frame largest).length = 262148 := by
  rw [length_frame, length_largest]
  decide

theorem flatten_lateReads : lateReads.flatten = frame largest := by
  rw [lateReads, flatten_pieces]
  exact List.take_of_length_le (by rw [length_frame_largest]; decide)

/-- The fifth read ends one byte too far into the frame. -/
theorem not_readsFit_lateReads : ¬ReadsFit [largest] lateReads := by
  intro h
  have hfive : (lateReads.take 5).flatten.length = 262145 := by
    rw [lateReads, take_pieces, flatten_pieces, List.length_take, length_frame_largest]
    decide
  have hbound := h 5 (by decide)
  rw [hfive, remainder, if_neg (by rw [length_frame_largest]; decide)] at hbound
  exact absurd hbound (by decide)

theorem largest_frame_lost :
    ¬∀ bodies frames reads : List Bytes, (∀ body ∈ bodies, Sized body) →
      bodies.mapM encode = some frames → reads.flatten = frames.flatten →
      (∀ bytes ∈ reads, 1 ≤ bytes.length ∧ bytes.length ≤ 65536) →
        doReads [] reads = (bodies, []) := by
  intro hall
  have hsized : ∀ body ∈ [largest], Sized body := fun body hbody => by
    rw [List.mem_singleton.mp hbody]
    exact sized_largest
  have hstream : lateReads.flatten = stream frame [largest] := by
    rw [flatten_lateReads, stream_cons, stream_nil, List.append_nil]
  have hread : ∀ bytes ∈ lateReads, 1 ≤ bytes.length ∧ bytes.length ≤ 65536 := by
    intro bytes hbytes
    have hlen := length_of_mem_pieces (by rw [length_frame_largest]; decide) hbytes
    generalize bytes.length = n at hlen
    revert n
    decide
  have hlost := hall [largest] [frame largest] lateReads hsized (mapM_encode hsized)
    (by rw [flatten_lateReads, List.flatten_singleton]) hread
  exact not_readsFit_lateReads ((readsFit_iff hstream hsized).mp (congrArg Prod.fst hlost))

end AsyncSession

end LanChat
