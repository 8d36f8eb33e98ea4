import Mathlib.Data.FinEnum
import LanChat.Client.World
import LanChat.Db.Store
import LanChat.Json.Readable
import LanChat.Server.MessageRouter

/-!
# Streamed summaries

`searchStore.ts` and the way of a summary to it: the server cuts it into chunks
of 80 bytes, each chunk is a frame of its own, and the client drops a frame that
is not UTF-8 or no JSON text. A summary arrives whole exactly if no chunk is lost
(`summary_arrives_iff`).
-/

namespace LanChat

open Lib Lib.Framing Lib.Rfc8259 Json

namespace Client

/-! ## The store -/

/-- `SearchStore`, without its calls to the server. -/
structure SearchStore (α : Type) where
  searchResults : List α
  isSearching : Bool
  searchQuery : Bytes
  summaryText : Bytes
  isSummarizing : Bool

namespace SearchStore

variable {α : Type} (js : Js) (parseSearchPayload : Bytes → List α)

/-- `handleIncomingAIEvent`. Without a string for its id an event throws, and
nothing changes. -/
def handleIncomingAIEvent (s : SearchStore α) (raw : Object) : SearchStore α :=
  match typeField raw, member raw "request_id" with
  | some .AIResponse, some (.str requestId) =>
    if (lit "search-").isPrefixOf requestId then
      { s with
        isSearching := false
        searchResults :=
          if stringField raw "status" [] = lit "done" ∧ truthy (member raw "msg") then
            parseSearchPayload (js.string (member raw "msg")) else [] }
    else if (lit "summarize-").isPrefixOf requestId then
      if stringField raw "status" [] = lit "start" then { s with isSummarizing := true, summaryText := [] }
      else { s with
        isSummarizing := false
        summaryText := js.string (some (orElse (member raw "msg") (.str s.summaryText))) }
    else s
  | some .AIStreamChunk, some (.str requestId) =>
    if (lit "summarize-").isPrefixOf requestId then
      { s with
        summaryText := s.summaryText ++ js.string (member raw "msg")
        isSummarizing := !truthy (member raw "is_final") }
    else s
  | _, _ => s

/-- The listener for `message-received`, as far as it concerns this store. -/
def onMessageReceived (s : SearchStore α) (payload : Bytes) : SearchStore α :=
  match jsonParse payload with
  | some raw => s.handleIncomingAIEvent js parseSearchPayload raw
  | none => s

/-- What the page makes of the bodies that are emitted. -/
theorem foldl_emitted (bodies : List Bytes) (s : SearchStore α) :
    (bodies.filter isUtf8).foldl (onMessageReceived js parseSearchPayload) s =
      (bodies.filterMap shown).foldl (handleIncomingAIEvent js parseSearchPayload) s := by
  induction bodies generalizing s with
  | nil => rfl
  | cons body bodies ih =>
    unfold shown at ih ⊢
    by_cases hutf8 : isUtf8 body = true
    · rw [List.filter_cons_of_pos hutf8, List.filterMap_cons, if_pos (isUtf8_iff.mp hutf8), List.foldl_cons, ih,
        onMessageReceived]
      cases jsonParse body with
      | none => rfl
      | some raw => rfl
    · rw [List.filter_cons_of_neg hutf8, List.filterMap_cons, if_neg (mt isUtf8_iff.mpr hutf8), ih]

end SearchStore

/-! ## The frames of a summary -/

open MessageRouter

/-- The text of a chunk. -/
def chunkText (summary : Bytes) (chunkIndex : Nat) : Bytes :=
  (summary.drop (chunkIndex * chunkSize)).take chunkSize

/-- What `deliverSummaryChunks` delivers if every payload fits a frame. -/
def summaryPayloads (requestId summary : Bytes) : List Object :=
  summaryStart requestId :: (List.range (chunkCount summary)).map (summaryChunk requestId summary)

/-- `FrameCodec::encode` does not throw. -/
def fits (payload : Object) : Bool := (serialize payload).length ≤ FrameCodec.MaxFrameBytes

/-- The frames of the deliveries. -/
def framesOf (out : List Delivery) : List Bytes := out.filterMap fun d => FrameCodec.encode (serialize d.payload)

section Chunks

variable {requestId summary : Bytes}

theorem flatMap_chunkText (summary : Bytes) (n : Nat) :
    (List.range n).flatMap (chunkText summary) = summary.take (n * chunkSize) := by
  induction n with
  | zero => simp
  | succ n ih =>
    rw [List.range_succ, List.flatMap_append, ih, List.flatMap_singleton, Nat.succ_mul, List.take_add]
    rfl

/-- The chunks make up the summary. -/
theorem flatMap_chunks (summary : Bytes) :
    (List.range (chunkCount summary)).flatMap (chunkText summary) = summary := by
  rw [flatMap_chunkText]
  refine List.take_of_length_le ?_
  unfold chunkCount chunkSize
  omega

theorem chunkText_ne_nil {i : Nat} (h : i ∈ List.range (chunkCount summary)) : chunkText summary i ≠ [] := by
  rw [List.mem_range] at h
  refine List.ne_nil_of_length_pos ?_
  unfold chunkCount chunkSize at h
  rw [chunkText, List.length_take, List.length_drop]
  unfold chunkSize
  omega

/-- Without some of the chunks there is less text. -/
theorem eq_of_sublist {f : Nat → Bytes} {is ns : List Nat} (h : is.Sublist ns) (hne : ∀ i ∈ ns, f i ≠ [])
    (hlength : (ns.flatMap f).length ≤ (is.flatMap f).length) : is = ns := by
  induction h with
  | slnil => rfl
  | cons n h ih =>
    have hpos := List.length_pos_of_ne_nil (hne n List.mem_cons_self)
    have hle := (h.flatMap f).length_le
    rw [List.flatMap_cons, List.length_append] at hlength
    omega
  | cons_cons n h ih =>
    rw [List.flatMap_cons, List.flatMap_cons, List.length_append, List.length_append] at hlength
    rw [ih (fun i hi => hne i (List.mem_cons_of_mem _ hi)) (by omega)]

theorem plain_summary : ∀ payload ∈ summaryPayloads requestId summary, (Value.obj payload).Plain := by
  intro payload hpayload
  rcases List.mem_cons.mp hpayload with rfl | hpayload
  · refine plain_object fun field hfield => ?_
    simp only [List.mem_cons, List.not_mem_nil, or_false] at hfield
    rcases hfield with rfl | rfl | rfl
    · exact .int _
    · exact .str _
    · exact .str _
  · obtain ⟨i, -, rfl⟩ := List.mem_map.mp hpayload
    refine plain_object fun field hfield => ?_
    simp only [List.mem_cons, List.not_mem_nil, or_false] at hfield
    rcases hfield with rfl | rfl | rfl | rfl | rfl
    · exact .int _
    · exact .str _
    · exact .int _
    · exact .bool _
    · exact .str _

/-- The payloads are read if the id and the chunks are readable. -/
theorem holding_summary_iff :
    (∀ payload ∈ summaryPayloads requestId summary, (Value.obj payload).Holding Readable) ↔
      Readable requestId ∧ ∀ i < chunkCount summary, Readable (chunkText summary i) := by
  constructor
  · intro h
    have hrequest : OrdMap.find? (summaryStart requestId) (lit "request_id") = some (.str requestId) := by
      simp [summaryStart, find?_object]
    refine ⟨holding_of_find? (h _ List.mem_cons_self) hrequest, fun i hi => ?_⟩
    have hmsg : OrdMap.find? (summaryChunk requestId summary i) (lit "msg") = some (.str (chunkText summary i)) := by
      simp [summaryChunk, find?_object, chunkText]
    exact holding_of_find? (h _ (List.mem_cons_of_mem _ (List.mem_map.mpr ⟨i, List.mem_range.mpr hi, rfl⟩))) hmsg
  · rintro ⟨hid, hchunks⟩ payload hpayload
    have hkeys : Readable (lit "type") ∧ Readable (lit "request_id") ∧ Readable (lit "status") ∧
        Readable (lit "start") ∧ Readable (lit "chunk_index") ∧ Readable (lit "is_final") ∧ Readable (lit "msg") := by
      decide +kernel
    obtain ⟨htype, hrequest, hstatus, hstart, hindex, hfinal, hmsg⟩ := hkeys
    rcases List.mem_cons.mp hpayload with rfl | hpayload
    · refine holding_object fun field hfield => ?_
      simp only [List.mem_cons, List.not_mem_nil, or_false] at hfield
      rcases hfield with rfl | rfl | rfl
      · exact ⟨htype, .int _⟩
      · exact ⟨hrequest, .str hid⟩
      · exact ⟨hstatus, .str hstart⟩
    · obtain ⟨i, hi, rfl⟩ := List.mem_map.mp hpayload
      refine holding_object fun field hfield => ?_
      simp only [List.mem_cons, List.not_mem_nil, or_false] at hfield
      rcases hfield with rfl | rfl | rfl | rfl | rfl
      · exact ⟨htype, .int _⟩
      · exact ⟨hrequest, .str hid⟩
      · exact ⟨hindex, .int _⟩
      · exact ⟨hfinal, .bool _⟩
      · exact ⟨hmsg, .str (hchunks i (List.mem_range.mp hi))⟩

/-! ### The frames -/

/-- What follows a delivery is delivered if the payload fits a frame. -/
theorem framesOf_deliver (session : SessionId) (payload : Object) (carries : Server → List StoredMessage)
    (f : Unit → RouterM Unit) (st : Server) :
    ∃ s, framesOf ((deliverContent session payload carries >>= f) st).out =
      if fits payload then FrameCodec.frame (serialize payload) :: framesOf (f () s).out else [] := by
  rcases Nat.lt_or_ge FrameCodec.MaxFrameBytes (serialize payload).length with hlarge | hle
  · have hnone : FrameCodec.encode (serialize payload) = none := if_pos hlarge
    have hrun : deliverContent session payload carries st =
        ⟨.error .frameTooLarge, st, [⟨session, payload, carries st, st⟩]⟩ := by
      simp only [deliverContent, AsyncSession.deliver, hnone]
    refine ⟨st, ?_⟩
    rw [Cmd.bind_error _ (by rw [hrun]), hrun, if_neg (by simpa [fits] using hlarge)]
    simp [framesOf, hnone]
  · have hsome := FrameCodec.encode_of_le hle
    have hrun : ∃ s, deliverContent session payload carries st =
        ⟨.ok (), s, [⟨session, payload, carries st, st⟩]⟩ := by
      simp only [deliverContent, AsyncSession.deliver, hsome]
      exact ⟨_, rfl⟩
    obtain ⟨s, hrun⟩ := hrun
    refine ⟨s, ?_⟩
    rw [Cmd.bind_ok _ (by rw [hrun]), hrun, if_pos (by simpa [fits] using hle)]
    simp [framesOf, hsome]

theorem framesOf_each {β : Type} (session : SessionId) (payload : β → Object)
    (carries : Server → List StoredMessage) (xs : List β) (st : Server) :
    framesOf (Cmd.each xs (fun x => deliverContent session (payload x) carries) st).out =
      ((xs.map payload).takeWhile fits).map fun p => FrameCodec.frame (serialize p) := by
  induction xs generalizing st with
  | nil => rfl
  | cons x xs ih =>
    obtain ⟨s, hs⟩ := framesOf_deliver session (payload x) carries
      (fun _ => Cmd.each xs fun x => deliverContent session (payload x) carries) st
    rw [Cmd.each, hs, List.map_cons, List.takeWhile_cons, ih s]
    split <;> rfl

/-- The frames of a summary: those up to the first payload that is too large. -/
theorem framesOf_deliverSummaryChunks (session : SessionId) (requestId summary : Bytes)
    (history : List StoredMessage) (st : Server) :
    framesOf (deliverSummaryChunks session requestId summary history st).out =
      ((summaryPayloads requestId summary).takeWhile fits).map fun p => FrameCodec.frame (serialize p) := by
  obtain ⟨s, hs⟩ := framesOf_deliver session (summaryStart requestId) (fun _ => [])
    (fun _ => Cmd.each (List.range (chunkCount summary)) fun i =>
      deliverContent session (summaryChunk requestId summary i) fun _ => quoted history) st
  unfold deliverSummaryChunks
  rw [deliver, hs, summaryPayloads, List.takeWhile_cons, framesOf_each]
  split <;> rfl

/-! ### What becomes of the store -/

section Store

variable {α : Type} {js : Js} {parseSearchPayload : Bytes → List α} {s : SearchStore α}

theorem handle_start (hid : (lit "summarize-").isPrefixOf requestId = true) :
    s.handleIncomingAIEvent js parseSearchPayload (summaryStart requestId) =
      { s with isSummarizing := true, summaryText := [] } := by
  have htype : typeField (summaryStart requestId) = some .AIResponse :=
    typeField_of_find? (by simp [summaryStart, find?_object])
  have hrequest : member (summaryStart requestId) "request_id" = some (.str requestId) := by
    simp [member, summaryStart, find?_object]
  have hstatus : stringField (summaryStart requestId) "status" [] = lit "start" := by
    simp [stringField, summaryStart, find?_object, text]
  have hsearch : (lit "search-").isPrefixOf requestId = false := by
    obtain ⟨rest, rfl⟩ := List.isPrefixOf_iff_prefix.mp hid
    rfl
  simp only [SearchStore.handleIncomingAIEvent, htype, hrequest, hstatus, hsearch, hid, if_true, Bool.false_eq_true,
    if_false]

theorem handle_chunk (hid : (lit "summarize-").isPrefixOf requestId = true) (i : Nat) :
    s.handleIncomingAIEvent js parseSearchPayload (summaryChunk requestId summary i) =
      { s with
        summaryText := s.summaryText ++ chunkText summary i
        isSummarizing := !decide (summary.length ≤ i * chunkSize + chunkSize) } := by
  have htype : typeField (summaryChunk requestId summary i) = some .AIStreamChunk :=
    typeField_of_find? (by simp [summaryChunk, find?_object])
  have hrequest : member (summaryChunk requestId summary i) "request_id" = some (.str requestId) := by
    simp [member, summaryChunk, find?_object]
  have hmsg : member (summaryChunk requestId summary i) "msg" = some (.str (chunkText summary i)) := by
    simp [member, summaryChunk, find?_object, chunkText]
  have hfinal : member (summaryChunk requestId summary i) "is_final" =
      some (.bool (decide (summary.length ≤ i * chunkSize + chunkSize))) := by
    simp [member, summaryChunk, find?_object]
  simp only [SearchStore.handleIncomingAIEvent, htype, hrequest, hmsg, hfinal, hid, if_true, Js.string, truthy]

/-- The text of the store grows by the chunks that come through. -/
theorem summaryText_foldl (hid : (lit "summarize-").isPrefixOf requestId = true) (is : List Nat) (s : SearchStore α) :
    ((is.map (summaryChunk requestId summary)).foldl
      (SearchStore.handleIncomingAIEvent js parseSearchPayload) s).summaryText =
        s.summaryText ++ is.flatMap (chunkText summary) := by
  induction is generalizing s with
  | nil => simp
  | cons i is ih => rw [List.map_cons, List.foldl_cons, handle_chunk hid, ih, List.flatMap_cons, List.append_assoc]

/-- Of the payloads that come through all are needed, and all are enough. -/
theorem whole_iff (hid : (lit "summarize-").isPrefixOf requestId = true) (hsummary : summary ≠ [])
    {payloads : List Object} (hsub : payloads.Sublist (summaryPayloads requestId summary)) :
    (∀ s : SearchStore α,
      (payloads.foldl (SearchStore.handleIncomingAIEvent js parseSearchPayload) s).summaryText = summary ∧
        (payloads.foldl (SearchStore.handleIncomingAIEvent js parseSearchPayload) s).isSummarizing = false) ↔
      payloads = summaryPayloads requestId summary := by
  constructor
  · intro h
    rcases List.sublist_cons_iff.mp hsub with hchunks | ⟨chunks, rfl, hchunks⟩
    · obtain ⟨is, -, rfl⟩ := List.sublist_map_iff.mp hchunks
      have htext := (h ⟨[], false, [], summary ++ summary, false⟩).1
      rw [summaryText_foldl hid] at htext
      have hlength := congrArg List.length htext
      have hpos := List.length_pos_of_ne_nil hsummary
      simp only [List.length_append] at hlength
      omega
    · obtain ⟨is, his, rfl⟩ := List.sublist_map_iff.mp hchunks
      have htext := (h ⟨[], false, [], [], false⟩).1
      rw [List.foldl_cons, handle_start hid, summaryText_foldl hid, List.nil_append] at htext
      rw [eq_of_sublist his (fun i hi => chunkText_ne_nil hi) (by rw [htext, flatMap_chunks])]
      rfl
  · rintro rfl s
    have hcount : ∃ last, chunkCount summary = last + 1 ∧ summary.length ≤ last * chunkSize + chunkSize := by
      have hpos := List.length_pos_of_ne_nil hsummary
      refine ⟨chunkCount summary - 1, ?_⟩
      unfold chunkCount chunkSize
      omega
    obtain ⟨last, hlast, hfinal⟩ := hcount
    rw [summaryPayloads, List.foldl_cons, handle_start hid]
    refine ⟨?_, ?_⟩
    · rw [summaryText_foldl hid, flatMap_chunks, List.nil_append]
    · rw [hlast, List.range_succ, List.map_append, List.foldl_append, List.map_singleton, List.foldl_cons,
        List.foldl_nil, handle_chunk hid]
      simpa using hfinal

/-- The payloads that are shown. -/
theorem filterMap_shown {payloads : List Object} (h : ∀ payload ∈ payloads, (Value.obj payload).Plain) :
    ((payloads.map serialize).filterMap shown).Sublist payloads ∧
      ((payloads.map serialize).filterMap shown = payloads ↔
        ∀ payload ∈ payloads, (Value.obj payload).Holding Readable) := by
  induction payloads with
  | nil => exact ⟨.slnil, iff_of_true rfl nofun⟩
  | cons payload payloads ih =>
    obtain ⟨hsub, hiff⟩ := ih fun p hp => h p (List.mem_cons_of_mem _ hp)
    obtain ⟨hcases, hreadable⟩ := shown_serialize (h payload List.mem_cons_self)
    rw [List.map_cons, List.forall_mem_cons, ← hiff, ← hreadable]
    rcases hcases with hshown | hlost
    · rw [List.filterMap_cons_some hshown, List.cons.injEq]
      exact ⟨hsub.cons_cons _, by simp [hshown]⟩
    · rw [List.filterMap_cons_none hlost, hlost]
      refine ⟨hsub.cons _, iff_of_false (fun heq => ?_) (by simp)⟩
      have hle := hsub.length_le
      rw [heq, List.length_cons] at hle
      omega

/-- The store when the read task has read the frames. -/
def SearchStore.receive (js : Js) (parseSearchPayload : Bytes → List α) (reads : List Bytes) (s : SearchStore α) :
    SearchStore α :=
  (TcpManager.onReads [] reads).1.foldl (onMessageReceived js parseSearchPayload) s

theorem summarizeMessages_ne_nil (history : List StoredMessage) : summarizeMessages history ≠ [] := by
  unfold summarizeMessages
  split
  · exact List.cons_ne_nil _ _
  · decide

/-- The client ends with the summary, whatever it showed before and however the
frames are cut into reads. -/
def ArrivesWhole (js : Js) (parseSearchPayload : Bytes → List α) (session : SessionId) (requestId : Bytes)
    (history : List StoredMessage) (st : Server) : Prop :=
  ∀ (reads : List Bytes) (s : SearchStore α),
    reads.flatten =
      (framesOf (deliverSummaryChunks session requestId (summarizeMessages history) history st).out).flatten →
    (∀ bytes ∈ reads, 1 ≤ bytes.length ∧ bytes.length ≤ 8192) →
      (s.receive js parseSearchPayload reads).summaryText = summarizeMessages history ∧
        (s.receive js parseSearchPayload reads).isSummarizing = false

/-- Every payload fits a frame, and the id and each chunk are readable alone. -/
def CutsWell (requestId summary : Bytes) : Prop :=
  (∀ payload ∈ summaryPayloads requestId summary, fits payload = true) ∧
    Readable requestId ∧ ∀ i < chunkCount summary, Readable (chunkText summary i)

/-- The bodies of the frames, and their stream. -/
theorem stream_sent (session : SessionId) (requestId summary : Bytes) (history : List StoredMessage) (st : Server) :
    (framesOf (deliverSummaryChunks session requestId summary history st).out).flatten =
      stream FrameCodec.frame (((summaryPayloads requestId summary).takeWhile fits).map serialize) := by
  rw [framesOf_deliverSummaryChunks, stream, List.flatMap_map, List.flatMap_def]

theorem sized_sent (requestId summary : Bytes) :
    ∀ body ∈ ((summaryPayloads requestId summary).takeWhile fits).map serialize, FrameCodec.Sized body := by
  intro body hbody
  obtain ⟨p, hp, rfl⟩ := List.mem_map.mp hbody
  have hfits : fits p = true := List.mem_takeWhile_imp hp
  exact ⟨serialize_length_pos (plain_summary p ((List.takeWhile_sublist _).subset hp)), by simpa [fits] using hfits⟩

/-- Read byte by byte, a summary that arrives has no payload that is lost. -/
theorem cutsWell_of_arrives {js : Js} {parseSearchPayload : Bytes → List α} {session : SessionId}
    {history : List StoredMessage} {st : Server} (hid : (lit "summarize-").isPrefixOf requestId = true)
    (h : ArrivesWhole js parseSearchPayload session requestId history st) :
    CutsWell requestId (summarizeMessages history) := by
  have hsummary := summarizeMessages_ne_nil history
  unfold ArrivesWhole at h
  rw [stream_sent] at h
  have hsized := sized_sent requestId (summarizeMessages history)
  generalize summarizeMessages history = summary at h hsummary hsized ⊢
  generalize hpayloads : (summaryPayloads requestId summary).takeWhile fits = payloads at h hsized
  have hsub : payloads.Sublist (summaryPayloads requestId summary) := hpayloads ▸ List.takeWhile_sublist _
  obtain ⟨hshownSub, hshown⟩ := filterMap_shown fun p hp => plain_summary p (hsub.subset hp)
  have hall : (payloads.map serialize).filterMap shown = summaryPayloads requestId summary := by
    refine (@whole_iff requestId summary α js parseSearchPayload hid hsummary _ (hshownSub.trans hsub)).mp fun s => ?_
    have hreceived := h (TcpManager.bytewise (stream FrameCodec.frame (payloads.map serialize))) s
      (TcpManager.flatten_bytewise _) fun bytes hbytes => by
        rw [TcpManager.length_of_mem_bytewise hbytes]
        decide
    rwa [SearchStore.receive, TcpManager.onReads_bytewise hsized, SearchStore.foldl_emitted] at hreceived
  have heq : payloads = summaryPayloads requestId summary := hsub.eq_of_length_le (hall ▸ hshownSub.length_le)
  rw [heq] at hshown hpayloads hall
  exact ⟨List.takeWhile_eq_self_iff.mp hpayloads, holding_summary_iff.mp (hshown.mp hall)⟩

/-- A streamed summary arrives whole exactly if all its payloads fit a frame, and
its id and every 80 bytes of it are UTF-8 without a control character that the
server does not escape. -/
theorem summary_arrives_iff (js : Js) (parseSearchPayload : Bytes → List α) (session : SessionId)
    (hid : (lit "summarize-").isPrefixOf requestId = true) (history : List StoredMessage) (st : Server) :
    ArrivesWhole js parseSearchPayload session requestId history st ↔
      CutsWell requestId (summarizeMessages history) := by
  refine ⟨cutsWell_of_arrives hid, ?_⟩
  rintro ⟨hfits, hreadable⟩ reads s hflat hreads
  have hsummary := summarizeMessages_ne_nil history
  have hsized := sized_sent requestId (summarizeMessages history)
  rw [stream_sent] at hflat
  generalize summarizeMessages history = summary at hfits hreadable hflat hsummary hsized ⊢
  rw [List.takeWhile_eq_self_iff.mpr hfits] at hflat hsized
  have hholding := holding_summary_iff.mpr hreadable
  have hutf8 : ∀ body ∈ (summaryPayloads requestId summary).map serialize, isUtf8 body = true := by
    intro body hbody
    obtain ⟨p, hp, rfl⟩ := List.mem_map.mp hbody
    exact isUtf8_iff.mpr ((isUtf8_serialize (plain_summary p hp)).mpr
      ((hholding p hp).imp fun s hs => isUtf8_iff.mp hs.1))
  have hemitted := TcpManager.onReads_of_utf8 hsized hutf8 hflat fun bytes hb => (hreads bytes hb).2
  have hfold := SearchStore.foldl_emitted js parseSearchPayload ((summaryPayloads requestId summary).map serialize) s
  rw [List.filter_eq_self.mpr hutf8, (filterMap_shown plain_summary).2.mpr hholding] at hfold
  rw [SearchStore.receive, hemitted, hfold]
  exact (whole_iff hid hsummary (List.Sublist.refl _)).mpr rfl s

end Store

end Chunks

/-- A message of four letters of two bytes each. -/
def umlauts : StoredMessage :=
  { msg_id := 1, from_id := 1000, to_id := 1001, group_id := 0, content := lit "ääää", content_type := lit "text",
    timestamp := 0, delivered := true, read := false, edited := false, deleted := false, edited_at := 0,
    deleted_at := 0, reactions := [] }

/-- An answer with letters of up to three bytes. -/
def prices : StoredMessage :=
  { umlauts with msg_id := 2, from_id := 1001, to_id := 1000, content := lit "größere Beträge: 20 €, 30 €" }

theorem summary_arrives_iff_prices : 2 < chunkCount (summarizeMessages [umlauts, prices]) ∧
    (ArrivesWhole .plain (fun _ => ([] : List Bytes)) 1 (lit "summarize-1") [umlauts, prices] (.boot .ideal .empty) ↔
      CutsWell (lit "summarize-1") (summarizeMessages [umlauts, prices])) :=
  ⟨by decide +kernel, summary_arrives_iff .plain _ 1 (by decide) [umlauts, prices] _⟩

/-- The first chunk of its summary ends within the last letter. -/
theorem summary_loses_chunk : ¬∀ (js : Js) (session : SessionId) (requestId : Bytes) (history : List StoredMessage)
    (st : Server), (lit "summarize-").isPrefixOf requestId = true → (∀ message ∈ history, IsUtf8 message.content) →
      ArrivesWhole js (fun _ => ([] : List Bytes)) session requestId history st := by
  intro hall
  have hutf8 : ∀ message ∈ [umlauts], IsUtf8 message.content := fun message hmessage =>
    List.mem_singleton.mp hmessage ▸ ⟨['ä', 'ä', 'ä', 'ä'], by decide +kernel⟩
  have hcuts := cutsWell_of_arrives (by decide) (hall .plain 1 (lit "summarize-1") [umlauts] (.boot .ideal .empty)
    (by decide) hutf8)
  exact absurd (hcuts.2.2 0 (by decide +kernel)).1 (by decide +kernel)

end Client

end LanChat
