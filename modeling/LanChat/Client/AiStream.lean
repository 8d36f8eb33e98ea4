import LanChat.Client.SecureStorage
import LanChat.Lib.Utf8Decoder
import Mathlib.Data.List.DropRight

/-!
# Answers that are streamed

`executeStream` of the DeepSeek provider reads server-sent events from the body
of a response, as the network cuts it: into pieces that may end inside a line and
inside a character. How it is cut makes no difference to the calls of `onChunk`,
and the final call is the last one (`streamed_as_one_piece`). Every complete event
arrives, once and in order, and nothing else does (`streamed_events_arrive`).
-/

namespace LanChat

open Lib

namespace Client

namespace DeepSeek

/-- A call of `onChunk`: a content with `done` false, or a text with `done` true. -/
inductive Call (γ : Type) where
  | content (c : γ)
  | done (text : String)
deriving DecidableEq

/-- The calls that are made, and whether the function has returned after them. -/
abbrev Calls (γ : Type) := List (Call γ) × Bool

/-- How the reads of the body end: with `done`, or a rejection. -/
inductive Ending where
  | done
  | failed
deriving DecidableEq

/-- What `fetch` and the reader of the body give. -/
inductive Response where
  | rejected
  | refused (status : Nat)
  | noBody
  | body (pieces : List (List UInt8)) (ending : Ending)
deriving DecidableEq

def byteOrderMark : Char := Char.ofNat 0xFEFF

/-- A `TextDecoder` leaves out a byte order mark at the beginning of its text. -/
def dropMark : Bool → List Char → Bool × List Char
  | true, cs => (true, cs)
  | false, [] => (false, [])
  | false, c :: cs => (true, if c = byteOrderMark then cs else c :: cs)

/-- `decoder.decode(value, { stream: true })`. -/
def decode : Utf8Decoder × Bool → List UInt8 → (Utf8Decoder × Bool) × List Char := pipe Utf8Decoder.read dropMark

/-- The decoder and `buffer`, with the lines that a piece completes. -/
def readLines : (Utf8Decoder × Bool) × List Char → List UInt8 → ((Utf8Decoder × Bool) × List Char) × List (List Char) :=
  pipe decode (cutLines '\n')

def newReader : (Utf8Decoder × Bool) × List Char := ((Utf8Decoder.start, false), [])

/-- What `trim` of a string takes away at both ends. -/
def isWhiteSpace (c : Char) : Bool :=
  let n := c.toNat
  (0x09 ≤ n && n ≤ 0x0D) || (0x2000 ≤ n && n ≤ 0x200A) ||
    [0x20, 0xA0, 0x1680, 0x2028, 0x2029, 0x202F, 0x205F, 0x3000, 0xFEFF].contains n

def trim (line : List Char) : List Char := (line.dropWhile isWhiteSpace).rdropWhile isWhiteSpace

def dataField : List Char := "data: ".toList

def doneMark : List Char := "[DONE]".toList

def Calls.none {γ : Type} : Calls γ := ([], false)

/-- What follows is run unless the function has returned. -/
def Calls.andThen {γ : Type} (first next : Calls γ) : Calls γ :=
  if first.2 then first else (first.1 ++ next.1, next.2)

section Stream

-- the content in a payload: none if `JSON.parse` throws, or a member on the way
-- to the content is missing, or the content is falsy
variable {γ : Type} (delta : List Char → Option γ)

/-- One turn of the `for` loop. -/
def forLine (line : List Char) : Calls γ :=
  let trimmed := trim line
  if ¬dataField <+: trimmed then .none
  else
    let data := trimmed.drop 6
    if data = doneMark then ([.done ""], true)
    else
      match delta data with
      | some content => ([.content content], false)
      | none => .none

def forLines : List (List Char) → Calls γ
  | [] => .none
  | line :: lines => (forLine delta line).andThen (forLines lines)

/-- The `while` loop and what comes after it. -/
def whileReads : (Utf8Decoder × Bool) × List Char → List (List UInt8) → Ending → Calls γ
  | _, [], .done => ([.done ""], true)
  | _, [], .failed => .none
  | s, piece :: pieces, ending =>
    (forLines delta (readLines s piece).2).andThen (whileReads (readLines s piece).1 pieces ending)

def executeStream (key : Text) (response : Response) : Calls γ :=
  if key.bytes = [] then ([.done "DeepSeek API key not configured."], true)
  else
    match response with
    | .rejected => .none
    | .refused status => ([.done s!"DeepSeek API error ({status})"], true)
    | .noBody => ([.done "No response body"], true)
    | .body pieces ending => whileReads delta newReader pieces ending

/-! ## Pieces -/

/-- What comes after the last read. -/
def afterReads (ending : Ending) : Calls γ := whileReads delta newReader [] ending

variable {delta}

theorem andThen_assoc (a b c : Calls γ) : (a.andThen b).andThen c = a.andThen (b.andThen c) := by
  obtain ⟨calls, returned⟩ := a
  obtain ⟨calls', returned'⟩ := b
  cases returned <;> cases returned' <;> simp [Calls.andThen]

theorem forLines_append (lines lines' : List (List Char)) :
    forLines delta (lines ++ lines') = (forLines delta lines).andThen (forLines delta lines') := by
  induction lines with
  | nil => rfl
  | cons line lines ih => rw [List.cons_append, forLines, forLines, ih, andThen_assoc]

theorem seamless_dropMark : Seamless (fun _ => True) dropMark where
  keeps _ _ _ := trivial
  nil begun _ := by cases begun <;> rfl
  append begun cs cs' _ := by
    cases begun with
    | true => rfl
    | false =>
      cases cs with
      | nil => rfl
      | cons c cs =>
        simp only [List.cons_append, dropMark]
        split <;> rfl

theorem seamless_readLines : Seamless (fun s => (True ∧ True) ∧ '\n' ∉ s.2) readLines :=
  (Utf8Decoder.seamless_read.pipe seamless_dropMark).pipe (seamless_cutLines '\n')

theorem whileReads_eq (s : (Utf8Decoder × Bool) × List Char) (pieces : List (List UInt8)) (ending : Ending) :
    whileReads delta s pieces ending =
      (forLines delta (readPieces readLines s pieces).2).andThen (afterReads delta ending) := by
  induction pieces generalizing s with
  | nil => cases ending <;> rfl
  | cons piece pieces ih => rw [whileReads, ih, readPieces, forLines_append, andThen_assoc]

theorem newReader_between : (True ∧ True) ∧ '\n' ∉ newReader.2 := ⟨⟨trivial, trivial⟩, List.not_mem_nil⟩

/-- The loop on the bytes of the body. -/
theorem whileReads_eq_flatten (pieces : List (List UInt8)) (ending : Ending) : whileReads delta newReader pieces ending =
    (forLines delta (readLines newReader pieces.flatten).2).andThen (afterReads delta ending) := by
  rw [whileReads_eq, seamless_readLines.readPieces_eq newReader_between]

/-! ## Texts -/

/-- The loop on a text. -/
def readText (delta : List Char → Option γ) (cs : List Char) : Calls γ := forLines delta (cutLines '\n' [] cs).2

variable {line rest : List Char}

theorem readText_line (h : '\n' ∉ line) :
    readText delta (line ++ '\n' :: rest) = (forLine delta line).andThen (readText delta rest) := by
  have hsplit : (line ++ '\n' :: rest).splitOn '\n' = line :: rest.splitOn '\n' :=
    List.splitOn_append_cons_self_of_not_mem h rest
  have hne : rest.splitOn '\n' ≠ [] := List.splitOn_ne_nil _ _
  simp only [readText, cutLines, List.nil_append, hsplit, List.dropLast_cons_of_ne_nil hne, forLines]

/-- A line that is not complete. -/
theorem readText_rest (h : '\n' ∉ rest) : readText delta rest = .none := by
  simp only [readText, cutLines, List.nil_append, List.splitOn_eq_singleton h]
  rfl

theorem trim_mark (line : List Char) : trim (byteOrderMark :: line) = trim line := by
  rw [trim, List.dropWhile_cons_of_pos (by decide)]
  rfl

/-- A byte order mark is white space to the first line. -/
theorem readText_dropMark (cs : List Char) : readText delta (dropMark false cs).2 = readText delta cs := by
  cases cs with
  | nil => rfl
  | cons c cs =>
    simp only [dropMark]
    split
    · next hmark =>
      subst hmark
      by_cases hmem : '\n' ∈ cs
      · obtain ⟨line, rest, rfl, hline⟩ := List.eq_append_cons_of_mem hmem
        have hmarked : '\n' ∉ byteOrderMark :: line := List.not_mem_cons_of_ne_of_not_mem (by decide) hline
        rw [readText_line hline, ← List.cons_append, readText_line hmarked, forLine, forLine, trim_mark]
      · rw [readText_rest hmem, readText_rest (List.not_mem_cons_of_ne_of_not_mem (by decide) hmem)]
    · rfl

theorem executeStream_body {key : Text} (hkey : key.bytes ≠ []) (pieces : List (List UInt8)) (ending : Ending) :
    executeStream delta key (.body pieces ending) =
      (readText delta (Utf8Decoder.read .start pieces.flatten).2).andThen (afterReads delta ending) := by
  rw [executeStream, if_neg hkey, whileReads_eq_flatten, ← readText_dropMark]
  rfl

/-! ## Event streams -/

end Stream

/-- A text that a line of an event carries. -/
structure Payload where
  text : List Char
  whole : '\n' ∉ text
  trimmed : text ≠ [] ∧ text.rdropWhile isWhiteSpace = text
  notDone : text ≠ doneMark

/-- A line of another field, a comment or an empty one. -/
structure Skipped where
  text : List Char
  whole : '\n' ∉ text
  skipped : ¬dataField <+: trim text

/-- A line of an event stream. Lines end with a newline, after a carriage return or not. -/
inductive Line where
  | data (payload : Payload) (crlf : Bool)
  | skipped (line : Skipped)

def lineEnd (crlf : Bool) : List Char := if crlf then ['\r'] else []

def Line.text : Line → List Char
  | data payload crlf => dataField ++ payload.text ++ lineEnd crlf
  | skipped line => line.text

def doneLine (crlf : Bool) : List Char := dataField ++ doneMark ++ lineEnd crlf

/-- The lines one after the other. -/
def written (lines : List Line) : List Char := lines.flatMap fun line => line.text ++ ['\n']

/-- The content that a line carries. -/
def Line.content {γ : Type} (delta : List Char → Option γ) : Line → Option γ
  | data payload _ => delta payload.text
  | skipped _ => none

section Lines

variable {γ : Type} {delta : List Char → Option γ} {rest : List Char} {crlf : Bool}

theorem newline_lineEnd : '\n' ∉ lineEnd crlf := by cases crlf <;> decide

/-- What is left of a line that begins with the field and ends with no white space. -/
theorem trim_data {text : List Char} (hne : text ≠ []) (h : text.rdropWhile isWhiteSpace = text) :
    trim (dataField ++ text ++ lineEnd crlf) = dataField ++ text := by
  have hfront : (dataField ++ text ++ lineEnd crlf).dropWhile isWhiteSpace = dataField ++ text ++ lineEnd crlf := by
    rw [List.append_assoc]
    exact List.dropWhile_cons_of_neg (by decide)
  have hback : (dataField ++ text).rdropWhile isWhiteSpace = dataField ++ text := by
    rw [List.rdropWhile_eq_self_iff] at h ⊢
    intro hall
    rw [List.getLast_append_of_ne_nil hall hne]
    exact h hne
  rw [trim, hfront]
  cases crlf with
  | false => rw [lineEnd, if_neg (by decide), List.append_nil, hback]
  | true => rw [lineEnd, if_pos rfl, List.rdropWhile_concat_pos _ _ _ (by decide), hback]

theorem forLine_data (payload : Payload) (crlf : Bool) : forLine delta (dataField ++ payload.text ++ lineEnd crlf) =
    ((delta payload.text).toList.map .content, false) := by
  rw [forLine, trim_data payload.trimmed.1 payload.trimmed.2, if_neg (not_not_intro (List.prefix_append _ _))]
  have hdrop : (dataField ++ payload.text).drop 6 = payload.text := List.drop_left' rfl
  simp only [hdrop, payload.notDone, if_false]
  cases delta payload.text <;> rfl

theorem forLine_done (crlf : Bool) : forLine delta (doneLine crlf) = ([.done ""], true) := by
  rw [forLine, doneLine, trim_data (by decide) (by decide), if_neg (not_not_intro (List.prefix_append _ _))]
  rfl

theorem forLine_skipped (line : Skipped) : forLine delta line.text = .none := by rw [forLine, if_pos line.skipped]

theorem forLine_text (line : Line) : forLine delta line.text = ((line.content delta).toList.map .content, false) := by
  cases line with
  | data payload crlf => exact forLine_data payload crlf
  | skipped line => exact forLine_skipped line

theorem newline_text (line : Line) : '\n' ∉ line.text := by
  cases line with
  | data payload crlf =>
    simp only [Line.text, List.mem_append, not_or]
    exact ⟨⟨by decide, payload.whole⟩, newline_lineEnd⟩
  | skipped line => exact line.whole

/-- The lines, and then the rest of the text. -/
theorem readText_written (lines : List Line) (rest : List Char) : readText delta (written lines ++ rest) =
    Calls.andThen ((lines.filterMap (Line.content delta)).map .content, false) (readText delta rest) := by
  induction lines with
  | nil => rfl
  | cons line lines ih =>
    have hcons : written (line :: lines) ++ rest = line.text ++ '\n' :: (written lines ++ rest) := by
      simp only [written, List.flatMap_cons, List.append_assoc, List.cons_append, List.nil_append]
    rw [hcons, readText_line (newline_text line), ih, forLine_text, ← andThen_assoc, List.filterMap_cons]
    cases line.content delta <;> rfl

/-- The text of a body that consists of the lines and further bytes. -/
theorem read_written (cs : List Char) (after : List UInt8) : (Utf8Decoder.read .start (utf8 cs ++ after)).2 =
    cs ++ (Utf8Decoder.read .start after).2 := by
  rw [Utf8Decoder.seamless_read.append _ _ _ trivial, Utf8Decoder.read_utf8]

/-- What is left of the body has no complete line. -/
theorem newline_not_mem_read {after : List UInt8} (h : 10 ∉ after) : '\n' ∉ (Utf8Decoder.read .start after).2 :=
  fun hmem => h (Utf8Decoder.mem_read (.inl rfl) (by decide) (by decide) hmem)

end Lines

section Results

variable {γ : Type} (delta : List Char → Option γ)

/-- Contents, and one final call behind them if and only if the function has returned. -/
def Closed (calls : Calls γ) : Prop := ∃ (contents : List γ) (final : Option String),
  calls = (contents.map Call.content ++ final.toList.map Call.done, final.isSome)

theorem Closed.andThen {first next : Calls γ} (hfirst : Closed first) (hnext : Closed next) :
    Closed (first.andThen next) := by
  obtain ⟨contents, final, rfl⟩ := hfirst
  obtain ⟨contents', final', rfl⟩ := hnext
  cases final with
  | some text => exact ⟨contents, some text, rfl⟩
  | none => exact ⟨contents ++ contents', final', by simp [Calls.andThen]⟩

theorem closed_done (text : String) : Closed (([.done text], true) : Calls γ) := ⟨[], some text, rfl⟩

theorem closed_none : Closed (Calls.none : Calls γ) := ⟨[], none, rfl⟩

theorem closed_forLine (line : List Char) : Closed (forLine delta line) := by
  unfold forLine
  extract_lets trimmed data
  split
  · exact closed_none
  split
  · exact closed_done ""
  cases delta data with
  | some content => exact ⟨[content], none, rfl⟩
  | none => exact closed_none

theorem closed_forLines (lines : List (List Char)) : Closed (forLines delta lines) := by
  induction lines with
  | nil => exact closed_none
  | cons line lines ih => exact (closed_forLine delta line).andThen ih

theorem closed_afterReads (ending : Ending) : Closed (afterReads delta ending) := by
  cases ending with
  | done => exact closed_done ""
  | failed => exact closed_none

/-- How the network cuts the body is of no importance; and whatever the response is,
the calls are contents, with one final call behind them if and only if the function returns. -/
theorem streamed_as_one_piece (key : Text) (pieces : List (List UInt8)) (ending : Ending) (response : Response) :
    executeStream delta key (.body pieces ending) = executeStream delta key (.body [pieces.flatten] ending) ∧
      Closed (executeStream delta key response) := by
  constructor
  · simp only [executeStream, whileReads_eq_flatten, List.flatten_cons, List.flatten_nil, List.append_nil]
  · unfold executeStream
    split
    · exact closed_done _
    cases response with
    | rejected => exact closed_none
    | refused status => exact closed_done _
    | noBody => exact closed_done _
    | body pieces ending =>
      simp only [whileReads_eq_flatten]
      exact (closed_forLines delta _).andThen (closed_afterReads delta ending)

/-- The contents of the lines arrive once and in order, and what is left behind the
last line does not. -/
theorem streamed_events_arrive {key : Text} (hkey : key.bytes ≠ []) (lines : List Line) (pieces : List (List UInt8))
    (after : List UInt8) (ending : Ending) :
    (∀ crlf, pieces.flatten = utf8 (written lines ++ doneLine crlf ++ ['\n']) ++ after →
      executeStream delta key (.body pieces ending) =
        ((lines.filterMap (Line.content delta)).map Call.content ++ [.done ""], true)) ∧
    (10 ∉ after → pieces.flatten = utf8 (written lines) ++ after →
      executeStream delta key (.body pieces ending) =
        match ending with
        | .done => ((lines.filterMap (Line.content delta)).map Call.content ++ [.done ""], true)
        | .failed => ((lines.filterMap (Line.content delta)).map .content, false)) := by
  constructor
  · intro crlf hbytes
    have hwhole : '\n' ∉ doneLine crlf := by cases crlf <;> decide
    rw [executeStream_body hkey, hbytes, read_written, List.append_assoc, List.append_assoc, readText_written,
      List.singleton_append, readText_line hwhole, forLine_done]
    rfl
  · intro hafter hbytes
    rw [executeStream_body hkey, hbytes, read_written, readText_written, readText_rest (newline_not_mem_read hafter)]
    cases ending with
    | done => simp only [Calls.andThen, Calls.none, afterReads, whileReads, Bool.false_eq_true, if_false, List.append_nil]
    | failed => simp only [Calls.andThen, Calls.none, afterReads, whileReads, Bool.false_eq_true, if_false, List.append_nil]

/-- A chunk of an answer, with a character of two bytes in it. -/
def greeting : Payload :=
  ⟨"\x7b\"choices\":[\x7b\"delta\":\x7b\"content\":\"Grüezi\"\x7d\x7d]\x7d".toList, by decide +kernel, by decide +kernel,
    by decide +kernel⟩

def emptyLine : Skipped := ⟨[], List.not_mem_nil, by decide⟩

/-- The network cuts the body inside the character, and inside the last line. -/
theorem streamed_events_arrive_greeting :
    let delta := fun text => if text = greeting.text then some "Grüezi" else none
    let body := utf8 (written [.data greeting false, .skipped emptyLine] ++ doneLine true ++ ['\n'])
    executeStream delta ⟨[107], by decide +kernel⟩ (.body [body.take 44, (body.drop 44).take 10, body.drop 54] .failed) =
      ([.content "Grüezi", .done ""], true) := by
  intro delta body
  have hcontents : [Line.data greeting false, .skipped emptyLine].filterMap (Line.content delta) = ["Grüezi"] := by
    decide +kernel
  have hbytes : [body.take 44, (body.drop 44).take 10, body.drop 54].flatten = body ++ [] := by decide +kernel
  have hkey : (⟨[107], by decide +kernel⟩ : Text).bytes ≠ [] := by decide
  have h := (streamed_events_arrive delta hkey [.data greeting false, .skipped emptyLine] _ [] .failed).1 true hbytes
  rwa [hcontents] at h

end Results

end DeepSeek

end Client

end LanChat
