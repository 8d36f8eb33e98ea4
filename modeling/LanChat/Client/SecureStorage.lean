import LanChat.Client.TcpManager
import LanChat.Lib.Fallback
import LanChat.Lib.Tally
import LanChat.Lib.Utf8

/-!
# The secure storage

`secureStorage.ts` over the files of `secure_store.rs`, with the `Map` that takes
what the store does not. A key that the store has refused is kept in the `Map`,
but the next read asks the store first and is answered with the key before it;
and a key that the store has taken is not found when a read fails (`reads_back_iff`).
-/

namespace LanChat

open Lib Json

namespace Client

/-- A string, as Tauri hands it over. -/
structure Text where
  bytes : Bytes
  valid : isUtf8 bytes = true
deriving DecidableEq

def Text.empty : Text := ⟨[], by decide +kernel⟩

/-- `platform_encrypt` and `platform_decrypt`. -/
structure Platform where
  encrypt : Bytes → Bytes
  decrypt : Bytes → Except Bytes Bytes
  decrypt_encrypt : ∀ input, decrypt (encrypt input) = .ok input

/-- Every platform but Windows. -/
def Platform.plain : Platform := ⟨id, .ok, fun _ => rfl⟩

/-! ## `secure_store.rs` -/

namespace SecureStore

/-- The files of `secure-store`, by their names. -/
abbrev Files := Bytes → Option Bytes

def isAsciiAlphanumeric (b : UInt8) : Bool := (48 ≤ b && b ≤ 57) || (65 ≤ b && b ≤ 90) || (97 ≤ b && b ≤ 122)

def safe_file_name (key : Bytes) : Except Bytes Bytes :=
  if key = [] ∨ 128 < key.length then .error (lit "secure store key length invalid")
  else if key.all fun b => isAsciiAlphanumeric b || (lit ":_-.").contains b then
    .ok ((key.flatMap fun b => if b = Ascii.colon then lit "__" else [b]) ++ lit ".bin")
  else .error (lit "secure store key contains unsupported characters")

variable (plat : Platform)

def set (files : Files) (key : Bytes) (value : Text) : Except Bytes Files := do
  let name ← safe_file_name key
  return Function.update files name (some (plat.encrypt value.bytes))

/-- The cause is left out of the text of the last error. -/
def get (files : Files) (key : Bytes) : Except Bytes (Option Text) := do
  let name ← safe_file_name key
  match files name with
  | none => return none
  | some encrypted =>
    let decrypted ← plat.decrypt encrypted
    if h : isUtf8 decrypted = true then return some ⟨decrypted, h⟩
    else throw (lit "secure store value is not utf-8")

def delete (files : Files) (key : Bytes) : Except Bytes Files := do
  let name ← safe_file_name key
  return Function.update files name none

section Lemmas

variable {plat : Platform} {files files' : Files} {key name : Bytes}

/-- Only the file of the key is read. -/
theorem get_congr (h : ∀ name, safe_file_name key = .ok name → files name = files' name) :
    get plat files key = get plat files' key := by
  unfold get
  cases hname : safe_file_name key with
  | error e => rfl
  | ok name =>
    have hsame := h name hname
    show (match files name with | none => _ | some encrypted => _) = _
    rw [hsame]
    rfl

theorem get_set (hname : safe_file_name key = .ok name) (value : Text) :
    get plat (Function.update files name (some (plat.encrypt value.bytes))) key = .ok (some value) := by
  unfold get
  rw [hname]
  show (match Function.update files name (some (plat.encrypt value.bytes)) name with
    | none => pure none
    | some encrypted => _) = _
  rw [Function.update_self]
  show (plat.decrypt (plat.encrypt value.bytes) >>= _) = _
  rw [plat.decrypt_encrypt]
  exact dif_pos value.valid

theorem get_delete (hname : safe_file_name key = .ok name) :
    get plat (Function.update files name none) key = .ok none := by
  unfold get
  rw [hname]
  show (match Function.update files name none name with
    | none => pure none
    | some encrypted => _) = _
  rw [Function.update_self]
  rfl

end Lemmas

end SecureStore

/-! ## `secureStorage.ts` -/

def apiKeyName (providerId : Bytes) : Bytes := lit "ai-key:" ++ providerId

/-- A call of `invoke`, which may fail for reasons of its own and then changes nothing. -/
def invokeStore {α : Type} (failure : Option Bytes) (result : Except Bytes α) : Except Bytes α :=
  match failure with
  | some e => .error e
  | none => result

structure SecureStorage where
  files : SecureStore.Files
  volatileFallback : Bytes → Option Text

/-- A method of the storage. -/
inductive Operation where
  | setApiKey (value : Text)
  | getApiKey
  | deleteApiKey

/-- A call of a method; `failure` is that of the Tauri call under it. -/
structure StorageCall where
  providerId : Bytes
  operation : Operation
  failure : Option Bytes

namespace SecureStorage

variable (plat : Platform)

def setApiKey (s : SecureStorage) (providerId : Bytes) (value : Text) (failure : Option Bytes) : SecureStorage :=
  match invokeStore failure (SecureStore.set plat s.files (apiKeyName providerId) value) with
  | .ok files => ⟨files, Function.update s.volatileFallback providerId none⟩
  | .error _ => { s with volatileFallback := Function.update s.volatileFallback providerId (some value) }

def getApiKey (s : SecureStorage) (providerId : Bytes) (failure : Option Bytes) : Text :=
  match invokeStore failure (SecureStore.get plat s.files (apiKeyName providerId)) with
  | .ok value => value.getD .empty
  | .error _ => (s.volatileFallback providerId).getD .empty

/-- The promise rejects if the Tauri call fails. -/
def deleteApiKey (s : SecureStorage) (providerId : Bytes) (failure : Option Bytes) :
    SecureStorage × Except Bytes Unit :=
  let volatileFallback := Function.update s.volatileFallback providerId none
  match invokeStore failure (SecureStore.delete s.files (apiKeyName providerId)) with
  | .ok files => (⟨files, volatileFallback⟩, .ok ())
  | .error e => ({ s with volatileFallback := volatileFallback }, .error e)

/-- A call, and whether its promise resolves. -/
def perform (s : SecureStorage) (call : StorageCall) : SecureStorage × Except Bytes Unit :=
  match call.operation with
  | .setApiKey value => (s.setApiKey plat call.providerId value call.failure, .ok ())
  | .getApiKey => (s, .ok ())
  | .deleteApiKey => s.deleteApiKey call.providerId call.failure

def step (s : SecureStorage) (call : StorageCall) : SecureStorage := (s.perform plat call).1

/-- What a method leaves as the key, if it writes one. -/
def written : Operation → Option Text
  | .setApiKey value => some value
  | .getApiKey => none
  | .deleteApiKey => some .empty

/-- What the last set or delete for the provider that has resolved has left. -/
def lastWritten (s : SecureStorage) (calls : List StorageCall) (providerId : Bytes) : Option Text :=
  (trace (step plat) s calls).reverse.findSome? fun (t, call) =>
    if call.providerId = providerId ∧ (t.perform plat call).2.isOk = true then written call.operation else none

/-- A read after the calls returns what was written last. -/
def ReadsBack (s : SecureStorage) (calls : List StorageCall) (providerId : Bytes) (failure : Option Bytes) : Prop :=
  ∀ value, lastWritten plat s calls providerId = some value →
    (calls.foldl (step plat) s).getApiKey plat providerId failure = value

/-! ## A provider on its own -/

open Fallback

/-- The Tauri call of a set or a delete succeeds. -/
def succeeds (call : StorageCall) : Bool :=
  call.failure.isNone && (SecureStore.safe_file_name (apiKeyName call.providerId)).isOk

/-- The Tauri call of a read succeeds. -/
def readSucceeds (s : SecureStorage) (providerId : Bytes) (failure : Option Bytes) : Bool :=
  failure.isNone && (SecureStore.get plat s.files (apiKeyName providerId)).isOk

/-- The set or delete of a call. -/
def writeOf (call : StorageCall) : Option (Op Text) :=
  match call.operation with
  | .setApiKey value => some (.write value (succeeds call))
  | .getApiKey => none
  | .deleteApiKey => some (.clear (succeeds call))

/-- The sets and deletes for a provider. -/
def writes (calls : List StorageCall) (providerId : Bytes) : List (Op Text) :=
  (calls.filter fun call => call.providerId = providerId).filterMap writeOf

/-- What the two stores hold for the provider. -/
def view (s : SecureStorage) (providerId : Bytes) : Cell Text where
  primary :=
    match SecureStore.get plat s.files (apiKeyName providerId) with
    | .ok value => value
    | .error _ => none
  spare := s.volatileFallback providerId

/-- The keys of two providers are kept in one file. -/
def ShareFile (providerId other : Bytes) : Prop :=
  ∃ name, SecureStore.safe_file_name (apiKeyName providerId) = .ok name ∧
    SecureStore.safe_file_name (apiKeyName other) = .ok name

variable {plat : Platform} {s : SecureStorage} {call : StorageCall} {calls : List StorageCall} {providerId : Bytes}
  {failure : Option Bytes}

/-- A Tauri call that succeeds has a file to write to. -/
theorem succeeds_cases (call : StorageCall) :
    (∃ name, succeeds call = true ∧ call.failure = none ∧
      SecureStore.safe_file_name (apiKeyName call.providerId) = .ok name) ∨
    succeeds call = false ∧ ((∃ e, call.failure = some e) ∨
      call.failure = none ∧ ∃ e, SecureStore.safe_file_name (apiKeyName call.providerId) = .error e) := by
  unfold succeeds
  cases call.failure with
  | some e => exact .inr ⟨rfl, .inl ⟨e, rfl⟩⟩
  | none =>
    cases SecureStore.safe_file_name (apiKeyName call.providerId) with
    | error e => exact .inr ⟨rfl, .inr ⟨rfl, e, rfl⟩⟩
    | ok name => exact .inl ⟨name, rfl, rfl, rfl⟩

/-- A set that succeeds is in its file, any other one is in the `Map`. -/
theorem setApiKey_cases (s : SecureStorage) (call : StorageCall) (value : Text) :
    (∃ name, succeeds call = true ∧ SecureStore.safe_file_name (apiKeyName call.providerId) = .ok name ∧
      s.setApiKey plat call.providerId value call.failure =
        ⟨Function.update s.files name (some (plat.encrypt value.bytes)),
          Function.update s.volatileFallback call.providerId none⟩) ∨
    succeeds call = false ∧ s.setApiKey plat call.providerId value call.failure =
      { s with volatileFallback := Function.update s.volatileFallback call.providerId (some value) } := by
  unfold setApiKey SecureStore.set
  obtain ⟨name, hok, hnone, hname⟩ | ⟨hno, ⟨e, hfail⟩ | ⟨hnone, e, hname⟩⟩ := succeeds_cases call
  · rw [hnone, hname]
    exact .inl ⟨name, hok, rfl, rfl⟩
  · rw [hfail]
    exact .inr ⟨hno, rfl⟩
  · rw [hnone, hname]
    exact .inr ⟨hno, rfl⟩

theorem deleteApiKey_cases (s : SecureStorage) (call : StorageCall) :
    (∃ name, succeeds call = true ∧ SecureStore.safe_file_name (apiKeyName call.providerId) = .ok name ∧
      s.deleteApiKey call.providerId call.failure =
        (⟨Function.update s.files name none, Function.update s.volatileFallback call.providerId none⟩, .ok ())) ∨
    succeeds call = false ∧ ∃ e, s.deleteApiKey call.providerId call.failure =
      ({ s with volatileFallback := Function.update s.volatileFallback call.providerId none }, .error e) := by
  unfold deleteApiKey SecureStore.delete
  obtain ⟨name, hok, hnone, hname⟩ | ⟨hno, ⟨e, hfail⟩ | ⟨hnone, e, hname⟩⟩ := succeeds_cases call
  · rw [hnone, hname]
    exact .inl ⟨name, hok, rfl, rfl⟩
  · rw [hfail]
    exact .inr ⟨hno, e, rfl⟩
  · rw [hnone, hname]
    exact .inr ⟨hno, e, rfl⟩

/-- A call does to its provider what its write does. -/
theorem view_own (s : SecureStorage) (call : StorageCall) :
    (s.step plat call).view plat call.providerId =
      match writeOf call with
      | some op => (s.view plat call.providerId).step op
      | none => s.view plat call.providerId := by
  obtain ⟨providerId, operation, failure⟩ := call
  cases operation with
  | getApiKey => rfl
  | setApiKey value =>
    show (s.setApiKey plat providerId value failure).view plat providerId = (s.view plat providerId).step (.write value _)
    obtain ⟨name, hok, hname, hset⟩ | ⟨hno, hset⟩ := @setApiKey_cases plat s ⟨providerId, .setApiKey value, failure⟩ value
    · rw [hset, hok]
      simp only [view, SecureStore.get_set hname, Function.update_self, Cell.step]
    · rw [hset, hno]
      simp only [view, Function.update_self, Cell.step]
  | deleteApiKey =>
    show (s.deleteApiKey providerId failure).1.view plat providerId = (s.view plat providerId).step (.clear _)
    obtain ⟨name, hok, hname, hdelete⟩ | ⟨hno, e, hdelete⟩ := s.deleteApiKey_cases ⟨providerId, .deleteApiKey, failure⟩
    · rw [hdelete, hok]
      simp only [view, SecureStore.get_delete hname, Function.update_self, Cell.step]
    · rw [hdelete, hno]
      simp only [view, Function.update_self, Cell.step]

/-- It leaves the other providers alone whose keys are in other files. -/
theorem view_other (hother : call.providerId ≠ providerId) (hfile : ¬ShareFile call.providerId providerId) :
    (s.step plat call).view plat providerId = s.view plat providerId := by
  have hupdate : ∀ (name : Bytes) (content : Option Bytes) (fallback : Option Text),
      SecureStore.safe_file_name (apiKeyName call.providerId) = .ok name →
      view plat ⟨Function.update s.files name content, Function.update s.volatileFallback call.providerId fallback⟩
        providerId = s.view plat providerId := by
    intro name content fallback hname
    have hget : SecureStore.get plat (Function.update s.files name content) (apiKeyName providerId) =
        SecureStore.get plat s.files (apiKeyName providerId) :=
      SecureStore.get_congr fun name' hname' =>
        Function.update_of_ne (fun h : name' = name => hfile ⟨name, hname, h ▸ hname'⟩) _ _
    simp only [view, hget, Function.update_of_ne hother.symm]
  have hfallback : ∀ fallback : Option Text,
      view plat { s with volatileFallback := Function.update s.volatileFallback call.providerId fallback } providerId =
        s.view plat providerId := fun fallback => by
    simp only [view, Function.update_of_ne hother.symm]
  unfold step perform
  cases call.operation with
  | getApiKey => rfl
  | setApiKey value =>
    obtain ⟨name, -, hname, hset⟩ | ⟨-, hset⟩ := @setApiKey_cases plat s call value
    · simp only [hset]
      exact hupdate name _ _ hname
    · simp only [hset]
      exact hfallback _
  | deleteApiKey =>
    obtain ⟨name, -, hname, hdelete⟩ | ⟨-, e, hdelete⟩ := s.deleteApiKey_cases call
    · simp only [hdelete]
      exact hupdate name _ _ hname
    · simp only [hdelete]
      exact hfallback _

theorem writes_concat (calls : List StorageCall) (call : StorageCall) (providerId : Bytes) :
    writes (calls ++ [call]) providerId =
      writes calls providerId ++ if call.providerId = providerId then (writeOf call).toList else [] := by
  rw [writes, List.filter_append, List.filterMap_append, writes]
  congr 1
  rw [List.filter_singleton]
  by_cases hown : call.providerId = providerId
  · rw [if_pos hown, decide_eq_true hown]
    show List.filterMap writeOf [call] = _
    rw [List.filterMap_cons]
    cases writeOf call <;> rfl
  · rw [if_neg hown, decide_eq_false hown]
    rfl

/-- A provider goes its own way. -/
theorem view_foldl (s : SecureStorage) (calls : List StorageCall)
    (hfiles : ∀ call ∈ calls, ShareFile call.providerId providerId → call.providerId = providerId) :
    (calls.foldl (step plat) s).view plat providerId =
      (writes calls providerId).foldl Cell.step (s.view plat providerId) := by
  induction calls using List.reverseRecOn with
  | nil => rfl
  | append_singleton calls call ih =>
    have ih := ih fun call hcall => hfiles call (List.mem_append_left _ hcall)
    rw [List.foldl_append, List.foldl_cons, List.foldl_nil, writes_concat, List.foldl_append, ← ih]
    by_cases hown : call.providerId = providerId
    · subst hown
      rw [if_pos rfl, view_own]
      cases writeOf call <;> rfl
    · have hfile : ¬ShareFile call.providerId providerId := fun h =>
        hown (hfiles call (List.mem_append_right _ List.mem_cons_self) h)
      rw [if_neg hown, view_other hown hfile]
      rfl

/-! ## The last write -/

/-- A set resolves, and a delete does if its Tauri call succeeds. -/
theorem written_of_resolved (s : SecureStorage) (call : StorageCall) :
    (if (s.perform plat call).2.isOk = true then written call.operation else none) =
      ((writeOf call).filter Op.completes).map fun op => op.value.getD .empty := by
  obtain ⟨providerId, operation, failure⟩ := call
  cases operation with
  | getApiKey => rfl
  | setApiKey value => rfl
  | deleteApiKey =>
    show (if (s.deleteApiKey providerId failure).2.isOk = true then some Text.empty else none) =
      (Option.filter Op.completes (some (.clear _))).map _
    obtain ⟨name, hok, -, hdelete⟩ | ⟨hno, e, hdelete⟩ := s.deleteApiKey_cases ⟨providerId, .deleteApiKey, failure⟩
    · rw [hdelete, hok]
      rfl
    · rw [hdelete, hno]
      rfl

theorem lastWritten_eq (s : SecureStorage) (calls : List StorageCall) (providerId : Bytes) :
    lastWritten plat s calls providerId =
      (last Op.completes (writes calls providerId)).map fun op => op.value.getD .empty := by
  induction calls using List.reverseRecOn with
  | nil => rfl
  | append_singleton calls call ih =>
    rw [lastWritten, trace_concat, List.reverse_concat, List.findSome?_cons, ← lastWritten, ih, writes_concat]
    by_cases hown : call.providerId = providerId
    · simp only [hown, true_and, if_true]
      rw [written_of_resolved]
      cases writeOf call with
      | none => simp
      | some op =>
        rw [Option.toList_some, last_concat, Option.filter_some]
        cases op.completes <;> rfl
    · simp only [hown, false_and, if_false, List.append_nil]

/-- A read is one of what is held for the provider. -/
theorem getApiKey_eq (s : SecureStorage) (providerId : Bytes) (failure : Option Bytes) :
    s.getApiKey plat providerId failure =
      ((s.view plat providerId).read (s.readSucceeds plat providerId failure)).getD .empty := by
  unfold getApiKey readSucceeds view
  cases failure with
  | some e => rfl
  | none => cases SecureStore.get plat s.files (apiKeyName providerId) <;> rfl

/-- What has been written last is read back under a condition on the writes and their success. -/
theorem reads_back_iff (plat : Platform) (s : SecureStorage) (calls : List StorageCall) (providerId : Bytes)
    (failure : Option Bytes)
    (hfiles : ∀ call ∈ calls, ShareFile call.providerId providerId → call.providerId = providerId) :
    ReadsBack plat s calls providerId failure ↔
      (s.view plat providerId).UpToDate .empty (writes calls providerId)
        ((calls.foldl (step plat) s).readSucceeds plat providerId failure) := by
  rw [← Cell.reads_last_iff, ← view_foldl s calls hfiles, ReadsBack, lastWritten_eq, getApiKey_eq]
  constructor
  · exact fun h op hop => h _ (by rw [hop]; rfl)
  · rintro h value hvalue
    obtain ⟨op, hop, rfl⟩ := Option.map_eq_some_iff.mp hvalue
    exact h op hop

/-! ## A key that is replaced -/

/-- The storage when nothing has been stored. -/
def initial : SecureStorage := ⟨fun _ => none, fun _ => none⟩

def oldKey : Text := ⟨lit "sk-1", by decide +kernel⟩

def newKey : Text := ⟨lit "sk-2", by decide +kernel⟩

/-- A key is stored, and a Tauri call fails when it is replaced. -/
def replaced : List StorageCall :=
  [⟨lit "deepseek-api", .setApiKey oldKey, none⟩, ⟨lit "deepseek-api", .setApiKey newKey, some (lit "busy")⟩]

theorem files_replaced :
    ∀ call ∈ replaced, ShareFile call.providerId (lit "deepseek-api") → call.providerId = lit "deepseek-api" := by
  intro call hcall _
  simp only [replaced, List.mem_cons, List.not_mem_nil, or_false] at hcall
  rcases hcall with rfl | rfl <;> rfl

/-- A read whose Tauri call fails too returns the new key. -/
theorem reads_back_iff_failing : ReadsBack .plain initial replaced (lit "deepseek-api") (some (lit "busy")) := by
  refine (reads_back_iff .plain initial replaced (lit "deepseek-api") (some (lit "busy")) files_replaced).mpr ?_
  exact fun op _ => .inr ⟨newKey, rfl⟩

/-- A read whose Tauri call succeeds returns the old one. -/
theorem old_key_read :
    lastWritten .plain initial replaced (lit "deepseek-api") = some newKey ∧
      (replaced.foldl (step .plain) initial).getApiKey .plain (lit "deepseek-api") none = oldKey ∧
      ¬ReadsBack .plain initial replaced (lit "deepseek-api") none := by
  have hlast : lastWritten .plain initial replaced (lit "deepseek-api") = some newKey := by decide +kernel
  have hread : (replaced.foldl (step .plain) initial).getApiKey .plain (lit "deepseek-api") none = oldKey := by
    decide +kernel
  refine ⟨hlast, hread, fun h => ?_⟩
  have hsame := (h newKey hlast).symm.trans hread
  exact absurd (congrArg Text.bytes hsame) (by decide +kernel)

end SecureStorage

end Client

end LanChat
