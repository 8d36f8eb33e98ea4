import LanChat.Client.SecureStorage
import LanChat.Lib.Respelling

/-!
# The files of the keys

`safe_file_name` writes a colon as two underscores, which a key may have as well.
Two keys are kept in one file if they differ only in how they spell these
(`keys_apart_iff`), and then what is stored under one is read under the other. A
key has its file to itself only if no underscore stands beside an underscore or a
colon, and the key has no colon or is as long as a key may be (`own_file_iff`).
-/

namespace LanChat

open Lib Json Respelling

namespace Client

namespace SecureStore

def underscore : UInt8 := 95

/-- The characters of a key. -/
def supported (b : UInt8) : Bool := isAsciiAlphanumeric b || (lit ":_-.").contains b

/-- The keys are the same but for runs of colons and underscores, and in these a
colon stands for two underscores. -/
def SpelledAlike (key other : Bytes) : Prop := Alike Ascii.colon underscore 2 key other

/-- What is stored or deleted under the key is no part of what is read under the other. -/
structure Apart (plat : Platform) (key other : Bytes) : Prop where
  set : ∀ files files' value, set plat files key value = .ok files' → get plat files' other = get plat files other
  delete : ∀ files files', delete files key = .ok files' → get plat files' other = get plat files other

section Names

variable {plat : Platform} {key other name name' : Bytes}

theorem safe_file_name_eq_ok : safe_file_name key = .ok name ↔
    key ≠ [] ∧ key.length ≤ 128 ∧ (∀ b ∈ key, supported b = true) ∧
      respell Ascii.colon underscore 2 key ++ lit ".bin" = name := by
  unfold safe_file_name
  split
  · next hlength => exact iff_of_false (fun h => by cases h) fun h => hlength.elim h.1 (Nat.not_lt.mpr h.2.1)
  · next hlength =>
    obtain ⟨hne, hle⟩ := not_or.mp hlength
    split
    · next hall =>
      rw [List.all_eq_true] at hall
      exact ⟨fun h => ⟨hne, Nat.not_lt.mp hle, hall, Except.ok.inj h⟩, fun h => congrArg Except.ok h.2.2.2⟩
    · next hall => exact iff_of_false (fun h => by cases h) fun h => hall (List.all_eq_true.mpr h.2.2.1)

theorem set_eq (h : safe_file_name key = .ok name) (files : Files) (value : Text) :
    set plat files key value = .ok (Function.update files name (some (plat.encrypt value.bytes))) := by
  rw [set, h]
  rfl

theorem delete_eq (h : safe_file_name key = .ok name) (files : Files) :
    delete files key = .ok (Function.update files name none) := by
  rw [delete, h]
  rfl

/-- Two keys are kept in one file just if they are spelled alike. -/
theorem name_eq_iff (h : safe_file_name key = .ok name) (h' : safe_file_name other = .ok name') :
    name = name' ↔ SpelledAlike key other := by
  obtain ⟨-, -, -, rfl⟩ := safe_file_name_eq_ok.mp h
  obtain ⟨-, -, -, rfl⟩ := safe_file_name_eq_ok.mp h'
  rw [List.append_cancel_right_eq]
  exact respell_eq_iff

/-- Keys in one file are not kept apart, whatever the platform does. -/
theorem apart_iff (h : safe_file_name key = .ok name) (h' : safe_file_name other = .ok name') :
    Apart plat key other ↔ name ≠ name' := by
  constructor
  · rintro hapart rfl
    have hread := hapart.set _ _ _ (set_eq h (fun _ => none) .empty)
    have hnone : get plat (fun _ => none) other = .ok none := by
      rw [get, h']
      rfl
    rw [get_set h', hnone] at hread
    cases hread
  · intro hne
    have hget : ∀ (files : Files) content,
        get plat (Function.update files name content) other = get plat files other := fun files content =>
      get_congr fun read hread => by
        rw [h'] at hread
        cases hread
        exact Function.update_of_ne hne.symm _ _
    refine ⟨fun files files' value hset => ?_, fun files files' hdelete => ?_⟩
    · rw [set_eq h, Except.ok.injEq] at hset
      exact hset ▸ hget files _
    · rw [delete_eq h, Except.ok.injEq] at hdelete
      exact hdelete ▸ hget files _

/-- Different keys have different files, and neither is read under the other, just
if they are not spelled alike. -/
theorem keys_apart_iff (plat : Platform) (h : safe_file_name key = .ok name) (h' : safe_file_name other = .ok name') :
    ((key ≠ other → name ≠ name') ↔ (SpelledAlike key other → key = other)) ∧
      ((key ≠ other → Apart plat key other) ↔ (SpelledAlike key other → key = other)) := by
  have hnames : (key ≠ other → name ≠ name') ↔ (SpelledAlike key other → key = other) := by
    rw [← name_eq_iff h h']
    exact not_imp_not
  refine ⟨hnames, ?_⟩
  rw [apart_iff h h']
  exact hnames

/-! ## Keys with a file to themselves -/

/-- Another spelling of a part of a key is another key in its file. -/
theorem shared_of_respelled {before part part' behind : Bytes}
    (h : safe_file_name (before ++ part ++ behind) = .ok name)
    (hpart : respell Ascii.colon underscore 2 part' = respell Ascii.colon underscore 2 part) (hne : part' ≠ part)
    (hnil : part' ≠ []) (hlength : (before ++ part' ++ behind).length ≤ 128)
    (hsupported : ∀ b ∈ part', supported b = true) :
    ∃ other, safe_file_name other = .ok name ∧ other ≠ before ++ part ++ behind := by
  obtain ⟨-, -, hall, rfl⟩ := safe_file_name_eq_ok.mp h
  refine ⟨before ++ part' ++ behind, safe_file_name_eq_ok.mpr ⟨?_, hlength, fun b hb => ?_, ?_⟩, fun heq => ?_⟩
  · simp [hnil]
  · rw [List.mem_append, List.mem_append] at hb
    rcases hb with (hb | hb) | hb
    · exact hall b (by simp [hb])
    · exact hsupported b hb
    · exact hall b (by simp [hb])
  · simp only [respell_append, hpart]
  · exact hne (List.append_cancel_left (List.append_cancel_right heq))

theorem length_eq_of_own (h : safe_file_name key = .ok name)
    (hown : ∀ other, safe_file_name other = .ok name → other = key) (hcolon : Ascii.colon ∈ key) :
    key.length = 128 := by
  obtain ⟨before, behind, rfl⟩ := List.append_of_mem hcolon
  obtain ⟨-, hle, -⟩ := safe_file_name_eq_ok.mp h
  by_contra hlength
  rw [← List.singleton_append, ← List.append_assoc] at h hown
  obtain ⟨other, hother, hne⟩ := @shared_of_respelled _ before _ [underscore, underscore] behind h (by decide +kernel)
    (by decide) (by decide) (by simp at hle hlength ⊢; omega) (by decide +kernel)
  exact hne (hown other hother)

theorem tight_of_own (h : safe_file_name key = .ok name)
    (hown : ∀ other, safe_file_name other = .ok name → other = key) : Tight Ascii.colon underscore key := by
  intro pair hpair hwithin
  obtain ⟨before, behind, rfl⟩ := hwithin
  obtain ⟨-, hle, -⟩ := safe_file_name_eq_ok.mp h
  have hother : ∃ other, safe_file_name other = .ok name ∧ other ≠ before ++ pair ++ behind := by
    simp only [List.mem_cons, List.not_mem_nil, or_false] at hpair
    rcases hpair with rfl | rfl | rfl
    · exact @shared_of_respelled _ _ _ [Ascii.colon] _ h (by decide +kernel) (by decide) (by decide)
        (by simp at hle ⊢; omega) (by decide +kernel)
    · exact @shared_of_respelled _ _ _ [underscore, Ascii.colon] _ h (by decide +kernel) (by decide) (by decide)
        (by simpa using hle) (by decide +kernel)
    · exact @shared_of_respelled _ _ _ [Ascii.colon, underscore] _ h (by decide +kernel) (by decide) (by decide)
        (by simpa using hle) (by decide +kernel)
  obtain ⟨other, hname, hne⟩ := hother
  exact hne (hown other hname)

/-- A key has its file to itself. -/
theorem own_file_iff (h : safe_file_name key = .ok name) :
    (∀ other, safe_file_name other = .ok name → other = key) ↔
      Tight Ascii.colon underscore key ∧ (Ascii.colon ∈ key → key.length = 128) := by
  refine ⟨fun hown => ⟨tight_of_own h hown, length_eq_of_own h hown⟩, fun ⟨htight, hlength⟩ other hother => ?_⟩
  have hrespell : respell Ascii.colon underscore 2 key = respell Ascii.colon underscore 2 other :=
    respell_eq_iff.mpr ((name_eq_iff h hother).mp rfl)
  refine htight.shortest_unique (by decide) hrespell ?_
  by_cases hcolon : Ascii.colon ∈ key
  · rw [hlength hcolon]
    exact (safe_file_name_eq_ok.mp hother).2.1
  · rw [respell_of_notMem hcolon] at hrespell
    rw [hrespell]
    exact length_le_respell (by decide) other

end Names

/-! ## Two keys in one file -/

/-- The keys of two providers of the client. -/
theorem keys_apart_iff_providers :
    lit "ai-key__deepseek-api.bin" ≠ lit "ai-key__claude-api.bin" ∧
      Apart .plain (apiKeyName (lit "deepseek-api")) (apiKeyName (lit "claude-api")) := by
  have hname : safe_file_name (apiKeyName (lit "deepseek-api")) = .ok (lit "ai-key__deepseek-api.bin") := by
    decide +kernel
  have hname' : safe_file_name (apiKeyName (lit "claude-api")) = .ok (lit "ai-key__claude-api.bin") := by
    decide +kernel
  have hne : apiKeyName (lit "deepseek-api") ≠ apiKeyName (lit "claude-api") := by decide +kernel
  have halike : SpelledAlike (apiKeyName (lit "deepseek-api")) (apiKeyName (lit "claude-api")) →
      apiKeyName (lit "deepseek-api") = apiKeyName (lit "claude-api") := fun halike =>
    absurd halike.respell_eq (by decide +kernel)
  obtain ⟨hnames, hapart⟩ := keys_apart_iff .plain hname hname'
  exact ⟨hnames.mpr halike hne, hapart.mpr halike hne⟩

/-- What is stored for `eu:api` is read for `eu__api`. -/
theorem two_keys_one_file :
    apiKeyName (lit "eu:api") ≠ apiKeyName (lit "eu__api") ∧
      safe_file_name (apiKeyName (lit "eu:api")) = .ok (lit "ai-key__eu__api.bin") ∧
      safe_file_name (apiKeyName (lit "eu__api")) = .ok (lit "ai-key__eu__api.bin") ∧
      ∃ files, set .plain (fun _ => none) (apiKeyName (lit "eu:api")) SecureStorage.oldKey = .ok files ∧
        get .plain files (apiKeyName (lit "eu__api")) = .ok (some SecureStorage.oldKey) := by
  have hname : safe_file_name (apiKeyName (lit "eu:api")) = .ok (lit "ai-key__eu__api.bin") := by decide +kernel
  have hname' : safe_file_name (apiKeyName (lit "eu__api")) = .ok (lit "ai-key__eu__api.bin") := by decide +kernel
  have hset := @set_eq .plain _ _ hname (fun _ => none) SecureStorage.oldKey
  exact ⟨by decide +kernel, hname, hname', _, hset, get_set hname' SecureStorage.oldKey⟩

end SecureStore

/-! ## Providers -/

namespace SecureStorage

open SecureStore

variable {plat : Platform} {s : SecureStorage} {calls : List StorageCall} {providerId other : Bytes}

theorem spelledAlike_apiKeyName :
    SpelledAlike (apiKeyName providerId) (apiKeyName other) ↔ SpelledAlike providerId other := by
  unfold SpelledAlike apiKeyName
  rw [← respell_eq_iff, ← respell_eq_iff, respell_append, respell_append, List.append_right_inj]

theorem spelledAlike_of_shareFile (h : ShareFile providerId other) : SpelledAlike providerId other := by
  obtain ⟨name, hname, hother⟩ := h
  exact spelledAlike_apiKeyName.mp ((name_eq_iff hname hother).mp rfl)

/-- What is kept for a provider stays as it is while keys of others are set and
deleted whose ids are not spelled alike. -/
theorem view_of_others
    (hothers : ∀ call ∈ calls, call.providerId ≠ providerId ∧ ¬SpelledAlike call.providerId providerId) :
    (calls.foldl (step plat) s).view plat providerId = s.view plat providerId := by
  have hwrites : writes calls providerId = [] := by
    rw [writes, List.filter_eq_nil_iff.mpr fun call hcall => by simpa using (hothers call hcall).1]
    rfl
  rw [view_foldl s calls fun call hcall h => absurd (spelledAlike_of_shareFile h) (hothers call hcall).2, hwrites]
  rfl

end SecureStorage

end Client

end LanChat
