import LanChat.Client.TcpManager
import LanChat.Json.Nesting
import LanChat.Json.Readable

/-!
# What the page gets to see of a frame

`TcpManager` drops a body that is not UTF-8, and the page one that `JSON.parse`
refuses. A payload of the server is shown exactly if its strings are UTF-8
without a control character that the server does not escape (`shown_serialize`).
-/

namespace LanChat

open Lib Lib.Rfc8259 Json

namespace Client

/-- Decided for the bytes of the text, not for each byte that there is. -/
instance (s : Bytes) : Decidable (∀ c ∈ s, Allowed c) := s.decidableBAll Allowed

/-- `JSON.parse` on a text that `serialize` has made. A control character in a
string is a syntax error; everything else is read as it was written. -/
def jsonParse (text : Bytes) : Option Object :=
  if ∀ c ∈ text, Allowed c then readObject text else none

/-- What the page gets to see of the body of a frame. -/
def shown (body : Bytes) : Option Object := if IsUtf8 body then jsonParse body else none

/-- The string is UTF-8 without a control character that the server does not escape. -/
def Readable (s : Bytes) : Prop := isUtf8 s = true ∧ Clean s

instance (s : Bytes) : Decidable (Readable s) := inferInstanceAs (Decidable (_ ∧ ∀ c ∈ s, Allowed c))

section Reading

variable {payload : Object}

theorem isUtf8_iff {s : Bytes} : isUtf8 s = true ↔ IsUtf8 s := validateUTF8_iff

/-- It is `JSON.parse`: what it accepts of these texts are the JSON texts. -/
theorem jsonParse_isSome_iff (h : (Value.obj payload).Plain) (hutf8 : (Value.obj payload).Holding IsUtf8) :
    (jsonParse (serialize payload)).isSome ↔ IsText (serialize payload) := by
  have htext : IsText (serialize payload) ↔ ∀ c ∈ serialize payload, Allowed c :=
    ⟨fun h => h.allowed, fun hallowed => (readable_iff h hutf8).mpr (holding_of_allowed h hallowed)⟩
  rw [htext, jsonParse, readObject_serialize h]
  split
  · next hallowed => exact iff_of_true rfl hallowed
  · next hcontrol => exact iff_of_false (by decide) hcontrol

/-- A payload is shown exactly if its strings are readable. -/
theorem shown_serialize (h : (Value.obj payload).Plain) :
    (shown (serialize payload) = some payload ∨ shown (serialize payload) = none) ∧
      (shown (serialize payload) = some payload ↔ (Value.obj payload).Holding Readable) := by
  have hutf8 : IsUtf8 (serialize payload) ↔ (Value.obj payload).Holding IsUtf8 := isUtf8_serialize h
  unfold shown jsonParse
  rw [readObject_serialize h]
  split
  · next hbody =>
    have hstrings := hutf8.mp hbody
    split
    · next hallowed =>
      refine ⟨.inl rfl, iff_of_true rfl ?_⟩
      exact (hstrings.and (holding_of_allowed h hallowed)).imp fun s hs => ⟨isUtf8_iff.mpr hs.1, hs.2⟩
    · next hcontrol =>
      refine ⟨.inr rfl, iff_of_false nofun fun hreadable => hcontrol ?_⟩
      have htext : IsText (serialize payload) := (readable_iff h hstrings).mpr (hreadable.imp fun s hs => hs.2)
      exact htext.allowed
  · next hbody =>
    refine ⟨.inr rfl, iff_of_false nofun fun hreadable => hbody ?_⟩
    exact hutf8.mpr (hreadable.imp fun s hs => isUtf8_iff.mp hs.1)

end Reading

end Client

end LanChat
