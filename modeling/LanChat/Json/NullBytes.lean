import LanChat.Json.Parse

/-!
# Null characters

A text is handed to SQLite with its length and read back as a C string, so a
null character in it cuts it short. The parser takes a null character in a
string as it is. `nulFree_parse` and `nulFree_serialize`: a text without null
characters is read as a value without them, and printed from one.
-/

namespace LanChat.Json

open Lib Ascii

/-- No string and no key of the value contains a null character. -/
inductive Value.NulFree : Value → Prop
  | null : NulFree .null
  | bool (b : Bool) : NulFree (.bool b)
  | int (i : Int64) : NulFree (.int i)
  | float (d : Double) : NulFree (.float d)
  | str {s : Bytes} (h : 0 ∉ s) : NulFree (.str s)
  | arr {a : List Value} (h : ∀ v ∈ a, NulFree v) : NulFree (.arr a)
  | obj {o : List (Bytes × Value)} (hkeys : ∀ e ∈ o, 0 ∉ e.1) (h : ∀ e ∈ o, NulFree e.2) :
    NulFree (.obj o)

/-! ## Printing -/

theorem nul_notMem_decimal (n : Nat) : 0 ∉ decimal n := by
  unfold decimal
  split
  · decide
  · intro h
    obtain ⟨d, hd, hzero⟩ := List.mem_map.mp h
    have hlt : d < 10 := Nat.digits_lt_base (by decide) (List.mem_reverse.mp hd)
    interval_cases d <;> revert hzero <;> decide

theorem nul_notMem_intText (i : Int64) : 0 ∉ intText i := by
  unfold intText
  split
  · exact List.not_mem_cons_of_ne_of_not_mem (by decide) (nul_notMem_decimal _)
  · exact nul_notMem_decimal _

theorem nul_notMem_doubleText (d : Double) : 0 ∉ doubleText d := by
  have hdigit : ∀ n, (0 : UInt8) ≠ UInt8.ofNat (48 + n % 10) := by
    intro n
    have hlt := Nat.mod_lt n (by decide : 10 > 0)
    generalize n % 10 = r at hlt
    interval_cases r <;> decide
  have hsix : 0 ∉ sixDigits d.micros := by
    intro h
    obtain ⟨w, -, hw⟩ := List.mem_map.mp h
    exact hdigit _ hw.symm
  unfold doubleText
  simp only [List.mem_append, List.mem_cons, not_or]
  refine ⟨⟨?_, nul_notMem_decimal _⟩, by decide, hsix⟩
  split
  · decide
  · exact List.not_mem_nil

theorem nul_notMem_serializeString {s : Bytes} (h : 0 ∉ s) : 0 ∉ serializeString s := by
  have hescape : ∀ c, 0 ∈ escape c → c = 0 := by
    intro c hc
    unfold escape at hc
    split at hc
    · exact absurd hc (by decide)
    split at hc
    · exact absurd hc (by decide)
    split at hc
    · exact absurd hc (by decide)
    split at hc
    · exact absurd hc (by decide)
    split at hc
    · exact absurd hc (by decide)
    · exact (List.mem_singleton.mp hc).symm
  simp only [serializeString, List.cons_append, List.mem_cons, List.mem_append, List.mem_flatMap,
    List.not_mem_nil, or_false, not_or]
  refine ⟨by decide, fun ⟨c, hc, hzero⟩ => h (hescape c hzero ▸ hc), by decide⟩

theorem nul_notMem_serializeElements (a : List Value) (h : ∀ v ∈ a, 0 ∉ v.serialize) :
    0 ∉ serializeElements a := by
  induction a with
  | nil => decide
  | cons v vs ih =>
    have hv := h v List.mem_cons_self
    have hvs := ih fun w hw => h w (List.mem_cons_of_mem _ hw)
    cases vs with
    | nil =>
      simp only [serializeElements, List.mem_append, hv, false_or]
      decide
    | cons w ws =>
      simp only [serializeElements, List.mem_append, List.mem_cons, hv, hvs, or_false, false_or]
      decide

theorem nul_notMem_serializeMembers (o : List (Bytes × Value)) (hkeys : ∀ e ∈ o, 0 ∉ e.1)
    (h : ∀ e ∈ o, 0 ∉ e.2.serialize) : 0 ∉ serializeMembers o := by
  induction o with
  | nil => decide
  | cons e es ih =>
    obtain ⟨k, v⟩ := e
    have hk := nul_notMem_serializeString (hkeys (k, v) List.mem_cons_self)
    have hv : 0 ∉ v.serialize := h (k, v) List.mem_cons_self
    have hes := ih (fun e he => hkeys e (List.mem_cons_of_mem _ he))
      fun e he => h e (List.mem_cons_of_mem _ he)
    cases es with
    | nil =>
      simp only [serializeMembers, List.mem_append, List.mem_cons, hk, hv, false_or]
      decide
    | cons f fs =>
      simp only [serializeMembers, List.mem_append, List.mem_cons, hk, hv, hes, or_false, false_or]
      decide

/-- What is printed of a value without null characters has none. -/
theorem nul_notMem_serialize {v : Value} (h : v.NulFree) : 0 ∉ v.serialize := by
  induction h with
  | null => decide
  | bool b => cases b <;> decide
  | int i => exact nul_notMem_intText i
  | float d => exact nul_notMem_doubleText d
  | str h => exact nul_notMem_serializeString h
  | arr _ ih => exact List.not_mem_cons_of_ne_of_not_mem (by decide) (nul_notMem_serializeElements _ ih)
  | obj hkeys _ ih =>
    exact List.not_mem_cons_of_ne_of_not_mem (by decide) (nul_notMem_serializeMembers _ hkeys ih)

/-! ## Reading -/

/-- There is no null character in the rest of the text. -/
def Cursor.NulFree : Cursor → Prop
  | .at rest => 0 ∉ rest
  | .beyond => True

theorem bind_eq_ok {ε α β : Type} {x : Except ε α} {f : α → Except ε β} {b : β}
    (h : x >>= f = .ok b) : ∃ a, x = .ok a ∧ f a = .ok b := by
  cases x with
  | error e => cases h
  | ok a => exact ⟨a, rfl, h⟩

theorem map_eq_ok {ε α β : Type} {x : Except ε α} {f : α → β} {b : β} (h : x.map f = .ok b) :
    ∃ a, x = .ok a ∧ f a = b := by
  cases x with
  | error e => cases h
  | ok a => exact ⟨a, rfl, Except.ok.inj h⟩

theorem notMem_dropWhile {s : Bytes} (h : 0 ∉ s) (p : UInt8 → Bool) : 0 ∉ s.dropWhile p :=
  fun hmem => h ((List.dropWhile_suffix p).subset hmem)

theorem nulFree_skipSpace {cur : Cursor} (h : cur.NulFree) : (skipSpace cur).NulFree := by
  cases cur with
  | «at» rest => exact notMem_dropWhile h _
  | beyond => trivial

theorem nulFree_next {cur cur' : Cursor} {c : UInt8} (h : cur.NulFree)
    (hnext : next cur = .ok (c, cur')) : cur'.NulFree := by
  unfold next at hnext
  split at hnext
  · cases hnext
    exact fun hmem => h (List.mem_cons_of_mem _ hmem)
  · cases hnext
    trivial
  · cases hnext

theorem nulFree_parseLiteral {expected : Bytes} {result v : Value} {cur cur' : Cursor}
    (h : cur.NulFree) (hparse : parseLiteral expected result cur = .ok (v, cur')) :
    v = result ∧ cur'.NulFree := by
  induction expected generalizing cur with
  | nil =>
    cases hparse
    exact ⟨rfl, h⟩
  | cons p ps ih =>
    obtain ⟨⟨c, mid⟩, hnext, hrest⟩ := bind_eq_ok hparse
    dsimp only at hrest
    split at hrest
    · exact ih (nulFree_next h hnext) hrest
    · cases hrest

theorem unescape_ne_nul {c : UInt8} (h : c ≠ 0) : unescape c ≠ 0 := by
  unfold unescape
  split
  · decide
  split
  · decide
  split
  · decide
  · exact h

theorem nulFree_stringLoop {text s rest : Bytes} (h : 0 ∉ text)
    (hparse : stringLoop text = .ok (s, rest)) : 0 ∉ s ∧ 0 ∉ rest := by
  fun_induction stringLoop text generalizing s with
  | case1 => cases hparse
  | case2 tail =>
    cases hparse
    exact ⟨List.not_mem_nil, fun hmem => h (List.mem_cons_of_mem _ hmem)⟩
  | case3 => cases hparse
  | case4 esc tail _ ih =>
    obtain ⟨⟨t, rest'⟩, htail, hpair⟩ := map_eq_ok hparse
    cases hpair
    have hesc : esc ≠ 0 := by rintro rfl; simp at h
    obtain ⟨ht, hrest⟩ := ih (fun hmem => h (by simp [hmem])) htail
    exact ⟨List.not_mem_cons_of_ne_of_not_mem (unescape_ne_nul hesc).symm ht, hrest⟩
  | case5 c tail _ _ ih =>
    obtain ⟨⟨t, rest'⟩, htail, hpair⟩ := map_eq_ok hparse
    cases hpair
    have hc : c ≠ 0 := by rintro rfl; simp at h
    obtain ⟨ht, hrest⟩ := ih (fun hmem => h (List.mem_cons_of_mem _ hmem)) htail
    exact ⟨List.not_mem_cons_of_ne_of_not_mem hc.symm ht, hrest⟩

theorem nulFree_parseString {s : Bytes} {cur cur' : Cursor} (h : cur.NulFree)
    (hparse : parseString cur = .ok (s, cur')) : 0 ∉ s ∧ cur'.NulFree := by
  obtain ⟨⟨c, mid⟩, hnext, hrest⟩ := bind_eq_ok hparse
  have hmid := nulFree_next h hnext
  cases mid with
  | beyond => cases hrest
  | «at» rest =>
    obtain ⟨⟨t, rest'⟩, hloop, hpair⟩ := map_eq_ok hrest
    cases hpair
    exact nulFree_stringLoop hmid hloop

theorem nulFree_parseNumber {v : Value} {cur cur' : Cursor} (h : cur.NulFree)
    (hparse : parseNumber cur = .ok (v, cur')) : v.NulFree ∧ cur'.NulFree := by
  cases cur with
  | beyond => cases hparse
  | «at» text =>
    have htext : 0 ∉ if text.head? = some minus then text.tail else text := by
      split
      · exact fun hmem => h (List.mem_of_mem_tail hmem)
      · exact h
    simp only [parseNumber] at hparse
    generalize (if text.head? = some minus then text.tail else text) = digits at hparse htext
    have hrest : 0 ∉ digits.dropWhile isDigit := notMem_dropWhile htext _
    split at hparse
    · split at hparse
      · cases hparse
      split at hparse
      · cases hparse
      · cases hparse
        exact ⟨.float _, notMem_dropWhile (fun hmem => hrest (List.mem_of_mem_tail hmem)) _⟩
    · obtain ⟨i, -, hpair⟩ := map_eq_ok hparse
      cases hpair
      exact ⟨.int i, hrest⟩

theorem nulFree_put {obj : Object} {key : Bytes} {v : Value} (hobj : (Value.obj obj).NulFree)
    (hkey : 0 ∉ key) (hv : v.NulFree) : (Value.obj (obj.put key v)).NulFree := by
  cases hobj with
  | obj hkeys h =>
    refine .obj (fun e he => ?_) fun e he => ?_
    · rcases OrdMap.mem_put he with rfl | he
      · exact hkey
      · exact hkeys e he
    · rcases OrdMap.mem_put he with rfl | he
      · exact hv
      · exact h e he

/-- What is read from a cursor without null characters in front of it has none,
and leaves none behind. -/
theorem nulFree_parseValues (stack fuel : Nat) :
    (∀ cur v cur', cur.NulFree → parseValue stack fuel cur = .ok (v, cur') →
      v.NulFree ∧ cur'.NulFree) ∧
    (∀ arr cur v cur', (∀ w ∈ arr, w.NulFree) → cur.NulFree →
      parseElements stack fuel arr cur = .ok (v, cur') → v.NulFree ∧ cur'.NulFree) ∧
    ∀ obj cur v cur', (Value.obj obj).NulFree → cur.NulFree →
      parseMembers stack fuel obj cur = .ok (v, cur') → v.NulFree ∧ cur'.NulFree := by
  induction fuel generalizing stack with
  | zero =>
    refine ⟨fun _ _ _ _ h => ?_, fun _ _ _ _ _ _ h => ?_, fun _ _ _ _ _ _ h => ?_⟩
    · cases h
    · cases h
    · cases h
  | succ fuel ih =>
    refine ⟨fun cur v cur' h hparse => ?_, fun arr cur v cur' harr h hparse => ?_,
      fun obj cur v cur' hobj h hparse => ?_⟩
    · rcases stack with _ | stack
      · cases hparse
      obtain ⟨-, ihElements, ihMembers⟩ := ih stack
      have hfirst := parseValue_byFirst stack fuel cur
      generalize parseValue (stack + 1) (fuel + 1) cur = result at hparse hfirst
      cases hfirst with
      | null _ =>
        obtain ⟨rfl, hcur⟩ := nulFree_parseLiteral h hparse
        exact ⟨.null, hcur⟩
      | true _ =>
        obtain ⟨rfl, hcur⟩ := nulFree_parseLiteral h hparse
        exact ⟨.bool true, hcur⟩
      | false _ =>
        obtain ⟨rfl, hcur⟩ := nulFree_parseLiteral h hparse
        exact ⟨.bool false, hcur⟩
      | string _ =>
        obtain ⟨⟨s, mid⟩, hstring, hpair⟩ := map_eq_ok hparse
        cases hpair
        obtain ⟨hs, hmid⟩ := nulFree_parseString h hstring
        exact ⟨.str hs, hmid⟩
      | number _ => exact nulFree_parseNumber h hparse
      | array _ =>
        obtain ⟨⟨c, mid⟩, hnext, hrest⟩ := bind_eq_ok hparse
        have hmid := nulFree_skipSpace (nulFree_next h hnext)
        dsimp only at hrest
        split at hrest
        · obtain ⟨⟨c, last⟩, hclose, hpair⟩ := bind_eq_ok hrest
          cases hpair
          exact ⟨.arr (by simp), nulFree_next hmid hclose⟩
        · exact ihElements _ _ _ _ (by simp) hmid hrest
      | object _ =>
        obtain ⟨⟨c, mid⟩, hnext, hrest⟩ := bind_eq_ok hparse
        have hmid := nulFree_skipSpace (nulFree_next h hnext)
        dsimp only at hrest
        split at hrest
        · obtain ⟨⟨c, last⟩, hclose, hpair⟩ := bind_eq_ok hrest
          cases hpair
          exact ⟨.obj (by simp) (by simp), nulFree_next hmid hclose⟩
        · exact ihMembers _ _ _ _ (.obj (by simp) (by simp)) hmid hrest
      | unexpected => cases hparse
    · obtain ⟨ihValue, ihElements, -⟩ := ih stack
      obtain ⟨⟨w, mid⟩, hvalue, hrest⟩ := bind_eq_ok hparse
      obtain ⟨hw, hmid⟩ := ihValue cur w mid h hvalue
      obtain ⟨⟨c, mid'⟩, hnext, hrest⟩ := bind_eq_ok hrest
      have hmid' := nulFree_next (nulFree_skipSpace hmid) hnext
      have harr' : ∀ u ∈ arr ++ [w], u.NulFree := by
        intro u hu
        rcases List.mem_append.mp hu with hu | hu
        · exact harr u hu
        · exact List.mem_singleton.mp hu ▸ hw
      dsimp only at hrest
      split at hrest
      · cases hrest
        exact ⟨.arr harr', hmid'⟩
      split at hrest
      · cases hrest
      · exact ihElements _ _ _ _ harr' (nulFree_skipSpace hmid') hrest
    · obtain ⟨ihValue, -, ihMembers⟩ := ih stack
      obtain ⟨⟨key, mid⟩, hstring, hrest⟩ := bind_eq_ok hparse
      obtain ⟨hkey, hmid⟩ := nulFree_parseString (nulFree_skipSpace h) hstring
      obtain ⟨⟨c, mid'⟩, hcolon, hrest⟩ := bind_eq_ok hrest
      have hmid' := nulFree_skipSpace (nulFree_next (nulFree_skipSpace hmid) hcolon)
      dsimp only at hrest
      split at hrest
      · cases hrest
      obtain ⟨⟨w, behind⟩, hvalue, hrest⟩ := bind_eq_ok hrest
      obtain ⟨hw, hbehind⟩ := ihValue _ _ _ hmid' hvalue
      obtain ⟨⟨c', last⟩, hnext, hrest⟩ := bind_eq_ok hrest
      have hlast := nulFree_next (nulFree_skipSpace hbehind) hnext
      dsimp only at hrest
      split at hrest
      · cases hrest
        exact ⟨nulFree_put hobj hkey hw, hlast⟩
      split at hrest
      · cases hrest
      · exact ihMembers _ _ _ _ (nulFree_put hobj hkey hw) hlast hrest

/-- A text without null characters is read as a value without them. -/
theorem nulFree_parse {stack : Nat} {src : Bytes} {v : Value} (h : 0 ∉ src) (hparse : parse stack src = .ok v) :
    v.NulFree := by
  obtain ⟨⟨w, cur⟩, hvalue, hrest⟩ := bind_eq_ok hparse
  have hcur : (Cursor.at src).NulFree := h
  obtain ⟨hw, -⟩ := (nulFree_parseValues _ _).1 _ _ _ (nulFree_skipSpace hcur) hvalue
  dsimp only at hrest
  split at hrest
  · cases hrest
    exact hw
  · cases hrest

end LanChat.Json
