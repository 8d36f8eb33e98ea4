import Mathlib.Data.List.TakeWhile
import LanChat.Lib.Utf8
import LanChat.Json.RoundTrip

/-!
# What another reader makes of the printed text

`readable_iff`: the text of a value without doubles, whose strings are UTF-8,
is a JSON text exactly when none of its strings has a control character that
`serialize_string` prints as it is.
-/

namespace LanChat.Json

open Lib Lib.Rfc8259 Ascii

/-- Every string in the value meets `P`, the keys of its objects included. -/
inductive Value.Holding (P : Bytes → Prop) : Value → Prop
  | null : Holding P .null
  | bool (b : Bool) : Holding P (.bool b)
  | int (i : Int64) : Holding P (.int i)
  | float (d : Double) : Holding P (.float d)
  | str {s : Bytes} (h : P s) : Holding P (.str s)
  | arr {a : List Value} (h : ∀ v ∈ a, Holding P v) : Holding P (.arr a)
  | obj {o : List (Bytes × Value)} (hkeys : ∀ e ∈ o, P e.1) (h : ∀ e ∈ o, Holding P e.2) : Holding P (.obj o)

/-- The string has no control character but those that `serialize_string` escapes. -/
def Clean (s : Bytes) : Prop := ∀ c ∈ s, Allowed c

/-! ## The bytes of a text -/

theorem mem_escape {c : UInt8} (h : ¬Allowed c) : c ∈ escape c := by
  have hne : ∀ d : UInt8, Allowed d → c ≠ d := by
    rintro d hd rfl
    exact h hd
  simp [escape, hne dquote (by decide), hne backslash (by decide), hne newline (by decide),
    hne carriage (by decide), hne tab (by decide)]

/-- A text of the grammar shows that its string is clean. -/
theorem clean_of_allowed {s : Bytes} (h : ∀ c ∈ serializeString s, Allowed c) : Clean s := by
  intro c hc
  by_contra hcontrol
  refine hcontrol (h c ?_)
  rw [serializeString, List.cons_append, List.mem_cons, List.mem_append, List.mem_flatMap]
  exact .inr (.inl ⟨c, hc, mem_escape hcontrol⟩)

theorem mem_serializeElements {a : List Value} {v : Value} {c : UInt8} (hv : v ∈ a)
    (hc : c ∈ v.serialize) : c ∈ serializeElements a := by
  induction a with
  | nil => cases hv
  | cons w ws ih =>
    rcases List.mem_cons.mp hv with rfl | hv
    · cases ws <;> exact List.mem_append_left _ hc
    · cases ws with
      | nil => cases hv
      | cons w' ws' =>
        rw [serializeElements]
        exact List.mem_append_right _ (List.mem_cons_of_mem _ (ih hv))

theorem mem_serializeMembers {o : List (Bytes × Value)} {e : Bytes × Value} {c : UInt8} (he : e ∈ o)
    (hc : c ∈ serializeString e.1 ∨ c ∈ e.2.serialize) : c ∈ serializeMembers o := by
  induction o with
  | nil => cases he
  | cons f fs ih =>
    obtain ⟨k, v⟩ := f
    rcases List.mem_cons.mp he with rfl | he
    · cases fs <;>
      · simp only [serializeMembers, List.mem_append, List.mem_cons]
        tauto
    · cases fs with
      | nil => cases he
      | cons f' fs' =>
        have hrest := ih he
        simp only [serializeMembers, List.mem_append, List.mem_cons]
        tauto

theorem holding_of_allowed {v : Value} (h : v.Plain) (hallowed : ∀ c ∈ v.serialize, Allowed c) :
    v.Holding Clean := by
  induction h with
  | null => exact .null
  | bool b => exact .bool b
  | int i => exact .int i
  | str s => exact .str (clean_of_allowed hallowed)
  | arr _ ih =>
    refine .arr fun v hv => ih v hv fun c hc => hallowed c ?_
    exact List.mem_cons_of_mem _ (mem_serializeElements hv hc)
  | obj _ _ ih =>
    refine .obj (fun e he => clean_of_allowed fun c hc => hallowed c ?_)
      fun e he => ih e he fun c hc => hallowed c ?_
    · exact List.mem_cons_of_mem _ (mem_serializeMembers he (.inl hc))
    · exact List.mem_cons_of_mem _ (mem_serializeMembers he (.inr hc))

/-! ## Deriving the text -/

theorem isDigit_of_isDigit {c : UInt8} (h : isDigit c = true) : IsDigit c := by
  rw [isDigit, Bool.and_eq_true, decide_eq_true_eq, decide_eq_true_eq] at h
  exact h

theorem isInt_decimal (n : Nat) : IsInt (decimal n) := by
  rcases Nat.eq_zero_or_pos n with rfl | hpos
  · exact .inl rfl
  · have hdigits : decimal n = (Nat.digits 10 n).reverse.map fun d => UInt8.ofNat (48 + d) :=
      if_neg hpos.ne'
    refine .inr ⟨⟨decimal_ne_nil n, fun c hc => isDigit_of_isDigit (isDigit_of_mem_decimal hc)⟩, ?_⟩
    have hne : Nat.digits 10 n ≠ [] := Nat.digits_ne_nil_iff_ne_zero.mpr hpos.ne'
    have hlast : (Nat.digits 10 n).getLast hne ≠ 0 := Nat.getLast_digit_ne_zero 10 hpos.ne'
    have hlt : (Nat.digits 10 n).getLast hne < 10 :=
      Nat.digits_lt_base (by decide) (List.getLast_mem hne)
    rw [hdigits, List.head?_map, List.head?_reverse, List.getLast?_eq_some_getLast hne, Option.map_some,
      ne_eq, Option.some.injEq]
    intro hzero
    have hvalue := digit_toNat hlt
    rw [hzero] at hvalue
    exact hlast hvalue.symm

theorem isNumber_intText (i : Int64) : IsNumber (intText i) := by
  have hint := isInt_decimal i.toInt.natAbs
  unfold intText
  split
  · exact ⟨[minus], _, [], [], by simp, by simp, hint, .inl rfl, .inl rfl⟩
  · exact ⟨[], _, [], [], by simp, by simp, hint, .inl rfl, .inl rfl⟩

theorem flatMap_escape_high {s : Bytes} (h : ∀ c ∈ s, 128 ≤ c) : s.flatMap escape = s := by
  induction s with
  | nil => rfl
  | cons c s ih =>
    have hne : ∀ d : UInt8, d < 128 → c ≠ d := by
      rintro d hd rfl
      exact UInt8.not_lt.mpr (h c List.mem_cons_self) hd
    have hescape : escape c = [c] := by
      simp [escape, hne dquote (by decide), hne backslash (by decide), hne newline (by decide),
        hne carriage (by decide), hne tab (by decide)]
    rw [List.flatMap_cons, hescape, ih fun d hd => h d (List.mem_cons_of_mem _ hd)]
    rfl

/-- What is printed of one character. -/
theorem isItem_escape {c : Char} (h : Clean (String.utf8EncodeChar c)) :
    IsItem ((String.utf8EncodeChar c).flatMap escape) := by
  rcases Nat.lt_or_ge c.toNat 128 with hc | hc
  · rw [utf8EncodeChar_ascii hc] at h ⊢
    rw [List.flatMap_singleton]
    have hclean := h _ List.mem_cons_self
    unfold escape
    split
    · exact .escaped 34 (by decide)
    split
    · exact .escaped 92 (by decide)
    split
    · exact .escaped 110 (by decide)
    split
    · exact .escaped 114 (by decide)
    split
    · exact .escaped 116 (by decide)
    next hquote hslash hnewline hcarriage htab =>
    have hlow : 32 ≤ UInt8.ofNat c.toNat := by
      rcases hclean with hlow | htab' | hline | hcarriage'
      · exact hlow
      · exact absurd htab' htab
      · exact absurd hline hnewline
      · exact absurd hcarriage' hcarriage
    rw [← utf8EncodeChar_ascii hc]
    refine .unescaped c ?_ ?_ ?_
    · rwa [UInt8.le_iff_toNat_le, UInt8.toNat_ofNat_of_lt' (Nat.lt_trans hc (by decide))] at hlow
    · rintro rfl
      exact hquote rfl
    · rintro rfl
      exact hslash rfl
  · rw [flatMap_escape_high fun b hb => high_of_mem_utf8EncodeChar hc hb]
    refine .unescaped c (by omega) ?_ ?_
    · rintro rfl
      exact absurd hc (by decide)
    · rintro rfl
      exact absurd hc (by decide)

theorem isString_serializeString {s : Bytes} (hutf8 : IsUtf8 s) (hclean : Clean s) :
    IsString (serializeString s) := by
  obtain ⟨cs, rfl⟩ := hutf8
  refine ⟨cs.map fun c => (String.utf8EncodeChar c).flatMap escape, ?_, ?_⟩
  · rw [serializeString, utf8, List.flatMap_assoc, List.flatMap_def]
  · intro item hitem
    obtain ⟨c, hc, rfl⟩ := List.mem_map.mp hitem
    exact isItem_escape fun b hb => hclean b (List.mem_flatMap.mpr ⟨c, hc, hb⟩)

theorem derives_serializeElements (v : Value) (vs : List Value)
    (h : ∀ w ∈ v :: vs, Derives .value w.serialize) :
    ∃ t, serializeElements (v :: vs) = t ++ [rbracket] ∧ Derives .elements t := by
  have hv := (h v List.mem_cons_self).alone
  induction vs generalizing v with
  | nil => exact ⟨v.serialize, rfl, .lastElement hv⟩
  | cons w ws ih =>
    have hws : ∀ w' ∈ w :: ws, Derives .value w'.serialize := fun w' hw' => h w' (List.mem_cons_of_mem _ hw')
    obtain ⟨t, ht, hrest⟩ := ih w hws (hws w List.mem_cons_self).alone
    refine ⟨v.serialize ++ comma :: t, ?_, .elements hv hrest⟩
    rw [serializeElements, ht, List.append_assoc, List.cons_append]

theorem derives_serializeMembers (e : Bytes × Value) (es : List (Bytes × Value))
    (hkeys : ∀ m ∈ e :: es, IsString (serializeString m.1))
    (h : ∀ m ∈ e :: es, Derives .value m.2.serialize) :
    ∃ t, serializeMembers (e :: es) = t ++ [rbrace] ∧ Derives .members t := by
  induction es generalizing e with
  | nil =>
    obtain ⟨k, v⟩ := e
    have hmember := Derives.memberAlone (hkeys (k, v) List.mem_cons_self) (h (k, v) List.mem_cons_self)
    refine ⟨_, ?_, hmember⟩
    simp [serializeMembers]
  | cons f fs ih =>
    obtain ⟨k, v⟩ := e
    obtain ⟨t, ht, hrest⟩ := ih f (fun m hm => hkeys m (List.mem_cons_of_mem _ hm))
      fun m hm => h m (List.mem_cons_of_mem _ hm)
    have hmembers := Derives.memberFirst (hkeys (k, v) List.mem_cons_self) (h (k, v) List.mem_cons_self) hrest
    refine ⟨_, ?_, hmembers⟩
    rw [serializeMembers, ht]
    simp

theorem derives_serialize {v : Value} (h : v.Plain) (hutf8 : v.Holding IsUtf8) (hclean : v.Holding Clean) :
    Derives .value v.serialize := by
  induction h with
  | null => exact .null
  | bool b =>
    cases b with
    | true => exact .true
    | false => exact .false
  | int i => exact .number (isNumber_intText i)
  | str s =>
    cases hutf8 with
    | str hutf8 =>
      cases hclean with
      | str hclean => exact .string (isString_serializeString hutf8 hclean)
  | arr _ ih =>
    rename_i a _
    cases hutf8 with
    | arr hutf8 =>
      cases hclean with
      | arr hclean =>
        have hvalues : ∀ v ∈ a, Derives .value v.serialize := fun v hv => ih v hv (hutf8 v hv) (hclean v hv)
        cases a with
        | nil => exact .emptyArray isSpace_nil
        | cons v vs =>
          obtain ⟨t, ht, helements⟩ := derives_serializeElements v vs hvalues
          rw [Value.serialize, ht]
          exact .array helements
  | obj _ _ ih =>
    rename_i o _ _
    cases hutf8 with
    | obj hkeys8 hutf8 =>
      cases hclean with
      | obj hkeys hclean =>
        have hstrings : ∀ e ∈ o, IsString (serializeString e.1) :=
          fun e he => isString_serializeString (hkeys8 e he) (hkeys e he)
        have hvalues : ∀ e ∈ o, Derives .value e.2.serialize :=
          fun e he => ih e he (hutf8 e he) (hclean e he)
        cases o with
        | nil => exact .emptyObject isSpace_nil
        | cons e es =>
          obtain ⟨t, ht, hmembers⟩ := derives_serializeMembers e es hstrings hvalues
          rw [Value.serialize, ht]
          exact .object hmembers

/-! ## The encoding of the text -/

theorem escape_ascii {c : UInt8} (h : c < 128) : ∃ e es, escape c = e :: es ∧ e < 128 ∧ ∀ b ∈ es, b < 128 := by
  unfold escape
  split
  · exact ⟨_, _, rfl, by decide, by decide +kernel⟩
  split
  · exact ⟨_, _, rfl, by decide, by decide +kernel⟩
  split
  · exact ⟨_, _, rfl, by decide, by decide +kernel⟩
  split
  · exact ⟨_, _, rfl, by decide, by decide +kernel⟩
  split
  · exact ⟨_, _, rfl, by decide, by decide +kernel⟩
  · exact ⟨c, [], rfl, h, nofun⟩

theorem isUtf8_flatMap_escape (s : Bytes) : IsUtf8 (s.flatMap escape) ↔ IsUtf8 s := by
  induction hn : s.length using Nat.strong_induction_on generalizing s with
  | _ n ih =>
    have hsplit := @List.takeWhile_append_dropWhile _ (fun c => decide (128 ≤ c)) s
    have hhigh : ∀ c ∈ s.takeWhile fun c => decide (128 ≤ c), 128 ≤ c := fun c hc => by
      simpa using List.mem_takeWhile_imp hc
    generalize s.takeWhile (fun c => decide (128 ≤ c)) = high at hsplit hhigh
    cases hrest : s.dropWhile fun c => decide (128 ≤ c) with
    | nil =>
      rw [hrest, List.append_nil] at hsplit
      rw [← hsplit, flatMap_escape_high hhigh]
    | cons c rest =>
      have hlow : c < 128 := by
        have hfirst := List.head?_dropWhile_not (fun c => decide (128 ≤ c)) s
        rw [hrest] at hfirst
        simpa [UInt8.not_le] using hfirst
      rw [hrest] at hsplit
      have hshort : rest.length < n := by
        rw [← hn, ← hsplit, List.length_append, List.length_cons]
        omega
      obtain ⟨e, es, hescape, he, hes⟩ := escape_ascii hlow
      rw [← hsplit, List.flatMap_append, flatMap_escape_high hhigh, List.flatMap_cons, hescape, List.cons_append,
        isUtf8_cut he, isUtf8_cut hlow, isUtf8_ascii_append hes, ih _ hshort rest rfl]

theorem isUtf8_serializeString (s : Bytes) : IsUtf8 (serializeString s) ↔ IsUtf8 s := by
  rw [serializeString, List.cons_append, isUtf8_cons (by decide), isUtf8_concat (by decide),
    isUtf8_flatMap_escape]

theorem isUtf8_intText (i : Int64) : IsUtf8 (intText i) := by
  have hdigits : ∀ n, ∀ b ∈ decimal n, b < 128 := fun n b hb => by
    have hdigit := isDigit_of_isDigit (isDigit_of_mem_decimal hb)
    exact UInt8.lt_of_le_of_lt hdigit.2 (by decide)
  unfold intText
  split
  · exact (isUtf8_cons (by decide)).mpr (isUtf8_of_ascii (hdigits _))
  · exact isUtf8_of_ascii (hdigits _)

theorem isUtf8_serializeElements {a : List Value} (h : ∀ v ∈ a, (IsUtf8 v.serialize ↔ v.Holding IsUtf8)) :
    IsUtf8 (serializeElements a) ↔ ∀ v ∈ a, v.Holding IsUtf8 := by
  induction a with
  | nil => exact iff_of_true (isUtf8_of_ascii (by decide +kernel)) nofun
  | cons v vs ih =>
    have hrest := ih fun w hw => h w (List.mem_cons_of_mem _ hw)
    rw [List.forall_mem_cons, ← h v List.mem_cons_self]
    cases vs with
    | nil =>
      rw [serializeElements, isUtf8_concat (by decide)]
      exact (and_iff_left nofun).symm
    | cons w ws => rw [serializeElements, isUtf8_cut (by decide), hrest]

theorem isUtf8_serializeMembers {o : List (Bytes × Value)}
    (h : ∀ e ∈ o, (IsUtf8 e.2.serialize ↔ e.2.Holding IsUtf8)) :
    IsUtf8 (serializeMembers o) ↔ ∀ e ∈ o, IsUtf8 e.1 ∧ e.2.Holding IsUtf8 := by
  induction o with
  | nil => exact iff_of_true (isUtf8_of_ascii (by decide +kernel)) nofun
  | cons e es ih =>
    obtain ⟨k, v⟩ := e
    have hrest := ih fun f hf => h f (List.mem_cons_of_mem _ hf)
    rw [List.forall_mem_cons, ← h (k, v) List.mem_cons_self]
    cases es with
    | nil =>
      rw [serializeMembers, isUtf8_concat (by decide), isUtf8_cut (by decide), isUtf8_serializeString]
      exact (and_iff_left nofun).symm
    | cons f fs =>
      rw [serializeMembers, List.append_assoc, List.cons_append, isUtf8_cut (by decide), isUtf8_serializeString,
        isUtf8_cut (by decide), hrest, and_assoc]

theorem holding_str {P : Bytes → Prop} {s : Bytes} : (Value.str s).Holding P ↔ P s := by
  constructor
  · rintro (_ | _ | _ | _ | h)
    exact h
  · exact .str

theorem holding_arr {P : Bytes → Prop} {a : List Value} : (Value.arr a).Holding P ↔ ∀ v ∈ a, v.Holding P := by
  constructor
  · rintro (_ | _ | _ | _ | _ | h)
    exact h
  · exact .arr

theorem holding_obj {P : Bytes → Prop} {o : List (Bytes × Value)} :
    (Value.obj o).Holding P ↔ ∀ e ∈ o, P e.1 ∧ e.2.Holding P := by
  constructor
  · rintro (_ | _ | _ | _ | _ | _ | ⟨hkeys, h⟩) e he
    exact ⟨hkeys e he, h e he⟩
  · exact fun h => .obj (fun e he => (h e he).1) fun e he => (h e he).2

theorem Value.Holding.and {P Q : Bytes → Prop} {v : Value} (hP : v.Holding P) (hQ : v.Holding Q) :
    v.Holding fun s => P s ∧ Q s := by
  induction hP with
  | null => exact .null
  | bool b => exact .bool b
  | int i => exact .int i
  | float d => exact .float d
  | str h => exact .str ⟨h, holding_str.mp hQ⟩
  | arr _ ih => exact .arr fun v hv => ih v hv (holding_arr.mp hQ v hv)
  | obj hkeys _ ih =>
    have hobj := holding_obj.mp hQ
    exact .obj (fun e he => ⟨hkeys e he, (hobj e he).1⟩) fun e he => ih e he (hobj e he).2

theorem Value.Holding.imp {P Q : Bytes → Prop} {v : Value} (h : v.Holding P) (hPQ : ∀ s, P s → Q s) : v.Holding Q := by
  induction h with
  | null => exact .null
  | bool b => exact .bool b
  | int i => exact .int i
  | float d => exact .float d
  | str h => exact .str (hPQ _ h)
  | arr _ ih => exact .arr ih
  | obj hkeys _ ih => exact .obj (fun e he => hPQ _ (hkeys e he)) ih

theorem holding_object {P : Bytes → Prop} {fields : List (String × Value)}
    (h : ∀ field ∈ fields, P (lit field.1) ∧ field.2.Holding P) : (Value.obj (object fields)).Holding P := by
  have hmem : ∀ e ∈ object fields, ∃ field ∈ fields, e = (lit field.1, field.2) := by
    clear h
    induction fields using List.reverseRecOn with
    | nil => exact nofun
    | append_singleton fields field ih =>
      intro e he
      rw [object, List.foldl_append] at he
      rcases OrdMap.mem_put he with rfl | he
      · exact ⟨field, List.mem_append_right _ List.mem_cons_self, rfl⟩
      · obtain ⟨field', hfield', rfl⟩ := ih e he
        exact ⟨field', List.mem_append_left _ hfield', rfl⟩
  refine holding_obj.mpr fun e he => ?_
  obtain ⟨field, hfield, rfl⟩ := hmem e he
  exact h field hfield

theorem holding_of_find? {P : Bytes → Prop} {payload : Object} {key s : Bytes} (h : (Value.obj payload).Holding P)
    (hfind : payload.find? key = some (.str s)) : P s :=
  holding_str.mp (holding_obj.mp h _ (OrdMap.mem_of_find? hfind)).2

/-- The text of a value is UTF-8 exactly if its strings are. -/
theorem isUtf8_serialize {v : Value} (h : v.Plain) : IsUtf8 v.serialize ↔ v.Holding IsUtf8 := by
  induction h with
  | null => exact iff_of_true (isUtf8_of_ascii (by decide +kernel)) .null
  | bool b => exact iff_of_true (isUtf8_of_ascii (by cases b <;> decide +kernel)) (.bool b)
  | int i => exact iff_of_true (isUtf8_intText i) (.int i)
  | str s => rw [Value.serialize, isUtf8_serializeString, holding_str]
  | arr _ ih => rw [Value.serialize, isUtf8_cons (by decide), isUtf8_serializeElements ih, holding_arr]
  | obj _ _ ih => rw [Value.serialize, isUtf8_cons (by decide), isUtf8_serializeMembers ih, holding_obj]

/-- A text is one that another reader accepts when every control character in
it has been escaped, and only then. -/
theorem readable_iff {v : Value} (h : v.Plain) (hutf8 : v.Holding IsUtf8) :
    IsText v.serialize ↔ v.Holding Clean := by
  constructor
  · intro htext
    exact holding_of_allowed h htext.allowed
  · intro hclean
    exact (derives_serialize h hutf8 hclean).alone

theorem readable_iff_newline :
    IsText (Value.arr [.int (-7), .str [newline]]).serialize ↔
      (Value.arr [.int (-7), .str [newline]]).Holding Clean := by
  refine readable_iff (.arr ?_) (.arr ?_)
  · intro v hv
    simp only [List.mem_cons, List.not_mem_nil, or_false] at hv
    rcases hv with rfl | rfl
    · exact .int _
    · exact .str _
  · intro v hv
    simp only [List.mem_cons, List.not_mem_nil, or_false] at hv
    rcases hv with rfl | rfl
    · exact .int _
    · exact .str ⟨['\n'], rfl⟩

/-- The request is read, and what is printed of it is no text. -/
theorem control_character_unreadable :
    ∃ v : Value, parse 20000 (lit "\x7b\"msg\":\"\x01\"\x7d") = .ok v ∧ v.Plain ∧ v.Holding IsUtf8 ∧
      ¬IsText v.serialize := by
  have hplain : (Value.obj [(lit "msg", .str [1])]).Plain :=
    .obj (List.pairwise_singleton _ _) fun e he => List.mem_singleton.mp he ▸ .str _
  have htext : (Value.obj [(lit "msg", .str [1])]).serialize = lit "\x7b\"msg\":\"\x01\"\x7d" := by decide
  refine ⟨_, htext ▸ parse_serialize hplain (by decide), hplain, .obj ?_ ?_, ?_⟩
  · exact fun e he => List.mem_singleton.mp he ▸ ⟨['m', 's', 'g'], by decide⟩
  · exact fun e he => List.mem_singleton.mp he ▸ .str ⟨['\x01'], by decide⟩
  · intro h
    have hcontrol : Allowed 1 := h.allowed 1 (by decide)
    exact absurd hcontrol (by decide)

end LanChat.Json
