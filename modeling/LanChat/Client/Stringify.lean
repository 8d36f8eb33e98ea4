import LanChat.Json.Nesting
import LanChat.Json.Readable

/-!
# What the client writes and the server reads

`JSON.stringify` on the messages of the client: one object, its members in the
order of the literal, with numbers, strings, booleans and an array of names as
values. The server's parser knows fewer escapes than `JSON.stringify` writes: a
control character other than newline, carriage return and tab arrives as the
letters of its escape (`heard`).
-/

namespace LanChat

open Lib Lib.Rfc8259 Json Json.Ascii

namespace Client

def hexDigit (n : UInt8) : UInt8 := if n < 10 then 48 + n else 87 + n

/-- One byte of a string in `JSON.stringify`; the bytes of a character beyond
ASCII are written as they are. -/
def quoteByte (c : UInt8) : Bytes :=
  if c = dquote then lit "\\\""
  else if c = backslash then lit "\\\\"
  else if c = 8 then lit "\\b"
  else if c = 12 then lit "\\f"
  else if c = newline then lit "\\n"
  else if c = carriage then lit "\\r"
  else if c = tab then lit "\\t"
  else if c < 32 then lit "\\u00" ++ [hexDigit (c / 16), hexDigit (c % 16)]
  else [c]

/-- A string in `JSON.stringify`. -/
def quote (s : Bytes) : Bytes := dquote :: s.flatMap quoteByte ++ [dquote]

/-- `JSON.stringify` on a member. An array is one of names, which need no escape. -/
def stringifyValue : Value → Bytes
  | .str s => quote s
  | v => v.serialize

/-- The members of an object with the closing brace. -/
def stringifyMembers : List (String × Value) → Bytes
  | [] => [rbrace]
  | [(k, v)] => serializeString (lit k) ++ colon :: stringifyValue v ++ [rbrace]
  | (k, v) :: m :: rest =>
    serializeString (lit k) ++ colon :: stringifyValue v ++ comma :: stringifyMembers (m :: rest)

/-- `JSON.stringify` on an object literal. -/
def stringify (members : List (String × Value)) : Bytes := lbrace :: stringifyMembers members

/-- What the server makes of one byte of a string. -/
def heard (c : UInt8) : Bytes :=
  if c = 8 then lit "b"
  else if c = 12 then lit "f"
  else if c < 32 ∧ c ≠ newline ∧ c ≠ carriage ∧ c ≠ tab then
    lit "u00" ++ [hexDigit (c / 16), hexDigit (c % 16)]
  else [c]

/-- What the server makes of a member. -/
def heardValue : Value → Value
  | .str s => .str (s.flatMap heard)
  | v => v

/-! ## Reading -/

/-- The two hexadecimal digits of a control character. -/
theorem digits_lt {c : UInt8} (h : c < 32) : c / 16 < 16 ∧ c % 16 < 16 := by
  refine ⟨?_, UInt8.mod_lt c (by decide)⟩
  rw [UInt8.lt_iff_toNat_lt] at h ⊢
  rw [UInt8.toNat_div]
  have : c.toNat < 32 := h
  show c.toNat / 16 < 16
  omega

/-- A hexadecimal digit is neither a quote nor a backslash. -/
theorem hexDigit_ne {n : UInt8} (h : n < 16) : hexDigit n ≠ dquote ∧ hexDigit n ≠ backslash := by
  have hall : ∀ k < 16, hexDigit (UInt8.ofNat k) ≠ dquote ∧ hexDigit (UInt8.ofNat k) ≠ backslash := by
    decide
  rw [← UInt8.ofNat_toNat (x := n)]
  exact hall n.toNat (UInt8.lt_iff_toNat_lt.mp h)

theorem stringLoop_plain {c : UInt8} (hquote : c ≠ dquote) (hslash : c ≠ backslash) (text : Bytes) :
    stringLoop (c :: text) = (stringLoop text).map fun (s, rest) => (c :: s, rest) := by
  rw [stringLoop.eq_def]
  simp only [hquote, hslash, if_false]

theorem stringLoop_escaped (esc : UInt8) (text : Bytes) :
    stringLoop (backslash :: esc :: text) =
      (stringLoop text).map fun (s, rest) => (unescape esc :: s, rest) := by
  rw [stringLoop.eq_def]
  rfl

theorem stringLoop_quoteByte (c : UInt8) (text : Bytes) :
    stringLoop (quoteByte c ++ text) = (stringLoop text).map fun (s, rest) => (heard c ++ s, rest) := by
  unfold quoteByte
  split
  · next h => subst h; rfl
  split
  · next h => subst h; rfl
  split
  · next h => subst h; rfl
  split
  · next h => subst h; rfl
  split
  · next h => subst h; rfl
  split
  · next h => subst h; rfl
  split
  · next h => subst h; rfl
  next hquote hslash hback hfeed hnewline hcarriage htab =>
  split
  · next hcontrol =>
    have hheard : heard c = lit "u00" ++ [hexDigit (c / 16), hexDigit (c % 16)] := by
      simp [heard, hback, hfeed, hnewline, hcarriage, htab, hcontrol]
    obtain ⟨hhigh, hlow⟩ := digits_lt hcontrol
    obtain ⟨hhigh₁, hhigh₂⟩ := hexDigit_ne hhigh
    obtain ⟨hlow₁, hlow₂⟩ := hexDigit_ne hlow
    rw [hheard]
    show stringLoop (backslash :: 117 :: 48 :: 48 :: hexDigit (c / 16) :: hexDigit (c % 16) :: text) = _
    rw [stringLoop_escaped, stringLoop_plain (by decide) (by decide),
      stringLoop_plain (by decide) (by decide), stringLoop_plain hhigh₁ hhigh₂,
      stringLoop_plain hlow₁ hlow₂]
    cases stringLoop text <;> rfl
  · next hcontrol =>
    have hheard : heard c = [c] := by
      simp [heard, hback, hfeed, hcontrol]
    rw [hheard, List.singleton_append, stringLoop_plain hquote hslash]
    rfl

theorem spellsString_quote (s : Bytes) : SpellsString (quote s) (s.flatMap heard) := by
  refine ⟨⟨_, rfl⟩, fun rest => ?_⟩
  have hloop : ∀ s : Bytes, stringLoop (s.flatMap quoteByte ++ dquote :: rest) =
      .ok (s.flatMap heard, rest) := by
    intro s
    induction s with
    | nil =>
      rw [List.flatMap_nil, List.nil_append, stringLoop.eq_def]
      simp
    | cons c s ih =>
      rw [List.flatMap_cons, List.append_assoc, stringLoop_quoteByte, ih]
      rfl
  simp only [quote, List.cons_append, List.append_assoc, List.nil_append, parseString, next,
    Except.bind, bind, hloop, Except.map]

/-! ## The client's messages -/

theorem spells_stringifyValue {v : Value} (h : v.Plain) : Spells v.depth (stringifyValue v) (heardValue v) := by
  cases h with
  | str s => exact (spellsString_quote s).spells
  | null => exact Value.Plain.null.spells
  | bool b => exact (Value.Plain.bool b).spells
  | int i => exact (Value.Plain.int i).spells
  | arr hplain => exact (Value.Plain.arr hplain).spells
  | obj hsorted hplain => exact (Value.Plain.obj hsorted hplain).spells

/-- A member as the server reads it. -/
def heardMember (m : String × Value) : String × Value := (m.1, heardValue m.2)

theorem stringifyMembers_eq (members : List (String × Value)) :
    stringifyMembers members = membersText (members.map fun m => (serializeString (lit m.1), stringifyValue m.2)) := by
  induction members with
  | nil => rfl
  | cons m ms ih =>
    obtain ⟨k, v⟩ := m
    cases ms with
    | nil => rfl
    | cons f fs => rw [stringifyMembers, ih]; rfl

/-- The server reads the members of the client's message. -/
theorem readObject_stringify {members : List (String × Value)} (hplain : ∀ m ∈ members, m.2.Plain) :
    readObject (stringify members) = some (object (members.map heardMember)) := by
  let depth := depthMembers (members.map fun m => (lit m.1, m.2))
  have hdepth : ∀ m ∈ members, m.2.depth ≤ depth := fun m hm =>
    depth_le_members (List.mem_map_of_mem (f := fun m => (lit m.1, m.2)) hm)
  have hmembers : List.Forall₂ (SpellsMember depth)
      (members.map fun m => (serializeString (lit m.1), stringifyValue m.2))
      (members.map fun m => (lit m.1, heardValue m.2)) := by
    rw [List.forall₂_map_left_iff, List.forall₂_map_right_iff, List.forall₂_same]
    exact fun m hm =>
      ⟨spellsString_serializeString (lit m.1), (spells_stringifyValue (hplain m hm)).mono (hdepth m hm)⟩
  have hread := read_of_spells (spells_object hmembers)
  rw [← stringifyMembers_eq] at hread
  refine parseObject_eq_some.mpr (hread.trans ?_)
  simp only [assign, object, heardMember, List.foldl_map]

/-! ## Messages with any members -/

mutual

/-- `JSON.stringify` on any value without fractions; the members of an object
in the order in which they were set. -/
def jsonText : Value → Bytes
  | .str s => quote s
  | .arr a => lbracket :: elementsText (jsonElements a)
  | .obj o => lbrace :: membersText (jsonMembers o)
  | v => v.serialize

def jsonElements : List Value → List Bytes
  | [] => []
  | v :: vs => jsonText v :: jsonElements vs

def jsonMembers : List (Bytes × Value) → List (Bytes × Bytes)
  | [] => []
  | (k, v) :: es => (quote k, jsonText v) :: jsonMembers es

end

mutual

/-- What the server makes of any value. -/
def understood : Value → Value
  | .str s => .str (s.flatMap heard)
  | .arr a => .arr (understoodElements a)
  | .obj o => .obj (assign [] (understoodMembers o))
  | v => v

def understoodElements : List Value → List Value
  | [] => []
  | v :: vs => understood v :: understoodElements vs

def understoodMembers : List (Bytes × Value) → List (Bytes × Value)
  | [] => []
  | (k, v) :: es => (k.flatMap heard, understood v) :: understoodMembers es

end

/-- The value has no fraction in it. -/
inductive Sendable : Value → Prop
  | null : Sendable .null
  | bool (b : Bool) : Sendable (.bool b)
  | int (i : Int64) : Sendable (.int i)
  | str (s : Bytes) : Sendable (.str s)
  | arr {a : List Value} (h : ∀ v ∈ a, Sendable v) : Sendable (.arr a)
  | obj {o : List (Bytes × Value)} (h : ∀ e ∈ o, Sendable e.2) : Sendable (.obj o)

theorem spells_elements {depth : Nat} {a : List Value}
    (h : ∀ v ∈ a, Spells depth (jsonText v) (understood v)) :
    List.Forall₂ (Spells depth) (jsonElements a) (understoodElements a) := by
  induction a with
  | nil => exact .nil
  | cons v vs ih => exact .cons (h v List.mem_cons_self) (ih fun w hw => h w (List.mem_cons_of_mem _ hw))

theorem spells_members {depth : Nat} {o : List (Bytes × Value)}
    (h : ∀ e ∈ o, Spells depth (jsonText e.2) (understood e.2)) :
    List.Forall₂ (SpellsMember depth) (jsonMembers o) (understoodMembers o) := by
  induction o with
  | nil => exact .nil
  | cons e es ih =>
    obtain ⟨k, v⟩ := e
    exact .cons ⟨spellsString_quote k, h (k, v) List.mem_cons_self⟩
      (ih fun f hf => h f (List.mem_cons_of_mem _ hf))

theorem spells_jsonText {v : Value} (h : Sendable v) : Spells v.depth (jsonText v) (understood v) := by
  induction h with
  | null => exact spells_null
  | bool b =>
    cases b with
    | true => exact spells_true
    | false => exact spells_false
  | int i => exact spells_int i
  | str s => exact (spellsString_quote s).spells
  | arr _ ih => exact spells_array (spells_elements fun v hv => (ih v hv).mono (depth_le_elements hv))
  | obj _ ih => exact spells_object (spells_members fun e he => (ih e he).mono (depth_le_members he))

/-! ### One byte -/

theorem hexDigit_ge {n : UInt8} (h : n < 16) : 48 ≤ hexDigit n := by
  have hall : ∀ k < 16, 48 ≤ hexDigit (UInt8.ofNat k) := by decide
  rw [← UInt8.ofNat_toNat (x := n)]
  exact hall n.toNat (UInt8.lt_iff_toNat_lt.mp h)

theorem heard_allowed {c : UInt8} (h : Allowed c) : heard c = [c] := by
  have hne : ∀ d : UInt8, ¬Allowed d → c ≠ d := by
    rintro d hd rfl
    exact hd h
  have hcontrol : ¬(c < 32 ∧ c ≠ newline ∧ c ≠ carriage ∧ c ≠ tab) := by
    rintro ⟨hlow, hnewline, hcarriage, htab⟩
    rcases h with h | h | h | h
    · exact UInt8.not_lt.mpr h hlow
    · exact htab h
    · exact hnewline h
    · exact hcarriage h
  simp [heard, hne 8 (by decide), hne 12 (by decide), hcontrol]

/-- A control character is heard as letters and digits, one of which is in no
name of a field. -/
theorem heard_control {c : UInt8} (h : ¬Allowed c) : (∃ b ∈ heard c, b ∈ lit "bf0") ∧ Clean (heard c) := by
  unfold heard
  split
  · exact ⟨⟨98, by decide, by decide⟩, by unfold Clean; decide +kernel⟩
  split
  · exact ⟨⟨102, by decide, by decide⟩, by unfold Clean; decide +kernel⟩
  split
  · next hcontrol =>
    have hlit : Clean (lit "u00") := by unfold Clean; decide +kernel
    refine ⟨⟨48, List.mem_append_left _ (by decide), by decide⟩, ?_⟩
    rintro b hb
    rcases List.mem_append.mp hb with hb | hb
    · exact hlit b hb
    · simp only [List.mem_cons, List.not_mem_nil, or_false] at hb
      obtain ⟨hhigh, hlow⟩ := digits_lt hcontrol.1
      rcases hb with rfl | rfl
      · exact .inl (UInt8.le_trans (by decide) (hexDigit_ge hhigh))
      · exact .inl (UInt8.le_trans (by decide) (hexDigit_ge hlow))
  · next hcontrol =>
    refine absurd ?_ h
    by_contra hall
    refine hcontrol ⟨UInt8.not_le.mp fun hle => hall (.inl hle), ?_, ?_, ?_⟩
    all_goals
      rintro rfl
      exact h (by decide)

/-! ### Strings -/

theorem clean_heard (s : Bytes) : Clean (s.flatMap heard) := by
  intro b hb
  obtain ⟨c, hc, hb⟩ := List.mem_flatMap.mp hb
  rcases Classical.em (Allowed c) with h | h
  · rw [heard_allowed h, List.mem_singleton] at hb
    exact hb ▸ h
  · exact (heard_control h).2 b hb

theorem flatMap_heard {s : Bytes} (h : Clean s) : s.flatMap heard = s := by
  induction s with
  | nil => rfl
  | cons c s ih =>
    rw [List.flatMap_cons, heard_allowed (h c List.mem_cons_self), ih fun b hb => h b (List.mem_cons_of_mem _ hb)]
    rfl

/-- A string arrives unchanged exactly when it is clean. -/
theorem flatMap_heard_iff {s : Bytes} : s.flatMap heard = s ↔ Clean s := by
  constructor
  · intro h
    rw [← h]
    exact clean_heard s
  · exact flatMap_heard

/-- No other key is heard as `msg`. -/
theorem eq_msg_of_heard {k : Bytes} (h : k.flatMap heard = lit "msg") : k = lit "msg" := by
  have hclean : Clean k := by
    intro c hc
    by_contra hcontrol
    obtain ⟨⟨b, hb, hletter⟩, -⟩ := heard_control hcontrol
    have hmsg : b ∈ lit "msg" := h ▸ List.mem_flatMap.mpr ⟨c, hc, hb⟩
    have hnone : ∀ b ∈ lit "bf0", b ∉ lit "msg" := by decide +kernel
    exact hnone b hletter hmsg
  rwa [flatMap_heard hclean] at h

theorem clean_utf8 {cs : List Char} :
    Clean (utf8 cs) ↔ ∀ c ∈ cs, 32 ≤ c.toNat ∨ c = '\t' ∨ c = '\n' ∨ c = '\r' := by
  have hchar : ∀ c d : Char, c.toNat = d.toNat → c = d := fun c d h => Char.toNat_inj.mp h
  constructor
  · intro h c hc
    rcases Nat.lt_or_ge c.toNat 128 with hascii | hhigh
    · have hb : (UInt8.ofNat c.toNat).toNat = c.toNat :=
        UInt8.toNat_ofNat_of_lt' (Nat.lt_trans hascii (by decide))
      have hlow : UInt8.ofNat c.toNat < 128 := by
        rw [UInt8.lt_iff_toNat_lt, hb]
        exact hascii
      rcases h _ ((mem_utf8 hlow).mpr ⟨c, hc, hb.symm⟩) with hge | heq | heq | heq
      · left
        rwa [UInt8.le_iff_toNat_le, hb] at hge
      · exact .inr (.inl (hchar c _ (by rw [← hb, heq]; rfl)))
      · exact .inr (.inr (.inl (hchar c _ (by rw [← hb, heq]; rfl))))
      · exact .inr (.inr (.inr (hchar c _ (by rw [← hb, heq]; rfl))))
    · exact .inl (Nat.le_trans (by decide) hhigh)
  · intro h b hb
    rcases UInt8.lt_or_le b 128 with hascii | hhigh
    · obtain ⟨c, hc, hcode⟩ := (mem_utf8 hascii).mp hb
      rcases h c hc with hge | rfl | rfl | rfl
      · left
        rw [UInt8.le_iff_toNat_le, ← hcode]
        exact hge
      · exact .inr (.inl (UInt8.toNat_inj.mp hcode.symm))
      · exact .inr (.inr (.inl (UInt8.toNat_inj.mp hcode.symm)))
      · exact .inr (.inr (.inr (UInt8.toNat_inj.mp hcode.symm)))
    · exact .inl (UInt8.le_trans (by decide) hhigh)

/-! ### The field `msg` -/

theorem understoodMembers_append (es fs : List (Bytes × Value)) :
    understoodMembers (es ++ fs) = understoodMembers es ++ understoodMembers fs := by
  induction es with
  | nil => rfl
  | cons e es ih =>
    obtain ⟨k, v⟩ := e
    rw [List.cons_append, understoodMembers, understoodMembers, ih]
    rfl

theorem find?_assign_understood {es : List (Bytes × Value)} (h : ∀ e ∈ es, e.1 ≠ lit "msg") (obj : Object) :
    OrdMap.find? (assign obj (understoodMembers es)) (lit "msg") = OrdMap.find? obj (lit "msg") := by
  induction es generalizing obj with
  | nil => rfl
  | cons e es ih =>
    obtain ⟨k, v⟩ := e
    have hk : lit "msg" ≠ k.flatMap heard := fun hk => h (k, v) List.mem_cons_self (eq_msg_of_heard hk.symm)
    rw [understoodMembers, assign, List.foldl_cons, ← assign, ih fun f hf => h f (List.mem_cons_of_mem _ hf)]
    exact OrdMap.find?_put_of_ne hk

/-- A message object with the text `c` as its `msg`. -/
def messageWith (before : List (Bytes × Value)) (c : List Char) (after : List (Bytes × Value)) : Value :=
  .obj (before ++ (lit "msg", .str (utf8 c)) :: after)

/-- The server rejects the frame or has `c` as its `msg`. -/
def Intact (frame : Bytes) (c : List Char) : Prop :=
  ∀ o, readObject frame = some o → OrdMap.find? o (lit "msg") = some (.str (utf8 c))

theorem find?_msg {before after : List (Bytes × Value)} {c : List Char}
    (hbefore : ∀ e ∈ before, Sendable e.2) (hafter : ∀ e ∈ after, Sendable e.2)
    (hmsg : ∀ e ∈ after, e.1 ≠ lit "msg") :
    ∃ o, readObject (jsonText (messageWith before c after)) = some o ∧
      OrdMap.find? o (lit "msg") = some (.str ((utf8 c).flatMap heard)) := by
  have hsendable : Sendable (messageWith before c after) := by
    refine .obj fun e he => ?_
    rcases List.mem_append.mp he with he | he
    · exact hbefore e he
    rcases List.mem_cons.mp he with rfl | he
    · exact .str _
    · exact hafter e he
  refine ⟨_, parseObject_eq_some.mpr (read_of_spells (spells_jsonText hsendable)), ?_⟩
  have hname : (lit "msg").flatMap heard = lit "msg" := by decide
  rw [understoodMembers_append, understoodMembers, assign, List.foldl_append, List.foldl_cons, ← assign,
    find?_assign_understood hmsg, hname]
  exact OrdMap.find?_put_self

/-- The text of a message arrives as it was typed exactly when it has no
control character that the server has no escape for. -/
theorem intact_iff {before after : List (Bytes × Value)} (hbefore : ∀ e ∈ before, Sendable e.2)
    (hafter : ∀ e ∈ after, Sendable e.2) (hmsg : ∀ e ∈ after, e.1 ≠ lit "msg") (c : List Char) :
    Intact (jsonText (messageWith before c after)) c ↔
      ∀ ch ∈ c, 32 ≤ ch.toNat ∨ ch = '\t' ∨ ch = '\n' ∨ ch = '\r' := by
  obtain ⟨o, hparse, hfind⟩ := @find?_msg before after c hbefore hafter hmsg
  rw [← clean_utf8, ← flatMap_heard_iff]
  constructor
  · intro h
    have hsame := hfind.symm.trans (h o hparse)
    exact Value.str.inj (Option.some.inj hsame)
  · intro h o' ho'
    cases hparse.symm.trans ho'
    rw [hfind, h]

theorem intact_iff_reply :
    Intact (jsonText (messageWith [(lit "type", .int 5)] ['h', 'i'] [(lit "toId", .int 2)])) ['h', 'i'] ↔
      ∀ ch ∈ ['h', 'i'], 32 ≤ ch.toNat ∨ ch = '\t' ∨ ch = '\n' ∨ ch = '\r' := by
  refine intact_iff (fun e he => ?_) (fun e he => ?_) (fun e he => ?_) ['h', 'i']
  · exact List.mem_singleton.mp he ▸ .int _
  · exact List.mem_singleton.mp he ▸ .int _
  · exact List.mem_singleton.mp he ▸ by decide

/-- A backspace typed into a private message arrives as the letter `b`. -/
theorem backspace_changed :
    ¬Intact (jsonText (messageWith [(lit "type", .int 5), (lit "fromId", .int 1), (lit "toId", .int 2)]
      ['\x08'] [])) ['\x08'] := by
  intro h
  have hbefore : ∀ e ∈ [(lit "type", .int 5), (lit "fromId", .int 1), (lit "toId", Value.int 2)],
      Sendable e.2 := by
    intro e he
    simp only [List.mem_cons, List.not_mem_nil, or_false] at he
    rcases he with rfl | rfl | rfl <;> exact .int _
  obtain ⟨o, hparse, hfind⟩ := @find?_msg _ [] ['\x08'] hbefore nofun nofun
  have hsame := (h o hparse).symm.trans hfind
  exact absurd (Value.str.inj (Option.some.inj hsame)) (by decide)

end Client

end LanChat
