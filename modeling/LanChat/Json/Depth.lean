import LanChat.Json.Nesting

/-!
# How deep a value may be

The parser reads no value that is deeper than the stack has room for
(`depth_le_of_parse`), and each value that is no deeper is read back from its text
(`round_trip_iff`).
-/

namespace LanChat.Json

open Lib Ascii

/-! ## The depth of what is read -/

theorem depthMembers_le {n : Nat} {o : List (Bytes × Value)} : depthMembers o ≤ n ↔ ∀ e ∈ o, e.2.depth ≤ n := by
  induction o with
  | nil => simp [depthMembers]
  | cons e es ih =>
    obtain ⟨k, v⟩ := e
    simp [depthMembers, ih]

theorem depthElements_append (a : List Value) (v : Value) :
    depthElements (a ++ [v]) = max (depthElements a) v.depth := by
  induction a with
  | nil => simp [depthElements]
  | cons w ws ih => simp [depthElements, ih, max_assoc]

theorem depthMembers_put {n : Nat} {o : Object} {v : Value} (ho : depthMembers o ≤ n) (hv : v.depth ≤ n)
    (k : Bytes) : depthMembers (o.put k v) ≤ n := by
  refine depthMembers_le.mpr fun e he => ?_
  rcases OrdMap.mem_put he with rfl | he
  · exact hv
  · exact depthMembers_le.mp ho e he

/-- An object is one deeper than the values that are assigned to it. -/
theorem depth_object {n : Nat} {fields : List (String × Value)} (h : ∀ field ∈ fields, field.2.depth ≤ n) :
    (Value.obj (object fields)).depth ≤ n + 1 := by
  have hmembers : depthMembers (object fields) ≤ n := by
    induction fields using List.reverseRecOn with
    | nil => exact Nat.zero_le n
    | append_singleton fields field ih =>
      rw [object, List.foldl_append]
      exact depthMembers_put (ih fun f hf => h f (List.mem_append_left _ hf))
        (h field (List.mem_append_right _ List.mem_cons_self)) _
  rw [Value.depth]
  omega

theorem result_of_parseLiteral {expected : Bytes} {result v : Value} {cur cur' : Cursor}
    (h : parseLiteral expected result cur = .ok (v, cur')) : v = result := by
  induction expected generalizing cur with
  | nil =>
    cases h
    rfl
  | cons p ps ih =>
    obtain ⟨⟨c, mid⟩, -, hrest⟩ := bind_eq_ok h
    dsimp only at hrest
    split at hrest
    · exact ih hrest
    · cases hrest

theorem depth_of_parseNumber {v : Value} {cur cur' : Cursor} (h : parseNumber cur = .ok (v, cur')) :
    v.depth = 1 := by
  rcases cur with text | _
  swap
  · cases h
  obtain ⟨sign, body, -, -, hbody, -⟩ := split_sign text
  simp only [parseNumber, ← hbody] at h
  split at h
  · split at h
    · cases h
    · split at h
      · cases h
      · cases h
        rfl
  · obtain ⟨i, -, hpair⟩ := map_eq_ok h
    cases hpair
    rfl

/-- The parser reads no value that is deeper than the stack. -/
theorem depth_of_parse (stack fuel : Nat) :
    (∀ cur v cur', parseValue stack fuel cur = .ok (v, cur') → v.depth ≤ stack) ∧
      (∀ arr cur v cur', depthElements arr ≤ stack → parseElements stack fuel arr cur = .ok (v, cur') →
        v.depth ≤ stack + 1) ∧
      ∀ (obj : Object) cur v cur', depthMembers obj ≤ stack → parseMembers stack fuel obj cur = .ok (v, cur') →
        v.depth ≤ stack + 1 := by
  induction fuel generalizing stack with
  | zero => exact ⟨(fun _ _ _ h => by cases h), (fun _ _ _ _ _ h => by cases h), fun _ _ _ _ _ h => by cases h⟩
  | succ fuel ih =>
    refine ⟨fun cur v cur' h => ?_, fun arr cur v cur' harr h => ?_, fun obj cur v cur' hobj h => ?_⟩
    · rcases stack with _ | stack
      · cases h
      obtain ⟨-, ihElements, ihMembers⟩ := ih stack
      have hone : ∀ w : Value, w.depth = 1 → v = w → v.depth ≤ stack + 1 := by
        rintro w hw rfl
        omega
      have hfirst := parseValue_byFirst stack fuel cur
      rw [h] at hfirst
      generalize hresult : Except.ok (v, cur') = result at hfirst
      cases hfirst with
      | null _ => exact hone _ rfl (result_of_parseLiteral hresult.symm)
      | true _ => exact hone _ rfl (result_of_parseLiteral hresult.symm)
      | false _ => exact hone _ rfl (result_of_parseLiteral hresult.symm)
      | string _ =>
        obtain ⟨⟨s, mid⟩, -, hpair⟩ := map_eq_ok hresult.symm
        cases hpair
        exact hone _ rfl rfl
      | number _ => exact hone v (depth_of_parseNumber hresult.symm) rfl
      | array _ =>
        obtain ⟨⟨c, mid⟩, -, h⟩ := bind_eq_ok hresult.symm
        dsimp only at h
        split at h
        · obtain ⟨_, -, hpair⟩ := bind_eq_ok h
          cases hpair
          exact hone _ rfl rfl
        · exact ihElements [] _ v cur' (Nat.zero_le _) h
      | object _ =>
        obtain ⟨⟨c, mid⟩, -, h⟩ := bind_eq_ok hresult.symm
        dsimp only at h
        split at h
        · obtain ⟨_, -, hpair⟩ := bind_eq_ok h
          cases hpair
          exact hone _ rfl rfl
        · exact ihMembers [] _ v cur' (Nat.zero_le _) h
      | unexpected => cases hresult
    · obtain ⟨ihValue, ihElements, -⟩ := ih stack
      unfold parseElements at h
      obtain ⟨⟨w, mid⟩, hvalue, h⟩ := bind_eq_ok h
      have hmore : depthElements (arr ++ [w]) ≤ stack := by
        rw [depthElements_append]
        exact max_le harr (ihValue cur w mid hvalue)
      obtain ⟨⟨c, behind⟩, -, h⟩ := bind_eq_ok h
      dsimp only at h
      split at h
      · cases h
        rw [Value.depth]
        omega
      split at h
      · cases h
      · exact ihElements _ _ v cur' hmore h
    · obtain ⟨ihValue, -, ihMembers⟩ := ih stack
      unfold parseMembers at h
      obtain ⟨⟨key, mid⟩, -, h⟩ := bind_eq_ok h
      obtain ⟨⟨d, behind⟩, -, h⟩ := bind_eq_ok h
      dsimp only at h
      split at h
      · cases h
      obtain ⟨⟨w, mid⟩, hvalue, h⟩ := bind_eq_ok h
      have hmore : depthMembers (obj.put key w) ≤ stack :=
        depthMembers_put hobj (ihValue _ w mid hvalue) key
      obtain ⟨⟨c, behind⟩, -, h⟩ := bind_eq_ok h
      dsimp only at h
      split at h
      · cases h
        rw [Value.depth]
        omega
      split at h
      · cases h
      · exact ihMembers _ _ v cur' hmore h

theorem depth_le_of_parse {stack : Nat} {src : Bytes} {v : Value} (h : parse stack src = .ok v) :
    v.depth ≤ stack := by
  obtain ⟨cur, hread, -⟩ := parse_consumed h
  exact (depth_of_parse _ _).1 _ v cur hread

/-! ## Reading back -/

/-- The text that the server prints of what it reads. -/
def reprint (stack : Nat) (text : Bytes) : Except Fault Bytes := (parse stack text).map Value.serialize

/-- A value is read back from its text, no other value has that text, and reading and
printing once more changes nothing, if the stack has room for the depth of the value,
and only then. -/
theorem round_trip_iff {v : Value} (h : v.Plain) (stack : Nat) :
    (parse stack v.serialize = .ok v ∧ (∀ w : Value, w.Plain → w.serialize = v.serialize → w = v) ∧
      reprint stack v.serialize = .ok v.serialize ∧
      ∀ text, parse stack text = .ok v → reprint stack text >>= reprint stack = reprint stack text) ↔
      v.depth ≤ stack := by
  constructor
  · rintro ⟨hread, -⟩
    exact depth_le_of_parse hread
  · intro hdepth
    have hread := parse_serialize h hdepth
    have hprint : reprint stack v.serialize = .ok v.serialize := by
      rw [reprint, hread]
      rfl
    refine ⟨hread, fun w hw => serialize_inj hw h, hprint, fun text htext => ?_⟩
    have honce : reprint stack text = .ok v.serialize := by
      rw [reprint, htext]
      rfl
    rw [honce]
    exact hprint

theorem round_trip_iff_nested :
    parse 2 (Value.arr [.obj [], .int Int64.minValue, .arr [], .str [0, dquote, 255]]).serialize =
      .ok (.arr [.obj [], .int Int64.minValue, .arr [], .str [0, dquote, 255]]) := by
  refine ((round_trip_iff (.arr fun v hv => ?_) 2).mpr (by decide)).1
  simp only [List.mem_cons, List.not_mem_nil, or_false] at hv
  rcases hv with rfl | rfl | rfl | rfl
  · exact .obj OrdMap.sorted_nil nofun
  · exact .int _
  · exact .arr nofun
  · exact .str _

/-- Arrays inside one another. -/
def arrays : Nat → Value
  | 0 => .arr []
  | n + 1 => .arr [arrays n]

theorem plain_arrays (n : Nat) : (arrays n).Plain := by
  induction n with
  | zero => exact .arr nofun
  | succ n ih => exact .arr fun v hv => List.mem_singleton.mp hv ▸ ih

theorem depth_arrays (n : Nat) : (arrays n).depth = n + 1 := by
  induction n with
  | zero => rfl
  | succ n ih => simp [arrays, Value.depth, depthElements, ih]

/-- A value that is too deep for the stack is printed and not read back. -/
theorem deep_value_unread : ¬∀ v : Value, v.Plain → parse 20000 v.serialize = .ok v := by
  intro h
  have hdepth := depth_le_of_parse (h (arrays 20000) (plain_arrays 20000))
  rw [depth_arrays] at hdepth
  omega

end LanChat.Json
