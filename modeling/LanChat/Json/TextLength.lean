import Mathlib.Algebra.BigOperators.Group.List.Basic
import LanChat.Json.Serialize

/-!
# How long a printed value is

The length of the text that `serialize` makes of a value, in terms of the lengths
of its parts. The members of an object are in key order, whatever the order of
the assignments; the length does not depend on it (`length_serialize_object`).
-/

namespace LanChat.Json

open Lib Ascii

/-! ## Strings and numbers -/

/-- The character is printed as two. -/
def isEscaped (c : UInt8) : Bool :=
  c = dquote || c = backslash || c = newline || c = carriage || c = tab

/-- The length of a string in a text, with the quotes around it. -/
def quotedLength (s : Bytes) : Nat := s.length + s.countP isEscaped + 2

theorem length_escape (c : UInt8) : (escape c).length = if isEscaped c then 2 else 1 := by
  unfold escape isEscaped
  by_cases hquote : c = dquote
  · simp only [hquote, decide_true, Bool.true_or, if_true]; rfl
  by_cases hslash : c = backslash
  · simp only [hslash, decide_true, Bool.true_or, Bool.or_true, if_true]; rfl
  by_cases hline : c = newline
  · simp only [hline, decide_true, Bool.true_or, Bool.or_true, if_true]; rfl
  by_cases hreturn : c = carriage
  · simp only [hreturn, decide_true, Bool.true_or, Bool.or_true, if_true]; rfl
  by_cases htab : c = tab
  · simp only [htab, decide_true, Bool.or_true, if_true]; rfl
  · simp [hquote, hslash, hline, hreturn, htab]

theorem length_serializeString (s : Bytes) : (serializeString s).length = quotedLength s := by
  have hbody : (s.flatMap escape).length = s.length + s.countP isEscaped := by
    induction s with
    | nil => rfl
    | cons c s ih =>
      rw [List.flatMap_cons, List.length_append, ih, length_escape, List.length_cons, List.countP_cons]
      split <;> omega
  rw [serializeString, List.cons_append, List.length_cons, List.length_append, hbody, quotedLength]
  rfl

theorem quotedLength_le (s : Bytes) : quotedLength s ≤ 2 * s.length + 2 := by
  have hcount : s.countP isEscaped ≤ s.length := List.countP_le_length
  unfold quotedLength
  omega

theorem length_decimal_le {n k : Nat} (hk : 0 < k) (h : n < 10 ^ k) : (decimal n).length ≤ k := by
  unfold decimal
  split
  · exact hk
  · rw [List.length_map, List.length_reverse]
    exact (Nat.digits_length_le_iff (by decide) n).mpr h

/-- An `int64_t` has at most 19 digits. -/
theorem length_intText_le (i : Int64) : (intText i).length ≤ 20 := by
  have hlow := i.le_toInt
  have hhigh := i.toInt_lt
  have hdigits : (decimal i.toInt.natAbs).length ≤ 19 := length_decimal_le (by decide) (by omega)
  unfold intText
  split
  · rw [List.length_cons]
    omega
  · omega

/-! ## Arrays and objects -/

/-- The length of an array whose elements have these lengths. -/
def arrayLength (lengths : List Nat) : Nat := 1 + max 1 (lengths.map (· + 1)).sum

theorem length_serializeElements (a : List Value) :
    (serializeElements a).length = max 1 (a.map fun v => v.serialize.length + 1).sum := by
  induction a with
  | nil => rfl
  | cons v rest ih =>
    cases rest with
    | nil => simp [serializeElements]
    | cons w rest =>
      simp only [serializeElements, List.length_append, List.length_cons, ih, List.map_cons, List.sum_cons]
      omega

theorem length_serialize_arr (a : List Value) :
    (Value.arr a).serialize.length = arrayLength (a.map fun v => v.serialize.length) := by
  rw [Value.serialize, List.length_cons, length_serializeElements, arrayLength, List.map_map, Nat.add_comm]
  rfl

theorem length_serializeMembers {o : List (Bytes × Value)} (h : o ≠ []) :
    (serializeMembers o).length = (o.map fun e => quotedLength e.1 + e.2.serialize.length + 2).sum := by
  induction o with
  | nil => exact absurd rfl h
  | cons e rest ih =>
    obtain ⟨k, v⟩ := e
    cases rest with
    | nil =>
      simp only [serializeMembers, List.length_append, List.length_cons, List.length_nil,
        length_serializeString, List.map_cons, List.map_nil, List.sum_cons, List.sum_nil]
      omega
    | cons m rest =>
      simp only [serializeMembers, List.length_append, List.length_cons, length_serializeString,
        ih (List.cons_ne_nil _ _), List.map_cons, List.sum_cons]
      omega

/-- The members of an object are the assigned fields, in another order. -/
theorem object_perm {fields : List (String × Value)} (h : (fields.map Prod.fst).Nodup) :
    (object fields).Perm (fields.map fun field => (lit field.1, field.2)) := by
  induction fields using List.reverseRecOn with
  | nil => exact .refl _
  | append_singleton fields field ih =>
    rw [List.map_append, List.nodup_append'] at h
    obtain ⟨hinit, -, hdisjoint⟩ := h
    have hperm := ih hinit
    have habsent : ∀ e ∈ object fields, e.1 ≠ lit field.1 := by
      intro e he heq
      obtain ⟨f, hf, rfl⟩ := List.mem_map.mp (hperm.mem_iff.mp he)
      exact hdisjoint (List.mem_map_of_mem hf) (List.mem_singleton.mpr (lit_inj.mp heq))
    rw [object, List.foldl_append, List.map_append]
    exact (OrdMap.put_perm habsent).trans ((hperm.cons _).trans (List.perm_append_singleton _ _).symm)

/-- What the keys of an object add to its text, with the punctuation. -/
def keysLength (keys : List String) : Nat := (keys.map fun key => quotedLength (lit key) + 2).sum

@[simp] theorem keysLength_nil : keysLength [] = 0 := rfl

theorem keysLength_append (keys keys' : List String) : keysLength (keys ++ keys') = keysLength keys + keysLength keys' := by
  rw [keysLength, List.map_append, List.sum_append]
  rfl

/-- The values of some fields together. -/
def valuesLength (fields : List (String × Value)) : Nat := (fields.map fun field => field.2.serialize.length).sum

@[simp] theorem valuesLength_nil : valuesLength [] = 0 := rfl

@[simp] theorem valuesLength_cons (key : String) (v : Value) (fields : List (String × Value)) :
    valuesLength ((key, v) :: fields) = v.serialize.length + valuesLength fields := rfl

@[simp] theorem valuesLength_append (fields fields' : List (String × Value)) :
    valuesLength (fields ++ fields') = valuesLength fields + valuesLength fields' := by
  rw [valuesLength, List.map_append, List.sum_append]
  rfl

/-- What the fields add to the text of an object. -/
def fieldsLength (fields : List (String × Value)) : Nat := keysLength (fields.map Prod.fst) + valuesLength fields

theorem fieldsLength_append (fields fields' : List (String × Value)) :
    fieldsLength (fields ++ fields') = fieldsLength fields + fieldsLength fields' := by
  simp only [fieldsLength, List.map_append, keysLength_append, valuesLength_append]
  omega

theorem length_serialize_object_of_nodup {fields : List (String × Value)} (hne : fields ≠ [])
    (h : (fields.map Prod.fst).Nodup) : (serialize (object fields)).length = 1 + fieldsLength fields := by
  have hperm := object_perm h
  have hmembers : object fields ≠ [] := by
    intro hnil
    rw [hnil] at hperm
    exact hne (List.map_eq_nil_iff.mp hperm.nil_eq.symm)
  have hsum : ∀ fields : List (String × Value),
      ((fields.map fun field => (lit field.1, field.2)).map fun e => quotedLength e.1 + e.2.serialize.length + 2).sum =
        fieldsLength fields := by
    intro fields
    induction fields with
    | nil => rfl
    | cons field rest ih =>
      simp only [List.map_cons, List.sum_cons, ih, fieldsLength, keysLength, valuesLength]
      omega
  rw [serialize, Value.serialize, List.length_cons, length_serializeMembers hmembers, (hperm.map _).sum_eq, hsum]
  omega

theorem sorted_object (fields : List (String × Value)) : OrdMap.Sorted (object fields) := by
  induction fields using List.reverseRecOn with
  | nil => exact OrdMap.sorted_nil
  | append_singleton fields field ih =>
    rw [object, List.foldl_append]
    exact OrdMap.sorted_put ih

/-- Fields may be assigned twice. -/
theorem length_serialize_object_le (fields : List (String × Value)) :
    (serialize (object fields)).length ≤ 2 + fieldsLength fields := by
  have hsum : ((object fields).map fun e => quotedLength e.1 + e.2.serialize.length + 2).sum ≤ fieldsLength fields := by
    induction fields using List.reverseRecOn with
    | nil => exact Nat.zero_le _
    | append_singleton fields field ih =>
      have hput := @OrdMap.sum_put _ _ _ (object fields) (lit field.1) field.2 _ _
        (fun e => quotedLength e.1 + e.2.serialize.length + 2) (sorted_object fields)
      have hfield : fieldsLength [field] = quotedLength (lit field.1) + field.2.serialize.length + 2 := by
        simp only [fieldsLength, keysLength, valuesLength, List.map_cons, List.map_nil, List.sum_cons, List.sum_nil]
        omega
      rw [fieldsLength_append, hfield, object, List.foldl_append]
      exact (Nat.le_of_add_right_le hput.le).trans (Nat.add_le_add_right ih _)
  rw [serialize, Value.serialize, List.length_cons]
  by_cases hnil : object fields = []
  · rw [hnil]
    exact Nat.le_add_right 2 _
  · rw [length_serializeMembers hnil]
    omega

/-- An object with fields that are always there, and others of which some are. -/
theorem length_serialize_optional {fields always optional : List (String × Value)} (n : Nat)
    (keys extra : List String) (hperm : fields.Perm (always ++ optional)) (halways : always.map Prod.fst = keys)
    (hoptional : (optional.map Prod.fst).Sublist extra) (hkeys : keys ≠ [] ∧ (keys ++ extra).Nodup ∧ keysLength keys = n) :
    (serialize (object fields)).length = 1 + n + valuesLength always + fieldsLength optional := by
  subst halways
  obtain ⟨hne, hnodup, rfl⟩ := hkeys
  have hfields : fields ≠ [] := by
    rintro rfl
    exact hne (by rw [(List.append_eq_nil_iff.mp hperm.nil_eq.symm).1]; rfl)
  have hdistinct : (fields.map Prod.fst).Nodup := by
    rw [(hperm.map _).nodup_iff, List.map_append]
    exact hnodup.sublist (hoptional.append_left _)
  have hsum : fieldsLength fields = fieldsLength (always ++ optional) := by
    simp only [fieldsLength, keysLength, valuesLength, ((hperm.map _).map _).sum_eq, (hperm.map _).sum_eq]
  rw [length_serialize_object_of_nodup hfields hdistinct, hsum, fieldsLength_append, fieldsLength]
  omega

theorem length_serialize_object {fields : List (String × Value)} (n : Nat) (keys : List String)
    (hfields : fields.map Prod.fst = keys) (hkeys : keys ≠ [] ∧ keys.Nodup ∧ keysLength keys = n) :
    (serialize (object fields)).length = 1 + n + valuesLength fields :=
  @length_serialize_optional fields fields [] n keys [] (by rw [List.append_nil]) hfields (.refl [])
    ⟨hkeys.1, by rw [List.append_nil]; exact hkeys.2.1, hkeys.2.2⟩

/-! ## Assigning to a parsed object -/

/-- What the field adds to the text of the object. -/
def memberLength (o : Object) (key : String) : Nat :=
  ((o.find? (lit key)).map fun v => quotedLength (lit key) + v.serialize.length + 2).getD 0

theorem memberLength_put (o : Object) {key key' : String} (hne : key' ≠ key) (v : Value) :
    memberLength (o.put (lit key) v) key' = memberLength o key' := by
  rw [memberLength, OrdMap.find?_put_of_ne fun heq => hne (lit_inj.mp heq), memberLength]

theorem put_ne_nil (o : Object) (key : String) (v : Value) : o.put (lit key) v ≠ [] := by
  intro hnil
  have hself : OrdMap.find? (o.put (lit key) v) (lit key) = some v := OrdMap.find?_put_self
  rw [hnil] at hself
  cases hself

/-- The new value stands in the text where the old one has been. -/
theorem length_serialize_put {o : Object} (h : OrdMap.Sorted o) (hne : o ≠ []) (key : String) (v : Value) :
    (serialize (o.put (lit key) v)).length + memberLength o key =
      (serialize o).length + (quotedLength (lit key) + v.serialize.length + 2) := by
  have hsum := @OrdMap.sum_put _ _ _ o (lit key) v _ _ (fun e => quotedLength e.1 + e.2.serialize.length + 2) h
  dsimp only at hsum
  simp only [serialize, Value.serialize, List.length_cons, length_serializeMembers (put_ne_nil o key v), length_serializeMembers hne,
    memberLength]
  omega

end LanChat.Json
