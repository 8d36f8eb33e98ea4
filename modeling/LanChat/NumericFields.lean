import LanChat.Protocol

/-!
# How the fields of a request are read as numbers

A number of a request is an integer of 64 bits or a `double`. `intField` takes
both: of a `double` it reads the integer member, which nothing has set, and of
an integer it keeps the low 32 bits. The type of a request is read the same way,
so that other numbers than a type select it (`fields_exact_iff`).
-/

namespace LanChat

open Lib Json

/-- The integers that an `int` holds. -/
def InRange (n : Int64) : Prop := -2 ^ 31 ≤ n.toInt ∧ n.toInt < 2 ^ 31

instance (n : Int64) : Decidable (InRange n) := inferInstanceAs (Decidable (_ ∧ _))

/-- The field read exactly or not at all: an integer that fits, or the fallback. -/
def exactField (obj : Object) (key : String) (fallback : Int32) : Int :=
  match obj.find? (lit key) with
  | some (.int n) => if InRange n then n.toInt else fallback.toInt
  | _ => fallback.toInt

/-- The type of the request is the integer `t`. -/
def HasType (obj : Object) (t : MsgType) : Prop :=
  ∃ n, obj.find? (lit "type") = some (.int n) ∧ n.toInt = t.toInt.toInt

/-- A number that `intField` reads exactly, or turns into the fallback. -/
def ReadExactly (fallback : Int32) : Option Value → Prop
  | some (.float _) => fallback = 0
  | some (.int n) => InRange n ∨ n.toInt32 = fallback
  | _ => True

/-- A number that is an integer that fits, or that no type is read from. -/
def NoStrayType : Option Value → Prop
  | some (.float _) => False
  | some (.int n) => InRange n ∨ ¬(0 ≤ n.toInt32 ∧ n.toInt32 ≤ 50)
  | _ => True

theorem toInt_toInt32_iff (n : Int64) : n.toInt32.toInt = n.toInt ↔ InRange n := by
  constructor
  · intro h
    have hlow := n.toInt32.le_toInt
    have hhigh := n.toInt32.toInt_lt
    rw [h] at hlow hhigh
    exact ⟨hlow, hhigh⟩
  · rintro ⟨hlow, hhigh⟩
    rw [Int64.toInt_toInt32]
    exact Int.bmod_eq_of_le (Int.le_trans (by decide) hlow) (Int.lt_of_lt_of_le hhigh (by decide))

/-! ## One field -/

section Fields

variable {obj : Object} {key : String} {fallback : Int32} {n : Int64}

theorem intField_int (h : obj.find? (lit key) = some (.int n)) : intField obj key fallback = n.toInt32 := by
  rw [intField, h]
  rfl

theorem intField_float {d : Double} (h : obj.find? (lit key) = some (.float d)) : intField obj key fallback = 0 := by
  rw [intField, h]
  rfl

theorem intField_exact_iff (obj : Object) (key : String) (fallback : Int32) :
    (intField obj key fallback).toInt = exactField obj key fallback ↔
      ReadExactly fallback (obj.find? (lit key)) := by
  unfold exactField
  cases h : obj.find? (lit key) with
  | none => exact iff_of_true (by rw [intField, h]) trivial
  | some v =>
    cases v with
    | float d =>
      rw [intField_float h]
      show (0 : Int32).toInt = fallback.toInt ↔ fallback = 0
      rw [Int32.toInt_inj, eq_comm]
    | int n =>
      rw [intField_int h]
      show _ ↔ InRange n ∨ n.toInt32 = fallback
      dsimp only
      split
      · next hrange => exact iff_of_true ((toInt_toInt32_iff n).mpr hrange) (.inl hrange)
      · next hrange => rw [Int32.toInt_inj, or_iff_right hrange]
    | _ => exact iff_of_true (by rw [intField, h]; rfl) trivial

end Fields

/-! ## The type of a request -/

section Types

variable {obj : Object} {n : Int64} {v : Int32} {t : MsgType}

/-- Every value from 0 to 50 is a type. -/
theorem fromInt_isSome (hlow : 0 ≤ v) (hhigh : v ≤ 50) : ∃ t, MsgType.fromInt v = some t := by
  have htop : v.toInt ≤ 50 := Int32.le_iff_toInt_le.mp hhigh
  have hlength : v.toInt.toNat < MsgType.all.length := by
    show v.toInt.toNat < 51
    omega
  exact ⟨MsgType.all[v.toInt.toNat], by rw [MsgType.fromInt, if_pos ⟨hlow, hhigh⟩, List.getElem?_eq_getElem hlength]⟩

theorem fromInt_range (h : MsgType.fromInt v = some t) : 0 ≤ v ∧ v ≤ 50 := by
  unfold MsgType.fromInt at h
  split at h
  · assumption
  · cases h

/-- A type is read from its own value only. -/
theorem toInt_of_fromInt (h : MsgType.fromInt v = some t) : t.toInt = v := by
  obtain ⟨hlow, hhigh⟩ := fromInt_range h
  have hpos : 0 ≤ v.toInt := Int32.le_iff_toInt_le.mp hlow
  rw [MsgType.fromInt, if_pos ⟨hlow, hhigh⟩] at h
  obtain ⟨hlength, hget⟩ := List.getElem?_eq_some_iff.mp h
  have hidx : MsgType.all.idxOf t = v.toInt.toNat := by
    have hnodup : MsgType.all.Nodup := by decide
    rw [← hget, hnodup.idxOf_getElem]
  rw [MsgType.toInt, hidx, ← Int32.toInt_inj, Int32.toInt_ofNat_of_lt, Int.toNat_of_nonneg hpos]
  exact Nat.lt_trans hlength (by decide)

theorem typeField_exact_iff (obj : Object) :
    (∀ t, typeField obj = some t → HasType obj t) ↔ NoStrayType (obj.find? (lit "type")) := by
  unfold typeField
  constructor
  · intro h
    cases hfield : obj.find? (lit "type") with
    | none => trivial
    | some w =>
      cases w with
      | float d =>
        obtain ⟨n, hn, -⟩ := h .RegisterUser (by rw [intField_float hfield]; decide)
        rw [hfield] at hn
        cases hn
      | int n =>
        refine or_iff_not_imp_right.mpr fun hlow => ?_
        obtain ⟨hlow, hhigh⟩ := not_not.mp hlow
        obtain ⟨t, ht⟩ := fromInt_isSome hlow hhigh
        obtain ⟨m, hm, hvalue⟩ := h t (by rw [intField_int hfield, ht])
        rw [hfield] at hm
        cases hm
        rw [toInt_of_fromInt ht] at hvalue
        exact (toInt_toInt32_iff n).mp hvalue.symm
      | _ => trivial
  · intro h t ht
    cases hfield : obj.find? (lit "type") with
    | none =>
      rw [intField, hfield] at ht
      cases ht
    | some w =>
      rw [hfield] at h
      cases w with
      | float d => exact h.elim
      | int n =>
        rw [intField_int hfield] at ht
        have hrange := h.resolve_right (not_not.mpr (fromInt_range ht))
        exact ⟨n, hfield, by rw [toInt_of_fromInt ht, (toInt_toInt32_iff n).mpr hrange]⟩
      | _ =>
        rw [intField, hfield] at ht
        cases ht

/-- A half is read as the type of a registration. -/
example : (parseObject 20000 (lit "\x7b\"type\":0.5\x7d")).bind typeField = some .RegisterUser := by decide +kernel

end Types

/-- A field is read exactly or not at all if it is no `double`, or the fallback
is what is read of one, and no integer that is cut to something else than the
fallback; the type of a request is what was sent if it is no `double` and not
cut to a type. -/
theorem fields_exact_iff (obj : Object) (key : String) (fallback : Int32) :
    ((intField obj key fallback).toInt = exactField obj key fallback ↔
      ReadExactly fallback (obj.find? (lit key))) ∧
    ((∀ t, typeField obj = some t → HasType obj t) ↔ NoStrayType (obj.find? (lit "type"))) :=
  ⟨intField_exact_iff obj key fallback, typeField_exact_iff obj⟩

/-- A request whose type is `2 ^ 32 + 2` logs in. -/
theorem other_numbers_routed :
    ¬∀ s obj, parseObject 20000 s = some obj → (∀ key fallback,
      (intField obj key fallback).toInt = exactField obj key fallback) ∧
      ∀ t, typeField obj = some t → HasType obj t := by
  intro h
  have hlogin : (parseObject 20000 (lit "\x7b\"type\":4294967298\x7d")).any (fun obj =>
      typeField obj = some .Login && (obj.find? (lit "type")).map Value.asInt = some 4294967298) = true := by
    decide +kernel
  obtain ⟨obj, hobj, htype⟩ := (Option.any_eq_true _ _).mp hlogin
  simp only [Bool.and_eq_true, decide_eq_true_eq] at htype
  obtain ⟨n, hn, hvalue⟩ := (h _ obj hobj).2 .Login htype.1
  rw [hn] at htype
  cases htype.2
  exact absurd hvalue (by decide)

end LanChat
