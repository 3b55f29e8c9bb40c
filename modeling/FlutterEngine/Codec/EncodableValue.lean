import FlutterEngine.Lib.Float64
import FlutterEngine.Lib.Value

/-!
# Encodable values

`flutter/encodable_value.h`: the values that the C++ client wrapper sends over a channel. An
`EncodableMap` is a `std::map`, hence the list of its entries in the order of `operator<` on the
keys. That order compares scalars and strings by value and collections by the address of the
`EncodableValue` object, so `less` compares objects, each an address with a value.
-/

namespace Flutter

open Lib

/-- The `EncodableValue`s that are neither lists nor maps. A double is given by its bits, a
`std::string` by its bytes. -/
inductive EncodableLeaf
  | null
  | bool (b : Bool)
  | int (v : BitVec 32)
  | long (v : BitVec 64)
  | double (v : BitVec 64)
  | string (v : List UInt8)
  | byteList (v : List (BitVec 8))
  | intList (v : List (BitVec 32))
  | longList (v : List (BitVec 64))
  | doubleList (v : List (BitVec 64))
deriving DecidableEq, Repr

/-- `flutter::EncodableValue` -/
abbrev EncodableValue := Value EncodableLeaf

/-- `EncodableValue::Type` -/
inductive EncodableType
  | kNull
  | kBool
  | kInt
  | kLong
  | kDouble
  | kString
  | kByteList
  | kIntList
  | kLongList
  | kDoubleList
  | kList
  | kMap
deriving DecidableEq, Repr

namespace EncodableValue

/-- `EncodableValue::type` -/
def type : EncodableValue → EncodableType
  | .leaf .null => .kNull
  | .leaf (.bool _) => .kBool
  | .leaf (.int _) => .kInt
  | .leaf (.long _) => .kLong
  | .leaf (.double _) => .kDouble
  | .leaf (.string _) => .kString
  | .leaf (.byteList _) => .kByteList
  | .leaf (.intList _) => .kIntList
  | .leaf (.longList _) => .kLongList
  | .leaf (.doubleList _) => .kDoubleList
  | .list _ => .kList
  | .map _ => .kMap

/-- `EncodableValue::operator<` on two objects, each given by its address and its value. -/
def less (a b : ℕ × EncodableValue) : Bool :=
  if type a.2 ≠ type b.2 then (type a.2).ctorIdx < (type b.2).ctorIdx
  else
    match a.2, b.2 with
    | .leaf .null, .leaf .null => false
    | .leaf (.bool x), .leaf (.bool y) => !x && y
    | .leaf (.int x), .leaf (.int y) => x.slt y
    | .leaf (.long x), .leaf (.long y) => x.slt y
    | .leaf (.double x), .leaf (.double y) => Float64.lt x y
    | .leaf (.string x), .leaf (.string y) => x < y
    | _, _ => a.1 < b.1

/-- A scalar or a string, and not a NaN: a key that the order compares by value. -/
def IsScalarKey : EncodableValue → Prop
  | .leaf .null | .leaf (.bool _) | .leaf (.int _) | .leaf (.long _) | .leaf (.string _) => True
  | .leaf (.double v) => Float64.isNaN v = false
  | _ => False

instance : DecidablePred IsScalarKey
  | .leaf .null | .leaf (.bool _) | .leaf (.int _) | .leaf (.long _) | .leaf (.string _) =>
    inferInstanceAs (Decidable True)
  | .leaf (.double v) => inferInstanceAs (Decidable (Float64.isNaN v = false))
  | .leaf (.byteList _) | .leaf (.intList _) | .leaf (.longList _) | .leaf (.doubleList _)
  | .list _ | .map _ => inferInstanceAs (Decidable False)

/-- Addresses do not matter for the order of two scalars or strings. -/
theorem less_address {k k' : EncodableValue} (hk : IsScalarKey k) (i j i' j' : ℕ) :
    less (i, k) (j, k') = less (i', k) (j', k') := by
  cases k with
  | list | map => exact hk.elim
  | leaf l =>
    cases k' with
    | list | map => cases l <;> rfl
    | leaf l' => cases l <;> first | exact hk.elim | (cases l' <;> rfl)

lemma less_irrefl {k : EncodableValue} (hk : IsScalarKey k) (i j : ℕ) :
    less (i, k) (j, k) = false := by
  cases k with
  | list | map => exact hk.elim
  | leaf l =>
    cases l with
    | double v => exact (if_neg (not_not.mpr rfl)).trans (Float64.lt_irrefl v)
    | byteList | intList | longList | doubleList => exact hk.elim
    | _ => simp [less, BitVec.slt]

/-- Nothing comes before null. -/
theorem less_null (a : ℕ × EncodableValue) (i : ℕ) : less a (i, .leaf .null) = false := by
  obtain ⟨j, k⟩ := a
  cases k with
  | list | map => rfl
  | leaf l => cases l <;> rfl

/-- The entries of an `EncodableMap` with scalar or string keys: each key once, in order. -/
def IsKeyed (m : List (EncodableValue × EncodableValue)) : Prop :=
  (∀ e ∈ m, IsScalarKey e.1) ∧ m.Pairwise fun e e' => less (0, e.1) (0, e'.1) = true

instance : DecidablePred IsKeyed := fun m =>
  inferInstanceAs (Decidable ((∀ e ∈ m, IsScalarKey e.1) ∧ m.Pairwise _))

/-- How many elements a string, a typed list, a list or a map has; `0` for the other values. -/
def size : EncodableValue → ℕ
  | .leaf (.string v) => v.length
  | .leaf (.byteList v) => v.length
  | .leaf (.intList v) => v.length
  | .leaf (.longList v) => v.length
  | .leaf (.doubleList v) => v.length
  | .list l => l.length
  | .map m => m.length
  | _ => 0

end EncodableValue

end Flutter
