import Mathlib.Algebra.GroupWithZero.Nat
import Mathlib.Algebra.Ring.Int.Defs

/-!
# IEEE 754 doubles by their bits

A double is the 64-bit word that represents it: a sign bit above a 63-bit magnitude, which orders
the non-negative doubles as integers. The magnitudes above the one of infinity are the NaNs, which
programs may or may not tell apart.

* `lt` and `eq` are the comparisons of doubles, by way of an integer that orders them (`ordinal`).
* `canonical` and `Same` are doubles up to the payload of NaNs. The comparisons do not see it
  (`eq_canonical`).
* `ofFloat32` and `ofInt` are the conversions of singles and of integers that are exact.
-/

namespace Lib.Float64

variable (x : BitVec 64)

/-- The word without its sign bit. -/
def magnitude : ℕ := x.toNat % 2 ^ 63

/-- Not a number: all exponent bits are set, and some fraction bit. -/
def isNaN : Bool := 0x7ff0000000000000 < magnitude x

/-- An integer that orders the doubles that are numbers. Both zeros are `0`. -/
def ordinal : ℤ := if x.toNat < 2 ^ 63 then (magnitude x : ℤ) else -(magnitude x : ℤ)

/-- The comparison `<` of doubles, which is false when an operand is a NaN. -/
def lt (x y : BitVec 64) : Bool := !isNaN x && !isNaN y && ordinal x < ordinal y

/-- The comparison `==` of doubles, which is false when an operand is a NaN. -/
def eq (x y : BitVec 64) : Bool := !isNaN x && !isNaN y && ordinal x == ordinal y

/-- The word with the same NaN for all NaNs. -/
def canonical : BitVec 64 := if isNaN x then 0x7ff8000000000000 else x

/-- The same double, but for the payload of a NaN. -/
def Same (x y : BitVec 64) : Prop := canonical x = canonical y

/-- The double with the value of a single. -/
def ofFloat32 (x : BitVec 32) : BitVec 64 :=
  let sign := x.toNat / 2 ^ 31
  let exponent := x.toNat / 2 ^ 23 % 2 ^ 8
  let fraction := x.toNat % 2 ^ 23
  let bits :=
    if exponent = 0xff then 0x7ff * 2 ^ 52 + fraction * 2 ^ 29
    else if exponent ≠ 0 then (exponent + 896) * 2 ^ 52 + fraction * 2 ^ 29
    else if fraction = 0 then 0
    -- A subnormal single is a normal double.
    else
      let top := fraction.log2
      (top + 874) * 2 ^ 52 + (fraction - 2 ^ top) * 2 ^ (52 - top)
  BitVec.ofNat 64 (sign * 2 ^ 63 + bits)

/-- The double with the value of an integer of at most 53 bits. -/
def ofInt (n : ℤ) : BitVec 64 :=
  let sign := if n < 0 then 1 else 0
  let bits :=
    if n = 0 then 0
    else
      let top := n.natAbs.log2
      (top + 1023) * 2 ^ 52 + (n.natAbs - 2 ^ top) * 2 ^ (52 - top)
  BitVec.ofNat 64 (sign * 2 ^ 63 + bits)

/-- No double is less than itself. -/
lemma lt_irrefl : lt x x = false := by simp [lt]

/-- A number is its own canonical form. -/
lemma canonical_of_not_isNaN {x : BitVec 64} (h : isNaN x = false) : canonical x = x := by
  rw [canonical, h]
  rfl

/-- All NaNs have the same canonical form. -/
lemma canonical_of_isNaN {x : BitVec 64} (h : isNaN x = true) :
    canonical x = 0x7ff8000000000000 := by
  rw [canonical, if_pos h]

/-- The canonical form of a NaN is a NaN, and that of a number is none. -/
@[simp] lemma isNaN_canonical : isNaN (canonical x) = isNaN x := by
  cases h : isNaN x with
  | true =>
    rw [canonical_of_isNaN h]
    decide
  | false => rw [canonical_of_not_isNaN h, h]

/-- The canonical form is canonical. -/
@[simp] lemma canonical_canonical : canonical (canonical x) = canonical x := by
  cases h : isNaN x with
  | true =>
    rw [canonical_of_isNaN h]
    decide
  | false => rw [canonical_of_not_isNaN h, canonical_of_not_isNaN h]

/-- A NaN equals nothing. -/
lemma eq_of_isNaN_left {x : BitVec 64} (h : isNaN x = true) (y : BitVec 64) : eq x y = false := by
  rw [eq, h]
  rfl

/-- A number equals itself. -/
lemma eq_self {x : BitVec 64} (h : isNaN x = false) : eq x x = true := by simp [eq, h]

/-- The comparison `==` is symmetric. -/
lemma eq_comm (x y : BitVec 64) : eq x y = eq y x := by
  rw [eq, eq, Bool.and_comm (!isNaN x), Bool.beq_comm]

/-- The comparison `==` does not see the payload of NaNs. -/
@[simp] lemma eq_canonical (x y : BitVec 64) : eq (canonical x) (canonical y) = eq x y := by
  cases hx : isNaN x with
  | true => rw [eq_of_isNaN_left (by simpa using hx), eq_of_isNaN_left hx]
  | false =>
    cases hy : isNaN y with
    | true => rw [eq_comm, eq_comm x, eq_of_isNaN_left (by simpa using hy), eq_of_isNaN_left hy]
    | false => rw [canonical_of_not_isNaN hx, canonical_of_not_isNaN hy]

/-- Doubles with the same canonical form are equal, unless both are a NaN. -/
theorem eq_of_canonical_eq {x y : BitVec 64} (h : canonical x = canonical y)
    (hnan : ¬(isNaN x = true ∧ isNaN y = true)) : eq x y = true := by
  have hsame : isNaN x = isNaN y := by rw [← isNaN_canonical, h, isNaN_canonical]
  cases hx : isNaN x with
  | true => exact absurd ⟨hx, hsame ▸ hx⟩ hnan
  | false =>
    rw [canonical_of_not_isNaN hx, canonical_of_not_isNaN (hsame ▸ hx)] at h
    rw [← h]
    exact eq_self hx

end Lib.Float64
