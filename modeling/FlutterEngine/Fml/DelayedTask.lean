import FlutterEngine.Lib.PriorityQueue
import Mathlib.Algebra.GroupWithZero.Nat
import Mathlib.Algebra.Ring.Int.Defs

/-!
# Delayed tasks

`fml/delayed_task.h`: a closure with a target time and the number its registration drew, and
the priority queue that hands out the task with the smallest target time first. Ties are broken
by the registration number.

The number comes from `std::atomic_int order_` and is stored as a `size_t`, so past `2 ^ 31`
registrations it is the sign extension of a negative counter. `registrationOrder_strictMono`
shows that it keeps growing up to the `2 ^ 32`-th registration.
-/

namespace Fml

open Lib BitVec

/-- `TimePoint::Max()`. A `fml::TimePoint` is a signed number of nanoseconds and is only ever
compared here. -/
def TimePoint.max : ℤ := 2 ^ 63 - 1

/-- `fml::DelayedTask`, for closures `α`. -/
@[ext]
structure DelayedTask (α : Type*) where
  /-- `order_`, a `size_t`. -/
  order : BitVec 64
  /-- `task_` -/
  task : α
  /-- `target_time_`, in nanoseconds. -/
  targetTime : ℤ
deriving DecidableEq, Repr

namespace DelayedTask

variable {α : Type*}

/-- `operator>` -/
def gt (a b : DelayedTask α) : Bool :=
  if a.targetTime = b.targetTime then b.order < a.order else b.targetTime < a.targetTime

/-- `a` is not after `b` in the order of `operator>`. -/
def le (a b : DelayedTask α) : Prop := a.gt b = false

instance : DecidableRel (le (α := α)) := fun a b => inferInstanceAs (Decidable (a.gt b = false))

lemma le_iff {a b : DelayedTask α} : a.le b ↔ a.targetTime < b.targetTime ∨
      a.targetTime = b.targetTime ∧ a.order.toNat ≤ b.order.toNat := by
  unfold le gt
  split
  · rename_i htime
    simp [htime, lt_def]
  · rename_i htime
    simp only [htime, false_and, or_false, decide_eq_false_iff_not]
    omega

lemma targetTime_le_of_le {a b : DelayedTask α} (h : a.le b) : a.targetTime ≤ b.targetTime := by
  rw [le_iff] at h
  omega

instance : Std.Total (le (α := α)) where
  total a b := by
    rw [le_iff, le_iff]
    omega

instance : IsTrans (DelayedTask α) le where
  trans a b c hab hbc := by
    rw [le_iff] at *
    omega

end DelayedTask

/-- `fml::DelayedTaskQueue`: `std::priority_queue` ordered by `std::greater`. -/
abbrev DelayedTaskQueue (α : Type*) := PriorityQueue (DelayedTask.le (α := α))

/-- The `size_t` stored for the `n`-th registration, counted from zero: `order_++` wraps at 32
bits and the result is sign-extended. -/
def registrationOrder (n : ℕ) : BitVec 64 := (BitVec.ofNat 32 n).signExtend 64

lemma toNat_registrationOrder {n : ℕ} (hn : n < 2 ^ 32) :
    (registrationOrder n).toNat = if n < 2 ^ 31 then n else 2 ^ 64 - 2 ^ 32 + n := by
  have hmsb : (BitVec.ofNat 32 n).msb = decide (2 ^ 31 ≤ n) := by
    rw [msb_eq_decide, toNat_ofNat, Nat.mod_eq_of_lt hn]
  rw [registrationOrder, toNat_signExtend, toNat_setWidth, toNat_ofNat, hmsb]
  by_cases h : n < 2 ^ 31
  · simp only [show ¬ 2 ^ 31 ≤ n by omega, decide_false, Bool.false_eq_true, if_false, h, if_true]
    omega
  · simp only [show 2 ^ 31 ≤ n by omega, decide_true, if_true, h, if_false]
    omega

/-- Registration numbers grow with every registration up to the `2 ^ 32`-th. -/
theorem registrationOrder_strictMono {m n : ℕ} (hmn : m < n) (hn : n < 2 ^ 32) :
    (registrationOrder m).toNat < (registrationOrder n).toNat := by
  rw [toNat_registrationOrder hn, toNat_registrationOrder (hmn.trans hn)]
  split <;> split <;> omega

end Fml
