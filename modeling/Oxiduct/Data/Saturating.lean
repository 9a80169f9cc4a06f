import Mathlib.Tactic.Common
import Mathlib.Algebra.Order.Group.Nat

/-!
This module contains the saturating arithmetic of `u32` and `u64`. A `u64` clock value is a `Nat` of
at most `u64Max`; subtraction on those is the truncated subtraction of `Nat`.
-/

def u64Max : Nat := 2 ^ 64 - 1

def saturatingAdd (a b : Nat) : Nat := min (a + b) u64Max

def saturatingMul (a b : Nat) : Nat := min (a * b) u64Max

def UInt32.saturatingSub (a b : UInt32) : UInt32 := if b ≤ a then a - b else 0

theorem UInt32.toNat_saturatingSub (a b : UInt32)
    : (a.saturatingSub b).toNat = a.toNat - b.toNat := by
  unfold saturatingSub
  split
  . next h => exact UInt32.toNat_sub_of_le a b h
  . next h =>
    have := UInt32.le_iff_toNat_le.not.mp h
    rw [UInt32.toNat_zero]
    omega

theorem UInt32.toNat_add_one {a : UInt32} (h : a.toNat + 1 < 2 ^ 32)
    : (a + 1).toNat = a.toNat + 1 := by
  rw [UInt32.toNat_add]
  apply Nat.mod_eq_of_lt h

/--
A deadline that is saturated like the clock it is compared with has passed exactly when the exact
deadline has, as long as the clock is below its maximum.
-/
theorem saturatingAdd_sub_eq_zero_iff {last timeout now : Nat} (hnow : now < u64Max)
    : saturatingAdd last timeout - now = 0 ↔ last + timeout ≤ now := by
  unfold saturatingAdd
  omega

theorem saturatingAdd_saturatingMul_sub_eq_zero_iff {last secs now : Nat} (hnow : now < u64Max)
    : saturatingAdd last (saturatingMul secs 1000) - now = 0 ↔ last + 1000 * secs ≤ now := by
  rw [saturatingAdd_sub_eq_zero_iff hnow]
  unfold saturatingMul
  omega
