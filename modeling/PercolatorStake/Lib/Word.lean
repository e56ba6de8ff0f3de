import Mathlib

/-!
# Checked and saturating 64-bit words

`UInt64` addition wraps.  The arithmetic of a ledger never may, so every
operation here either reports that it left the word range or stops at its
boundary.  Each has one lemma that turns it into an equation between naturals,
and no proof downstream unfolds the operations themselves.
-/

namespace Word

/-- `u64::checked_add`. -/
def checkedAdd (a b : UInt64) : Option UInt64 :=
  if a.toNat + b.toNat < 2 ^ 64 then some (a + b) else none

/-- `u64::checked_sub`. -/
def checkedSub (a b : UInt64) : Option UInt64 :=
  if b.toNat ≤ a.toNat then some (a - b) else none

/-- `u64::saturating_sub`. -/
def saturatingSub (a b : UInt64) : UInt64 :=
  if b.toNat ≤ a.toNat then a - b else 0

/-- `u64::saturating_add`. -/
def saturatingAdd (a b : UInt64) : UInt64 :=
  if a.toNat + b.toNat < 2 ^ 64 then a + b else UInt64.ofNat (2 ^ 64 - 1)

/-- `u64::min`. -/
def lesser (a b : UInt64) : UInt64 := if a.toNat ≤ b.toNat then a else b

/-- A wide natural narrowed to a word, or nothing when it does not fit. -/
def narrow (n : Nat) : Option UInt64 :=
  if n < 2 ^ 64 then some (UInt64.ofNat n) else none

theorem toNat_ofNat {n : Nat} (h : n < 2 ^ 64) : (UInt64.ofNat n).toNat = n := by
  rw [UInt64.toNat_ofNat', Nat.mod_eq_of_lt h]

theorem exists_toNat {n : Nat} (h : n < 2 ^ 64) : ∃ c : UInt64, c.toNat = n :=
  ⟨UInt64.ofNat n, toNat_ofNat h⟩

theorem checkedAdd_eq_some {a b c : UInt64} :
    checkedAdd a b = some c ↔ c.toNat = a.toNat + b.toNat := by
  have hc := c.toNat_lt
  unfold checkedAdd
  by_cases h : a.toNat + b.toNat < 2 ^ 64
  · rw [if_pos h, Option.some_inj, ← UInt64.toNat_inj, UInt64.toNat_add, Nat.mod_eq_of_lt h]
    exact eq_comm
  · rw [if_neg h]
    refine ⟨fun e => (Option.some_ne_none c e.symm).elim, fun e => ?_⟩
    omega

theorem checkedAdd_eq_none {a b : UInt64} :
    checkedAdd a b = none ↔ 2 ^ 64 ≤ a.toNat + b.toNat := by
  unfold checkedAdd
  by_cases h : a.toNat + b.toNat < 2 ^ 64
  · rw [if_pos h]
    exact ⟨fun e => (Option.some_ne_none _ e).elim, fun e => by omega⟩
  · rw [if_neg h]
    exact ⟨fun _ => by omega, fun _ => rfl⟩

theorem checkedSub_eq_some {a b c : UInt64} :
    checkedSub a b = some c ↔ a.toNat = c.toNat + b.toNat := by
  unfold checkedSub
  by_cases h : b.toNat ≤ a.toNat
  · rw [if_pos h, Option.some_inj, ← UInt64.toNat_inj,
      UInt64.toNat_sub_of_le _ _ (UInt64.le_iff_toNat_le.mpr h)]
    omega
  · rw [if_neg h]
    refine ⟨fun e => (Option.some_ne_none c e.symm).elim, fun e => ?_⟩
    omega

theorem checkedSub_eq_none {a b : UInt64} :
    checkedSub a b = none ↔ a.toNat < b.toNat := by
  unfold checkedSub
  by_cases h : b.toNat ≤ a.toNat
  · rw [if_pos h]
    exact ⟨fun e => (Option.some_ne_none _ e).elim, fun e => by omega⟩
  · rw [if_neg h]
    exact ⟨fun _ => by omega, fun _ => rfl⟩

theorem narrow_eq_some {n : Nat} {c : UInt64} : narrow n = some c ↔ c.toNat = n := by
  have hc := c.toNat_lt
  unfold narrow
  by_cases h : n < 2 ^ 64
  · rw [if_pos h, Option.some_inj, ← UInt64.toNat_inj, toNat_ofNat h]
    exact eq_comm
  · rw [if_neg h]
    refine ⟨fun e => (Option.some_ne_none c e.symm).elim, fun e => ?_⟩
    omega

@[simp] theorem toNat_saturatingSub (a b : UInt64) :
    (saturatingSub a b).toNat = a.toNat - b.toNat := by
  unfold saturatingSub
  by_cases h : b.toNat ≤ a.toNat
  · rw [if_pos h, UInt64.toNat_sub_of_le _ _ (UInt64.le_iff_toNat_le.mpr h)]
  · rw [if_neg h, Nat.sub_eq_zero_of_le (by omega)]
    rfl

theorem toNat_saturatingAdd (a b : UInt64) :
    (saturatingAdd a b).toNat = min (a.toNat + b.toNat) (2 ^ 64 - 1) := by
  unfold saturatingAdd
  by_cases h : a.toNat + b.toNat < 2 ^ 64
  · rw [if_pos h, UInt64.toNat_add, Nat.mod_eq_of_lt h]
    omega
  · rw [if_neg h, toNat_ofNat (by omega)]
    omega

theorem toNat_lesser (a b : UInt64) : (lesser a b).toNat = min a.toNat b.toNat := by
  unfold lesser
  by_cases h : a.toNat ≤ b.toNat
  · rw [if_pos h, Nat.min_eq_left h]
  · rw [if_neg h, Nat.min_eq_right (by omega)]

theorem pos_iff {a : UInt64} : 0 < a ↔ 0 < a.toNat := UInt64.lt_iff_toNat_lt

theorem eq_zero_iff {a : UInt64} : a = 0 ↔ a.toNat = 0 := by
  rw [← UInt64.toNat_inj]
  rfl

/-! ## Words of 128 bits

The wide intermediate type.  Its plain operators wrap as the machine's do, and
the checked ones report. -/

abbrev U128 := BitVec 128

/-- `a as u128`. -/
def widen (a : UInt64) : U128 := BitVec.ofNat 128 a.toNat

/-- `u128::checked_add`. -/
def wideAdd (a b : U128) : Option U128 :=
  if a.toNat + b.toNat < 2 ^ 128 then some (a + b) else none

/-- `u128::checked_mul`. -/
def wideMul (a b : U128) : Option U128 :=
  if a.toNat * b.toNat < 2 ^ 128 then some (a * b) else none

/-- `u128::checked_div`. -/
def wideDiv (a b : U128) : Option U128 :=
  if b.toNat = 0 then none else some (a / b)

/-- `u128::saturating_add`. -/
def wideSaturatingAdd (a b : U128) : U128 :=
  if a.toNat + b.toNat < 2 ^ 128 then a + b else BitVec.allOnes 128

/-- `u128::min`. -/
def wideLesser (a b : U128) : U128 := if a.toNat ≤ b.toNat then a else b

/-- `u128::overflowing_add`, the carry as a wide word. -/
def overflowingAdd (a b : U128) : U128 × U128 :=
  (a + b, if a.toNat + b.toNat < 2 ^ 128 then 0 else 1)

@[simp] theorem toNat_widen (a : UInt64) : (widen a).toNat = a.toNat := by
  have := a.toNat_lt
  rw [widen, BitVec.toNat_ofNat, Nat.mod_eq_of_lt (by omega)]

theorem wideAdd_eq {a b : U128} (h : a.toNat + b.toNat < 2 ^ 128) :
    ∃ c, wideAdd a b = some c ∧ c.toNat = a.toNat + b.toNat :=
  ⟨a + b, if_pos h, by rw [BitVec.toNat_add, Nat.mod_eq_of_lt h]⟩

theorem wideMul_eq {a b : U128} (h : a.toNat * b.toNat < 2 ^ 128) :
    ∃ c, wideMul a b = some c ∧ c.toNat = a.toNat * b.toNat :=
  ⟨a * b, if_pos h, by rw [BitVec.toNat_mul, Nat.mod_eq_of_lt h]⟩

theorem wideDiv_eq {a b : U128} (h : b.toNat ≠ 0) :
    ∃ c, wideDiv a b = some c ∧ c.toNat = a.toNat / b.toNat :=
  ⟨a / b, if_neg h, BitVec.toNat_udiv ..⟩

/-- The low word and the carry of `overflowingAdd` together are the exact sum. -/
theorem overflowingAdd_spec (a b : U128) :
    (overflowingAdd a b).1.toNat + (overflowingAdd a b).2.toNat * 2 ^ 128 =
      a.toNat + b.toNat := by
  have ha := a.isLt
  have hb := b.isLt
  unfold overflowingAdd
  by_cases h : a.toNat + b.toNat < 2 ^ 128
  · rw [if_pos h, BitVec.toNat_add, Nat.mod_eq_of_lt h]
    simp
  · have h1 : (1 : U128).toNat = 1 := rfl
    rw [if_neg h, BitVec.toNat_add, h1]
    omega

end Word
