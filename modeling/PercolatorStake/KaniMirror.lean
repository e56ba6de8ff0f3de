import PercolatorStake.Insurance

/-!
# The ledger mirrors of the proof harnesses

The harnesses do not run the pool but a copy of its valuation in 32 bits.  The copy sums
a ledger from left to right and checks each step, where the pool sums it in one signed
word.  The two part exactly on the ledgers whose withdrawals and flushes together exceed
the deposits while what was returned makes up for it.
-/

namespace Word

/-- `u32::checked_add`. -/
def checkedAdd32 (a b : UInt32) : Option UInt32 :=
  if a.toNat + b.toNat < 2 ^ 32 then some (a + b) else none

/-- `u32::checked_sub`. -/
def checkedSub32 (a b : UInt32) : Option UInt32 :=
  if b.toNat ≤ a.toNat then some (a - b) else none

/-- `u32::saturating_sub`. -/
def saturatingSub32 (a b : UInt32) : UInt32 :=
  if b.toNat ≤ a.toNat then a - b else 0

theorem checkedAdd32_eq_some {a b c : UInt32} :
    checkedAdd32 a b = some c ↔ c.toNat = a.toNat + b.toNat := by
  have hc := c.toNat_lt
  unfold checkedAdd32
  by_cases h : a.toNat + b.toNat < 2 ^ 32
  · rw [if_pos h, Option.some_inj, ← UInt32.toNat_inj, UInt32.toNat_add, Nat.mod_eq_of_lt h]
    exact eq_comm
  · rw [if_neg h]
    refine ⟨fun e => (Option.some_ne_none c e.symm).elim, fun e => ?_⟩
    omega

theorem checkedSub32_eq_some {a b c : UInt32} :
    checkedSub32 a b = some c ↔ a.toNat = c.toNat + b.toNat := by
  unfold checkedSub32
  by_cases h : b.toNat ≤ a.toNat
  · rw [if_pos h, Option.some_inj, ← UInt32.toNat_inj,
      UInt32.toNat_sub_of_le _ _ (UInt32.le_iff_toNat_le.mpr h)]
    omega
  · rw [if_neg h]
    refine ⟨fun e => (Option.some_ne_none c e.symm).elim, fun e => ?_⟩
    omega

theorem toNat_saturatingSub32 (a b : UInt32) :
    (saturatingSub32 a b).toNat = a.toNat - b.toNat := by
  unfold saturatingSub32
  by_cases h : b.toNat ≤ a.toNat
  · rw [if_pos h, UInt32.toNat_sub_of_le _ _ (UInt32.le_iff_toNat_le.mpr h)]
  · rw [if_neg h, Nat.sub_eq_zero_of_le (by omega)]
    rfl

end Word

namespace PercolatorStake

open Word

namespace Kani

/-- The junior tranche absorbs a loss first, in 64 bits. -/
def distributeLoss (juniorBalance seniorBalance loss : UInt32) : UInt32 × UInt32 :=
  let total := saturatingAdd juniorBalance.toUInt64 seniorBalance.toUInt64
  let capped := lesser loss.toUInt64 total
  if capped ≤ juniorBalance.toUInt64 then (capped.toUInt32, 0)
  else
    let seniorLoss := capped - juniorBalance.toUInt64
    (juniorBalance, seniorLoss.toUInt32)

def totalPoolValueMode0 (deposited withdrawn flushed returned : UInt32) : Option UInt32 := do
  let value ← checkedSub32 deposited withdrawn
  let value ← checkedSub32 value flushed
  checkedAdd32 value returned

def effectiveJuniorBalance (deposited withdrawn flushed returned juniorBalance : UInt32) :
    UInt32 :=
  let jb := juniorBalance
  let netLoss := saturatingSub32 flushed returned
  if netLoss = 0 then jb
  else
    let grossPool := saturatingSub32 deposited withdrawn
    let grossSenior := saturatingSub32 grossPool jb
    saturatingSub32 jb (distributeLoss jb grossSenior netLoss).1

def seniorBalance (deposited withdrawn flushed returned juniorBalance : UInt32) :
    Option UInt32 := do
  let value ← totalPoolValueMode0 deposited withdrawn flushed returned
  checkedSub32 value (effectiveJuniorBalance deposited withdrawn flushed returned juniorBalance)

section

variable {p : StakePool} {deposited withdrawn flushed returned juniorBalance : UInt32}

/-! ## The mirror over naturals -/

theorem distributeLoss_junior (j s l : UInt32) :
    (distributeLoss j s l).1.toNat = min l.toNat j.toNat := by
  have hj := j.toNat_lt
  have hl := l.toNat_lt
  have ht := toNat_saturatingAdd j.toUInt64 s.toUInt64
  have hc := toNat_lesser l.toUInt64 (saturatingAdd j.toUInt64 s.toUInt64)
  rw [UInt32.toNat_toUInt64, UInt32.toNat_toUInt64] at ht
  rw [UInt32.toNat_toUInt64] at hc
  unfold distributeLoss
  by_cases h : lesser l.toUInt64 (saturatingAdd j.toUInt64 s.toUInt64) ≤ j.toUInt64
  · rw [if_pos h]
    rw [UInt64.le_iff_toNat_le, UInt32.toNat_toUInt64] at h
    show (lesser l.toUInt64 (saturatingAdd j.toUInt64 s.toUInt64)).toUInt32.toNat = _
    rw [UInt64.toNat_toUInt32, Nat.mod_eq_of_lt (by omega)]
    omega
  · rw [if_neg h]
    rw [UInt64.le_iff_toNat_le, UInt32.toNat_toUInt64] at h
    show j.toNat = _
    omega

theorem totalPoolValueMode0_eq_some {v : UInt32} :
    totalPoolValueMode0 deposited withdrawn flushed returned = some v ↔
      withdrawn.toNat + flushed.toNat ≤ deposited.toNat ∧
      v.toNat = deposited.toNat - (withdrawn.toNat + flushed.toNat) + returned.toNat := by
  unfold totalPoolValueMode0
  simp only [Option.bind_eq_bind, Option.bind_eq_some_iff, checkedSub32_eq_some,
    checkedAdd32_eq_some]
  constructor
  · intro ⟨x, hx, y, hy, hv⟩
    omega
  · intro ⟨hle, hv⟩
    have hd := deposited.toNat_lt
    have hnat : ∀ n < 2 ^ 32, (UInt32.ofNat n).toNat = n := by
      intro n hn
      rw [UInt32.toNat_ofNat', Nat.mod_eq_of_lt hn]
    refine ⟨UInt32.ofNat (deposited.toNat - withdrawn.toNat), ?_,
      UInt32.ofNat (deposited.toNat - withdrawn.toNat - flushed.toNat), ?_, ?_⟩
    · rw [hnat _ (by omega)]
      omega
    · rw [hnat _ (by omega), hnat _ (by omega)]
      omega
    · rw [hnat _ (by omega), hv]
      omega

theorem toNat_effectiveJuniorBalance :
    (effectiveJuniorBalance deposited withdrawn flushed returned juniorBalance).toNat =
      juniorBalance.toNat - (flushed.toNat - returned.toNat) := by
  unfold effectiveJuniorBalance
  simp only
  by_cases h : saturatingSub32 flushed returned = 0
  · rw [if_pos h]
    have hz := toNat_saturatingSub32 flushed returned
    rw [h] at hz
    change 0 = _ at hz
    omega
  · rw [if_neg h, toNat_saturatingSub32, distributeLoss_junior, toNat_saturatingSub32]
    omega

/-! ## The pool beside it -/

/-- A pool with the counters of a ledger in 32 bits, without fees and without forfeited
loss, whose value is in 32 bits too. -/
structure Mirrors (p : StakePool) (deposited withdrawn flushed returned juniorBalance : UInt32) :
    Prop where
  deposited_eq : p.totalDeposited = deposited.toUInt64
  withdrawn_eq : p.totalWithdrawn = withdrawn.toUInt64
  flushed_eq : p.totalFlushed = flushed.toUInt64
  returned_eq : p.totalReturned = returned.toUInt64
  junior_eq : p.juniorBalance = juniorBalance.toUInt64
  no_fees : p.totalFeesEarned = 0
  no_realized : p.realizedJuniorLoss = 0
  value_fits : ∀ v, p.totalPoolValue = some v → v.toNat < 2 ^ 32

/-- The three functions of the harnesses return what the pool's return. -/
structure Agrees (p : StakePool) (deposited withdrawn flushed returned juniorBalance : UInt32) :
    Prop where
  value : p.totalPoolValue =
    (totalPoolValueMode0 deposited withdrawn flushed returned).map UInt32.toUInt64
  effective_junior : p.effectiveJuniorBalance =
    (effectiveJuniorBalance deposited withdrawn flushed returned juniorBalance).toUInt64
  senior : p.seniorBalance =
    (seniorBalance deposited withdrawn flushed returned juniorBalance).map UInt32.toUInt64

theorem Mirrors.value_eq (h : Mirrors p deposited withdrawn flushed returned juniorBalance) :
    p.book.value = (deposited.toNat : Int) - withdrawn.toNat - flushed.toNat + returned.toNat := by
  show (p.totalDeposited.toNat : Int) - p.totalWithdrawn.toNat - p.totalFlushed.toNat +
    p.totalReturned.toNat + p.totalFeesEarned.toNat - p.realizedJuniorLoss.toNat = _
  rw [h.deposited_eq, h.withdrawn_eq, h.flushed_eq, h.returned_eq, h.no_fees, h.no_realized,
    UInt32.toNat_toUInt64, UInt32.toNat_toUInt64, UInt32.toNat_toUInt64, UInt32.toNat_toUInt64]
  show _ + ((0 : Nat) : Int) - ((0 : Nat) : Int) = _
  omega

/-- The junior side agrees on every ledger. -/
theorem Mirrors.effective_junior
    (h : Mirrors p deposited withdrawn flushed returned juniorBalance) :
    p.effectiveJuniorBalance =
      (effectiveJuniorBalance deposited withdrawn flushed returned juniorBalance).toUInt64 := by
  rw [← UInt64.toNat_inj, UInt32.toNat_toUInt64, toNat_effectiveJuniorBalance,
    StakePool.toNat_effectiveJuniorBalance]
  show p.juniorBalance.toNat - (p.totalFlushed.toNat - p.totalReturned.toNat) = _
  rw [h.junior_eq, h.flushed_eq, h.returned_eq, UInt32.toNat_toUInt64, UInt32.toNat_toUInt64,
    UInt32.toNat_toUInt64]

/-- A value in range on both sides is the same, and below zero there is none. -/
theorem Mirrors.value_agrees (h : Mirrors p deposited withdrawn flushed returned juniorBalance)
    (hsum : withdrawn.toNat + flushed.toNat ≤ deposited.toNat ∨
      deposited.toNat + returned.toNat < withdrawn.toNat + flushed.toNat) :
    p.totalPoolValue =
      (totalPoolValueMode0 deposited withdrawn flushed returned).map UInt32.toUInt64 := by
  have hvalue := h.value_eq
  have hd := deposited.toNat_lt
  have hr := returned.toNat_lt
  by_cases hle : withdrawn.toNat + flushed.toNat ≤ deposited.toNat
  · obtain ⟨v, hv, hvn⟩ := StakePool.totalPoolValue_isSome (p := p) (by omega) (by omega)
    have hfits := h.value_fits v hv
    have hmirror : totalPoolValueMode0 deposited withdrawn flushed returned = some v.toUInt32 := by
      rw [totalPoolValueMode0_eq_some, UInt64.toNat_toUInt32, Nat.mod_eq_of_lt hfits]
      omega
    rw [hv, hmirror, Option.map_some, Option.some_inj, ← UInt64.toNat_inj, UInt32.toNat_toUInt64,
      UInt64.toNat_toUInt32, Nat.mod_eq_of_lt hfits]
  · have hpool : p.totalPoolValue = none := by
      cases hv : p.totalPoolValue with
      | none => rfl
      | some v =>
        rw [StakePool.totalPoolValue_eq_some] at hv
        omega
    have hmirror : totalPoolValueMode0 deposited withdrawn flushed returned = none := by
      cases hv : totalPoolValueMode0 deposited withdrawn flushed returned with
      | none => rfl
      | some v => exact absurd (totalPoolValueMode0_eq_some.mp hv).1 hle
    rw [hpool, hmirror]
    rfl

theorem checkedSub_toUInt64 (a b : UInt32) :
    checkedSub a.toUInt64 b.toUInt64 = (checkedSub32 a b).map UInt32.toUInt64 := by
  cases h : checkedSub32 a b with
  | some c =>
    rw [checkedSub32_eq_some] at h
    rw [Option.map_some, checkedSub_eq_some, UInt32.toNat_toUInt64, UInt32.toNat_toUInt64,
      UInt32.toNat_toUInt64, h]
  | none =>
    rw [Option.map_none, checkedSub_eq_none, UInt32.toNat_toUInt64, UInt32.toNat_toUInt64]
    by_contra hle
    rw [checkedSub32, if_pos (by omega)] at h
    cases h

/-- The senior side agrees as far as the value does. -/
theorem Mirrors.senior_agrees (h : Mirrors p deposited withdrawn flushed returned juniorBalance)
    (hvalue : p.totalPoolValue =
      (totalPoolValueMode0 deposited withdrawn flushed returned).map UInt32.toUInt64) :
    p.seniorBalance =
      (seniorBalance deposited withdrawn flushed returned juniorBalance).map UInt32.toUInt64 := by
  unfold StakePool.seniorBalance seniorBalance
  rw [hvalue, h.effective_junior]
  cases totalPoolValueMode0 deposited withdrawn flushed returned with
  | none => rfl
  | some v => exact checkedSub_toUInt64 v _

/-- The mirror agrees with the pool on a ledger exactly when the deposits cover the
withdrawals and the flushes, or not even together with the returns. -/
theorem mirror_agrees (h : Mirrors p deposited withdrawn flushed returned juniorBalance) :
    Agrees p deposited withdrawn flushed returned juniorBalance ↔
      withdrawn.toNat + flushed.toNat ≤ deposited.toNat ∨
        deposited.toNat + returned.toNat < withdrawn.toNat + flushed.toNat := by
  constructor
  · intro hagrees
    by_contra hnot
    rw [not_or, Nat.not_le, Nat.not_lt] at hnot
    have hvalue := h.value_eq
    have hd := deposited.toNat_lt
    have hr := returned.toNat_lt
    obtain ⟨v, hv, -⟩ := StakePool.totalPoolValue_isSome (p := p) (by omega) (by omega)
    have hsame := hagrees.value
    rw [hv] at hsame
    obtain ⟨v', hv', -⟩ := Option.map_eq_some_iff.mp hsame.symm
    have hle := (totalPoolValueMode0_eq_some.mp hv').1
    omega
  · intro hsum
    have hvalue := h.value_agrees hsum
    exact ⟨hvalue, h.effective_junior, h.senior_agrees hvalue⟩

end

end Kani

namespace Sample

/-- A flush that comes back and is flushed again. -/
def refilled : List Action := [deposit alice 100000, flush 60000, giveBack 60000, flush 60000]

theorem refilled_state :
    ((after refilled).pool Sample.ctx.programId pool).map (fun p =>
      ((p.totalDeposited, p.totalWithdrawn, p.totalFlushed, p.totalReturned, p.juniorBalance),
        p.totalFeesEarned, p.realizedJuniorLoss, p.totalPoolValue)) =
      some ((100000, 0, 120000, 60000, 0), 0, 0, some 40000) := by
  decide +kernel

/-- The pool is then worth 40000, and in the mirror it has no value. -/
theorem mirror_parts_refilled :
    Sample.ctx.Reached pool (refilled.map Action.event) (after refilled) ∧
    ∃ p, (after refilled).pool Sample.ctx.programId pool = some p ∧
      Kani.Mirrors p 100000 0 120000 60000 0 ∧
      p.totalPoolValue = some 40000 ∧
      Kani.totalPoolValueMode0 100000 0 120000 60000 = none ∧
      ¬ Kani.Agrees p 100000 0 120000 60000 0 := by
  obtain ⟨p, hp, hstate⟩ := Option.map_eq_some_iff.mp refilled_state
  simp only [Prod.mk.injEq] at hstate
  obtain ⟨⟨hd, hw, hf, hr, hj⟩, hfees, hrealized, hv⟩ := hstate
  have hnone : Kani.totalPoolValueMode0 100000 0 120000 60000 = none := by decide +kernel
  refine ⟨after_reached (run_of_pool refilled_state), p, hp,
    ⟨hd, hw, hf, hr, hj, hfees, hrealized, ?_⟩, hv, hnone, ?_⟩
  · intro v hv'
    obtain rfl : 40000 = v := Option.some_inj.mp (hv.symm.trans hv')
    decide
  · intro h
    have hvalue := h.value
    rw [hv, hnone] at hvalue
    cases hvalue

/-- After the first flush the mirror still agrees. -/
theorem mirror_agrees_flushed :
    ∃ p, (after (refilled.take 2)).pool Sample.ctx.programId pool = some p ∧
      Kani.Agrees p 100000 0 60000 0 0 := by
  have hstate : ((after (refilled.take 2)).pool Sample.ctx.programId pool).map (fun p =>
      ((p.totalDeposited, p.totalWithdrawn, p.totalFlushed, p.totalReturned, p.juniorBalance),
        p.totalFeesEarned, p.realizedJuniorLoss, p.totalPoolValue)) =
      some ((100000, 0, 60000, 0, 0), 0, 0, some 40000) := by
    decide +kernel
  obtain ⟨p, hp, hstate⟩ := Option.map_eq_some_iff.mp hstate
  simp only [Prod.mk.injEq] at hstate
  obtain ⟨⟨hd, hw, hf, hr, hj⟩, hfees, hrealized, hv⟩ := hstate
  have hmirrors : Kani.Mirrors p 100000 0 60000 0 0 := by
    refine ⟨hd, hw, hf, hr, hj, hfees, hrealized, ?_⟩
    intro v hv'
    obtain rfl : 40000 = v := Option.some_inj.mp (hv.symm.trans hv')
    decide
  exact ⟨p, hp, (Kani.mirror_agrees hmirrors).mpr (.inl (by decide))⟩

end Sample

end PercolatorStake
