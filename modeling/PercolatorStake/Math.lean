import PercolatorStake.Lib.Word
import PercolatorStake.Lib.Shares

/-!
# LP pricing, loss absorption and the high-water-mark floor

The pure arithmetic of `math.rs`, less the fee split.  Products are formed in
128 bits and narrowed back, and a result that does not fit is `none`.

Every function here has one lemma that states it over naturals, where the wide
intermediates have disappeared: the product of two words never leaves 128 bits.
-/

namespace PercolatorStake
namespace Math

open Word

def virtualShares : U128 := 1
def virtualAssets : U128 := 1

/-- LP tokens for a deposit.  The first deposit into an empty pool mints one for
one.  Value without LP is orphaned and LP without value is a claim on insurance
still to come back, and neither may be bought into. -/
def calcLpForDeposit (totalLpSupply totalPoolValue depositAmount : UInt64) : Option UInt64 :=
  if totalLpSupply = 0 ∧ totalPoolValue = 0 then some depositAmount
  else if totalLpSupply = 0 then none
  else if totalPoolValue = 0 then none
  else do
    let shares ← wideAdd (widen totalLpSupply) virtualShares
    let product ← wideMul (widen depositAmount) shares
    let assets ← wideAdd (widen totalPoolValue) virtualAssets
    let lp ← wideDiv product assets
    narrow lp.toNat

/-- Collateral for an LP burn. -/
def calcCollateralForWithdraw (totalLpSupply totalPoolValue lpAmount : UInt64) :
    Option UInt64 :=
  if totalLpSupply = 0 then none
  else do
    let assets ← wideAdd (widen totalPoolValue) virtualAssets
    let product ← wideMul (widen lpAmount) assets
    let shares ← wideAdd (widen totalLpSupply) virtualShares
    let collateral ← wideDiv product shares
    narrow collateral.toNat

def calcJuniorLpForDeposit (juniorTotalLp juniorBalance depositAmount : UInt64) :
    Option UInt64 :=
  calcLpForDeposit juniorTotalLp juniorBalance depositAmount

def calcSeniorLpForDeposit (seniorTotalLp seniorBalance depositAmount : UInt64) :
    Option UInt64 :=
  calcLpForDeposit seniorTotalLp seniorBalance depositAmount

def calcJuniorCollateralForWithdraw (juniorTotalLp juniorBalance lpAmount : UInt64) :
    Option UInt64 :=
  calcCollateralForWithdraw juniorTotalLp juniorBalance lpAmount

def calcSeniorCollateralForWithdraw (seniorTotalLp seniorBalance lpAmount : UInt64) :
    Option UInt64 :=
  calcCollateralForWithdraw seniorTotalLp seniorBalance lpAmount

/-- Split a loss between the tranches, junior first. -/
def distributeLoss (juniorBalance seniorBalance lossAmount : UInt64) : UInt64 × UInt64 :=
  let total := saturatingAdd juniorBalance seniorBalance
  let cappedLoss := lesser lossAmount total
  if cappedLoss ≤ juniorBalance then (cappedLoss, 0)
  else (juniorBalance, saturatingSub cappedLoss juniorBalance)

/-- The value the pool may not be withdrawn below. -/
def hwmFloor (epochHighWaterTvl : UInt64) (hwmFloorBps : UInt16) : Option UInt64 := do
  let product ← wideMul (widen epochHighWaterTvl) (BitVec.ofNat 128 hwmFloorBps.toNat)
  let floor ← wideDiv product 10000
  narrow floor.toNat

def hwmWithdrawalAllowed (postWithdrawalTvl epochHighWaterTvl : UInt64)
    (hwmFloorBps : UInt16) : Bool :=
  match hwmFloor epochHighWaterTvl hwmFloorBps with
  | some floor => decide (floor ≤ postWithdrawalTvl)
  | none => false

/-! ## Over naturals -/

theorem toNat_one_add {a : UInt64} :
    ∃ c, wideAdd (widen a) 1 = some c ∧ c.toNat = a.toNat + 1 := by
  have ha := a.toNat_lt
  have h1 : (1 : U128).toNat = 1 := rfl
  obtain ⟨c, hc, hn⟩ := wideAdd_eq (a := widen a) (b := 1) (by rw [toNat_widen, h1]; omega)
  exact ⟨c, hc, by rw [hn, toNat_widen, h1]⟩

theorem mul_succ_lt (a b : UInt64) : a.toNat * (b.toNat + 1) < 2 ^ 128 := by
  have ha := a.toNat_lt
  have hb := b.toNat_lt
  calc a.toNat * (b.toNat + 1) ≤ a.toNat * 2 ^ 64 := Nat.mul_le_mul_left _ hb
    _ < 2 ^ 64 * 2 ^ 64 := Nat.mul_lt_mul_of_pos_right ha (by decide)
    _ = 2 ^ 128 := by decide

theorem wideMul_succ (a b : UInt64) {c : U128} (hc : c.toNat = b.toNat + 1) :
    ∃ p, wideMul (widen a) c = some p ∧ p.toNat = a.toNat * (b.toNat + 1) := by
  obtain ⟨p, hp, hn⟩ := wideMul_eq (a := widen a) (b := c)
    (by rw [toNat_widen, hc]; exact mul_succ_lt a b)
  exact ⟨p, hp, by rw [hn, toNat_widen, hc]⟩

/-- Past the two guards the price is the virtual-offset price and only the
narrowing can fail. -/
theorem calcLpForDeposit_eq {s v a : UInt64} (hs : s ≠ 0) (hv : v ≠ 0) :
    calcLpForDeposit s v a = narrow (Shares.minted s.toNat v.toNat a.toNat) := by
  obtain ⟨shares, hshares, ns⟩ := toNat_one_add (a := s)
  obtain ⟨product, hproduct, np⟩ := wideMul_succ a s ns
  obtain ⟨assets, hassets, na⟩ := toNat_one_add (a := v)
  obtain ⟨lp, hlp, nl⟩ := wideDiv_eq (a := product) (b := assets) (by omega)
  unfold calcLpForDeposit
  rw [if_neg (fun h => hs h.1), if_neg hs, if_neg hv]
  simp only [virtualShares, virtualAssets, hshares, hproduct, hassets, hlp, Option.bind_eq_bind,
    Option.bind_some]
  rw [nl, np, na]
  rfl

/-- A minted amount is never above the price, and both guards held. -/
theorem calcLpForDeposit_spec {s v a l : UInt64} (h : calcLpForDeposit s v a = some l) :
    l.toNat * (v.toNat + 1) ≤ a.toNat * (s.toNat + 1) ∧ (s.toNat = 0 ↔ v.toNat = 0) := by
  by_cases hs : s = 0
  · by_cases hv : v = 0
    · subst hs hv
      have : some a = some l := by simpa [calcLpForDeposit] using h
      cases this
      exact ⟨Nat.le_refl _, Iff.rfl⟩
    · simp [calcLpForDeposit, hs, hv] at h
  · by_cases hv : v = 0
    · simp [calcLpForDeposit, hs, hv] at h
    · rw [calcLpForDeposit_eq hs hv, narrow_eq_some] at h
      rw [eq_zero_iff] at hs hv
      refine ⟨?_, fun e => (hs e).elim, fun e => (hv e).elim⟩
      rw [h]
      exact Shares.minted_mul_le _ _ _

/-- The whole price in one condition: the first deposit is the case of two zeros. -/
theorem calcLpForDeposit_eq_some {s v a l : UInt64} :
    calcLpForDeposit s v a = some l ↔
      (s.toNat = 0 ↔ v.toNat = 0) ∧ l.toNat = Shares.minted s.toNat v.toNat a.toNat := by
  by_cases hs : s = 0
  · by_cases hv : v = 0
    · -- the offsets cancel: one for one
      subst hs hv
      have hmint : Shares.minted (0 : UInt64).toNat (0 : UInt64).toNat a.toNat = a.toNat := by
        rw [UInt64.toNat_zero, Shares.minted, Nat.zero_add, Nat.mul_one, Nat.div_one]
      have hcalc : calcLpForDeposit 0 0 a = some a := if_pos (And.intro rfl rfl)
      rw [hcalc, hmint, Option.some_inj, ← UInt64.toNat_inj]
      exact ⟨fun h => ⟨Iff.rfl, h.symm⟩, fun h => h.2.symm⟩
    · refine ⟨fun h => ?_, fun h => ?_⟩
      · exact ⟨(calcLpForDeposit_spec h).2, by simp [calcLpForDeposit, hs, hv] at h⟩
      · exact absurd (eq_zero_iff.mpr (h.1.mp (eq_zero_iff.mp hs))) hv
  · by_cases hv : v = 0
    · refine ⟨fun h => ?_, fun h => ?_⟩
      · exact ⟨(calcLpForDeposit_spec h).2, by simp [calcLpForDeposit, hs, hv] at h⟩
      · exact absurd (eq_zero_iff.mpr (h.1.mpr (eq_zero_iff.mp hv))) hs
    · rw [calcLpForDeposit_eq hs hv, narrow_eq_some]
      rw [eq_zero_iff] at hs hv
      exact ⟨fun h => ⟨⟨fun e => (hs e).elim, fun e => (hv e).elim⟩, h⟩, fun h => h.2⟩

theorem calcCollateralForWithdraw_eq {s v l : UInt64} (hs : s ≠ 0) :
    calcCollateralForWithdraw s v l = narrow (Shares.redeemed s.toNat v.toNat l.toNat) := by
  obtain ⟨assets, hassets, na⟩ := toNat_one_add (a := v)
  obtain ⟨product, hproduct, np⟩ := wideMul_succ l v na
  obtain ⟨shares, hshares, ns⟩ := toNat_one_add (a := s)
  obtain ⟨c, hc, nc⟩ := wideDiv_eq (a := product) (b := shares) (by omega)
  unfold calcCollateralForWithdraw
  rw [if_neg hs]
  simp only [virtualShares, virtualAssets, hshares, hproduct, hassets, hc, Option.bind_eq_bind,
    Option.bind_some]
  rw [nc, np, ns]
  rfl

theorem calcCollateralForWithdraw_spec {s v l c : UInt64}
    (h : calcCollateralForWithdraw s v l = some c) :
    c.toNat = Shares.redeemed s.toNat v.toNat l.toNat := by
  by_cases hs : s = 0
  · simp [calcCollateralForWithdraw, hs] at h
  · rwa [calcCollateralForWithdraw_eq hs, narrow_eq_some] at h

/-- Burning at most the whole supply is always priced. -/
theorem calcCollateralForWithdraw_isSome {s v l : UInt64} (hl : 0 < l.toNat)
    (hle : l.toNat ≤ s.toNat) : ∃ c, calcCollateralForWithdraw s v l = some c := by
  have hs : s ≠ 0 := by rw [Ne, eq_zero_iff]; omega
  have hr := Shares.redeemed_le_value (v := v.toNat) hle
  have hv := v.toNat_lt
  rw [calcCollateralForWithdraw_eq hs]
  exact ⟨UInt64.ofNat _, narrow_eq_some.mpr (toNat_ofNat (by omega))⟩

/-- The junior part of a loss is whatever of it the junior balance covers.  The
cap at the sum of both balances never shows: it is at least the junior balance,
whatever the senior one is taken to be. -/
theorem distributeLoss_junior (j s l : UInt64) :
    (distributeLoss j s l).1.toNat = min l.toNat j.toNat := by
  have hj := j.toNat_lt
  have ht := toNat_saturatingAdd j s
  have hc := toNat_lesser l (saturatingAdd j s)
  unfold distributeLoss
  by_cases h : lesser l (saturatingAdd j s) ≤ j
  · rw [if_pos h]
    rw [UInt64.le_iff_toNat_le] at h
    show (lesser l (saturatingAdd j s)).toNat = _
    omega
  · rw [if_neg h]
    rw [UInt64.le_iff_toNat_le] at h
    show j.toNat = _
    omega

end Math
end PercolatorStake
