import PercolatorStake.Math
import PercolatorStake.Lib.ShareHistory

/-!
# Splitting an operation

A burn or a deposit made in pieces, each priced on what the one before it left.  The
pieces together are paid, or mint, at most what the whole would have been.
-/

namespace PercolatorStake
namespace Math

open Word

/-- Burns one after the other, and what they pay in total. -/
def burnAll (price : UInt64 → UInt64 → UInt64 → Option UInt64) :
    UInt64 → UInt64 → List UInt64 → Option Nat
  | _, _, [] => some 0
  | supply, value, lp :: rest => do
    let collateral ← price supply value lp
    let supply ← checkedSub supply lp
    let value ← checkedSub value collateral
    let total ← burnAll price supply value rest
    some (collateral.toNat + total)

/-- Deposits one after the other, and what they mint in total. -/
def depositAll (price : UInt64 → UInt64 → UInt64 → Option UInt64) :
    UInt64 → UInt64 → List UInt64 → Option Nat
  | _, _, [] => some 0
  | supply, value, amount :: rest => do
    let lp ← price supply value amount
    let supply ← checkedAdd supply lp
    let value ← checkedAdd value amount
    let total ← depositAll price supply value rest
    some (lp.toNat + total)

/-- Positive burns of at most the supply all go through, and as one burn they would pay
no less. -/
def SplitBurnsNoGain (price : UInt64 → UInt64 → UInt64 → Option UInt64) : Prop :=
  ∀ (supply value lp : UInt64) (burns : List UInt64), (∀ l ∈ burns, 0 < l) →
    (burns.map UInt64.toNat).sum = lp.toNat → lp ≤ supply →
    ∃ total, burnAll price supply value burns = some total ∧
      (burns ≠ [] → (price supply value lp).isSome = true) ∧
      ∀ whole, price supply value lp = some whole → total ≤ whole.toNat

/-- Deposits that all fit, made as one that fits, would mint no less. -/
def SplitDepositsNoGain (price : UInt64 → UInt64 → UInt64 → Option UInt64) : Prop :=
  ∀ (supply value amount lp : UInt64) (deposits : List UInt64) (total : Nat),
    (deposits.map UInt64.toNat).sum = amount.toNat → price supply value amount = some lp →
    depositAll price supply value deposits = some total → total ≤ lp.toNat

/-- Past the guards a deposit mints the floor of its share, the first one included. -/
theorem calcLpForDeposit_minted {s v a l : UInt64} (h : calcLpForDeposit s v a = some l) :
    l.toNat = Shares.minted s.toNat v.toNat a.toNat := by
  obtain ⟨-, hzero⟩ := calcLpForDeposit_spec h
  by_cases hs : s = 0
  · have hs0 : s.toNat = 0 := eq_zero_iff.mp hs
    have hv : v = 0 := eq_zero_iff.mpr (hzero.mp hs0)
    rw [calcLpForDeposit, if_pos ⟨hs, hv⟩, Option.some_inj] at h
    rw [hs0, hzero.mp hs0, ← h]
    exact (Nat.div_one _).symm.trans (congrArg (· / 1) (Nat.mul_one _).symm)
  · have hv : v ≠ 0 := fun e => hs (eq_zero_iff.mpr (hzero.mpr (eq_zero_iff.mp e)))
    rwa [calcLpForDeposit_eq hs hv, narrow_eq_some] at h

theorem depositAll_eq {s v : UInt64} {deposits : List UInt64} {total : Nat}
    (h : depositAll calcLpForDeposit s v deposits = some total) :
    total = Shares.mintedAll s.toNat v.toNat (deposits.map UInt64.toNat) := by
  induction deposits generalizing s v total with
  | nil =>
    cases h
    rfl
  | cons a rest ih =>
    simp only [depositAll, Option.bind_eq_bind, Option.bind_eq_some_iff, checkedAdd_eq_some,
      Option.some_inj] at h
    obtain ⟨l, hl, s', hs', v', hv', more, hmore, htotal⟩ := h
    have hrest := ih hmore
    rw [hs', hv', calcLpForDeposit_minted hl] at hrest
    rw [← htotal, hrest, calcLpForDeposit_minted hl]
    rfl

/-- Every piece of a burn finds supply enough. -/
theorem burnAll_eq {s v : UInt64} {burns : List UInt64} (hpos : ∀ l ∈ burns, 0 < l)
    (hsum : (burns.map UInt64.toNat).sum ≤ s.toNat) :
    burnAll calcCollateralForWithdraw s v burns =
      some (Shares.redeemedAll s.toNat v.toNat (burns.map UInt64.toNat)) := by
  induction burns generalizing s v with
  | nil => rfl
  | cons l rest ih =>
    rw [List.map_cons, List.sum_cons] at hsum
    have hl : 0 < l.toNat := pos_iff.mp (hpos l List.mem_cons_self)
    obtain ⟨c, hc⟩ := calcCollateralForWithdraw_isSome (v := v) hl (show l.toNat ≤ s.toNat by omega)
    have hcn := calcCollateralForWithdraw_spec hc
    have hle : c.toNat ≤ v.toNat := hcn ▸ Shares.redeemed_le_value (by omega)
    have hs' : (s - l).toNat = s.toNat - l.toNat :=
      UInt64.toNat_sub_of_le _ _ (UInt64.le_iff_toNat_le.mpr (by omega))
    have hv' : (v - c).toNat = v.toNat - c.toNat :=
      UInt64.toNat_sub_of_le _ _ (UInt64.le_iff_toNat_le.mpr hle)
    have hsub : checkedSub s l = some (s - l) := if_pos (by omega)
    have hval : checkedSub v c = some (v - c) := if_pos hle
    have hrest := ih (s := s - l) (v := v - c) (fun k hk => hpos k (List.mem_cons_of_mem _ hk))
      (by omega)
    simp only [burnAll, hc, hsub, hval, hrest, Option.bind_eq_bind, Option.bind_some]
    rw [hs', hv', hcn]
    rfl

theorem splitBurns_noGain : SplitBurnsNoGain calcCollateralForWithdraw := by
  intro supply value lp burns hpos hsum hle
  have hle := UInt64.le_iff_toNat_le.mp hle
  refine ⟨_, burnAll_eq hpos (by omega), ?_, ?_⟩
  · intro hne
    obtain ⟨l, rest, rfl⟩ := List.exists_cons_of_ne_nil hne
    have hl : 0 < l.toNat := pos_iff.mp (hpos l List.mem_cons_self)
    rw [List.map_cons, List.sum_cons] at hsum
    obtain ⟨c, hc⟩ := calcCollateralForWithdraw_isSome (v := value) (show 0 < lp.toNat by omega) hle
    rw [hc]
    rfl
  · intro whole hwhole
    rw [calcCollateralForWithdraw_spec hwhole, ← hsum]
    exact Shares.redeemedAll_le (by omega)

theorem splitDeposits_noGain : SplitDepositsNoGain calcLpForDeposit := by
  intro supply value amount lp deposits total hsum hlp htotal
  rw [depositAll_eq htotal, calcLpForDeposit_minted hlp, ← hsum]
  exact Shares.mintedAll_le _ _ _

/-- Splitting gives no advantage, in the pool and in either tranche. -/
theorem splitting_never_profits :
    SplitBurnsNoGain calcCollateralForWithdraw ∧
      SplitBurnsNoGain calcJuniorCollateralForWithdraw ∧
      SplitBurnsNoGain calcSeniorCollateralForWithdraw ∧
      SplitDepositsNoGain calcLpForDeposit ∧
      SplitDepositsNoGain calcJuniorLpForDeposit ∧
      SplitDepositsNoGain calcSeniorLpForDeposit :=
  ⟨splitBurns_noGain, splitBurns_noGain, splitBurns_noGain, splitDeposits_noGain,
    splitDeposits_noGain, splitDeposits_noGain⟩

/-- The gain from the better price can stay short of the rounding. -/
example : burnAll calcCollateralForWithdraw 9 17 [1, 1] = some 2 ∧
    calcCollateralForWithdraw 9 17 2 = some 3 := by decide +kernel

end Math
end PercolatorStake
