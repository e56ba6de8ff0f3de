import PercolatorStake.Ledger.Price
import PercolatorStake.Simulation

/-!
# What a position redeems for

A position of a sound ledger is always priced, and what it is priced at depends on
the sub-pool it belongs to alone.
-/

namespace PercolatorStake

open Result Word

namespace StakePool

/-- The sub-pool of a record that is not flagged junior: the senior tranche, or the
whole pool while tranches are off. -/
def ownBalance (p : StakePool) : Option UInt64 :=
  if p.trancheEnabled = true then p.seniorBalance else p.totalPoolValue

def ownSupply (p : StakePool) : UInt64 :=
  if p.trancheEnabled = true then p.seniorTotalLp else p.totalLpSupply

end StakePool

/-- Collateral for `lp` of a junior or of any other position. -/
def Book.redemption (b : Book) (junior : Bool) (lp : Nat) : Nat :=
  if junior = true then Shares.redeemed b.juniorLp b.effectiveJunior lp
  else Shares.redeemed b.seniorLp b.senior.toNat lp

section

variable {p : StakePool} {v : Nat} {f : Pubkey → Position} {k : Pubkey} {lp : UInt64}

/-- The sub-pool of an unflagged record is the senior one, with or without tranches. -/
theorem StakePool.own_eq (h : Ledger.Matched ⟨p.book, v, f⟩) (hv : p.book.value < 2 ^ 64)
    (hs : 0 ≤ p.book.senior) : p.ownSupply.toNat = p.book.seniorLp ∧
      ∃ v, p.ownBalance = some v ∧ v.toNat = p.book.senior.toNat := by
  unfold StakePool.ownSupply StakePool.ownBalance
  by_cases ht : p.trancheEnabled = true
  · rw [if_pos ht, if_pos ht]
    obtain ⟨s, hs', e⟩ := StakePool.seniorBalance_isSome hs hv
    exact ⟨StakePool.toNat_seniorTotalLp p, s, hs', by omega⟩
  · have hoff : p.book.senior = p.book.value ∧ p.book.seniorLp = p.book.supply :=
      h.senior_eq_value (Bool.eq_false_iff.mpr ht)
    rw [if_neg ht, if_neg ht]
    obtain ⟨v, hv', e⟩ := StakePool.totalPoolValue_isSome (p := p) (by omega) hv
    exact ⟨hoff.2.symm, v, hv', by omega⟩

theorem priceWithdraw_ok (h : Ledger.Matched ⟨p.book, v, f⟩) (hs : 0 ≤ p.book.senior)
    (hv : p.book.value < 2 ^ 64) (hlp : 0 < lp.toNat) (hle : lp.toNat ≤ (f k).lp) :
    ∃ x, priceWithdraw p (f k).junior lp = .ok x ∧
      x.toNat = p.book.redemption (f k).junior lp.toNat := by
  have hprice : ∃ x, priceWithdraw p (f k).junior lp = .ok x := by
    unfold priceWithdraw
    by_cases hj : p.trancheEnabled = true ∧ (f k).junior = true
    · have hjle : (f k).lp ≤ p.juniorTotalLp.toNat := h.junior_le hj.2
      obtain ⟨x, hx⟩ := Math.calcCollateralForWithdraw_isSome (s := p.juniorTotalLp)
        (v := p.effectiveJuniorBalance) hlp (hle.trans hjle)
      rw [if_pos hj]
      exact ⟨x, okOr_eq_ok.mpr hx⟩
    · have hjf : (f k).junior = false := h.not_junior fun ht =>
        Bool.eq_false_iff.mpr fun e => hj ⟨ht, e⟩
      have hsle : (f k).lp ≤ p.book.seniorLp := h.senior_le hjf
      rw [if_neg hj]
      by_cases ht : p.trancheEnabled = true
      · obtain ⟨s, hs, -⟩ := StakePool.seniorBalance_isSome hs hv
        obtain ⟨x, hx⟩ := Math.calcCollateralForWithdraw_isSome (s := p.seniorTotalLp) (v := s)
          hlp (by rw [StakePool.toNat_seniorTotalLp]; exact hle.trans hsle)
        simp only [if_pos ht, hs, bind_eq_ok, okOr_eq_ok]
        exact ⟨x, s, rfl, hx⟩
      · have hlpeq : p.book.seniorLp = p.totalLpSupply.toNat :=
          (h.senior_eq_value (Bool.eq_false_iff.mpr ht)).2
        have hval : p.book.senior = p.book.value :=
          (h.senior_eq_value (Bool.eq_false_iff.mpr ht)).1
        obtain ⟨pv, hpv, -⟩ := StakePool.totalPoolValue_isSome (p := p) (by omega) hv
        obtain ⟨x, hx⟩ := Math.calcCollateralForWithdraw_isSome (s := p.totalLpSupply) (v := pv)
          hlp (by omega)
        rw [if_neg ht]
        refine ⟨x, okOr_eq_ok.mpr ?_⟩
        unfold StakePool.calcCollateralForWithdraw
        rw [hpv]
        exact hx
  obtain ⟨x, hx⟩ := hprice
  refine ⟨x, hx, ?_⟩
  have hspec := priceWithdraw_spec hx
  unfold Book.redemption
  by_cases hj : (f k).junior = true
  · rw [if_pos ⟨(h.junior_live k hj).1, hj⟩] at hspec
    rw [if_pos hj, hspec]
  · rw [if_neg (fun e => hj e.2)] at hspec
    have hown : p.book.ownValue = p.book.senior ∧ p.book.ownLp = p.book.seniorLp := h.own_eq
    rw [if_neg hj, hspec.2, hown.1, hown.2]

/-- A redemption is within the value of the sub-pool of the position. -/
theorem redemption_le_own (h : Ledger.Matched ⟨p.book, v, f⟩) {lp : Nat} (hle : lp ≤ (f k).lp) :
    p.book.redemption (f k).junior lp ≤
      if (f k).junior = true then p.book.effectiveJunior else p.book.senior.toNat := by
  unfold Book.redemption
  by_cases hj : (f k).junior = true
  · rw [if_pos hj, if_pos hj]
    exact h.junior_payout_le hj hle
  · rw [if_neg hj, if_neg hj]
    exact h.senior_payout_le (Bool.eq_false_iff.mpr hj) hle

/-- LP of a position is LP of the pool, and of the junior tranche if it is junior. -/
theorem lp_le_supply (h : Ledger.Matched ⟨p.book, v, f⟩) {lp : Nat} (hle : lp ≤ (f k).lp) :
    lp ≤ p.book.supply ∧ ((f k).junior = true → lp ≤ p.book.juniorLp) := by
  refine ⟨?_, fun hj => hle.trans (h.junior_le hj)⟩
  have hsum : p.book.supply = ∑ k, (f k).lp := h.supply_eq
  rw [hsum]
  exact hle.trans (Ledger.lp_le_sum f Position.lp k)

end

theorem Valid.priceWithdraw_ok {ctx : Context} {π k : Pubkey} {w : World} {p : StakePool}
    {t : TokenAccount} {m : Mint} {X : Nat} (h : Valid ctx π X w p t m) (hs : 0 ≤ p.book.senior)
    {q : Position} (hq : w.positions ctx.programId π k = q) {lp : UInt64} (hlp : 0 < lp.toNat)
    (hle : lp.toNat ≤ q.lp) :
    ∃ x, priceWithdraw p q.junior lp = .ok x ∧ x.toNat = p.book.redemption q.junior lp.toNat := by
  have hmatched : Ledger.Matched ⟨p.book, t.amount.toNat, w.positions ctx.programId π⟩ :=
    h.sound.toMatched
  subst hq
  exact PercolatorStake.priceWithdraw_ok hmatched hs h.value_lt hlp hle

end PercolatorStake
