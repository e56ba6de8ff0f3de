import PercolatorStake.FeeSplit
import PercolatorStake.Ledger

/-!
# Share prices under a move

What a bystander's LP is worth is decided by the price of the sub-pool it belongs
to.  No move but a flush lowers the senior price, and no move but a flush or the
exit of the last junior lowers the junior one.

While tranches are off the junior side is empty, so the senior sub-pool is the
whole pool and nothing has to be said twice.
-/

namespace PercolatorStake

namespace Book

theorem juniorShare_le (b : Book) (fee : Nat) : b.juniorShare fee ≤ fee :=
  Math.share_le fee (Nat.le_add_right _ _)

/-- The senior price follows the senior value as long as the senior LP stands. -/
theorem seniorPrice_le_of {b b' : Book} (hlp : b'.seniorLp = b.seniorLp)
    (hv : b.senior ≤ b'.senior) : b.seniorPrice ≤ b'.seniorPrice := by
  unfold seniorPrice
  rw [hlp]
  exact Shares.price_le_of_value_le (by omega)

theorem juniorPrice_le_of {b b' : Book} (hlp : b'.juniorLp = b.juniorLp)
    (hv : b.effectiveJunior ≤ b'.effectiveJunior) : b.juniorPrice ≤ b'.juniorPrice := by
  unfold juniorPrice
  rw [hlp]
  exact Shares.price_le_of_value_le hv

end Book

namespace Ledger

variable {K : Type} [Fintype K] {l l' : Ledger K}

/-! ## The sub-pool of a position -/

theorem Matched.junior_le (h : Matched l) {k : K} (hj : (l.position k).junior = true) :
    (l.position k).lp ≤ l.book.juniorLp := by
  have hle := lp_le_sum l.position Position.juniorLp k
  rw [Position.juniorLp, if_pos hj] at hle
  rwa [h.juniorLp_eq]

theorem Matched.senior_le (h : Matched l) {k : K} (hj : (l.position k).junior = false) :
    (l.position k).lp ≤ l.book.seniorLp := by
  have hle := lp_le_sum l.position (fun q => if q.junior = true then 0 else q.lp) k
  rw [hj, if_neg Bool.false_ne_true] at hle
  rwa [h.seniorLp_eq.2]

/-- Without tranches there is no junior LP and no junior balance. -/
theorem Matched.no_junior (h : Matched l) (ht : l.book.tranches = false) :
    l.book.juniorLp = 0 ∧ l.book.juniorBalance = 0 := by
  have h0 : l.book.juniorLp = 0 := by
    rw [h.juniorLp_eq]
    refine Finset.sum_eq_zero fun k _ => if_neg fun hj => ?_
    rw [(h.junior_live k hj).1] at ht
    cases ht
  exact ⟨h0, h.junior_empty h0⟩

theorem Matched.senior_eq_value (h : Matched l) (ht : l.book.tranches = false) :
    l.book.senior = l.book.value ∧ l.book.seniorLp = l.book.supply := by
  obtain ⟨hlp, hbal⟩ := h.no_junior ht
  unfold Book.senior Book.effectiveJunior Book.seniorLp
  omega

theorem Matched.own_eq (h : Matched l) :
    l.book.ownValue = l.book.senior ∧ l.book.ownLp = l.book.seniorLp := by
  unfold Book.ownValue Book.ownLp
  cases ht : l.book.tranches with
  | false =>
    obtain ⟨hv, hlp⟩ := h.senior_eq_value ht
    rw [if_neg Bool.false_ne_true, if_neg Bool.false_ne_true]
    exact ⟨hv.symm, hlp.symm⟩
  | true =>
    rw [if_pos rfl, if_pos rfl]
    exact ⟨rfl, rfl⟩

/-- A junior redemption is within the junior value. -/
theorem Matched.junior_payout_le (h : Matched l) {k : K} {lp : Nat}
    (hj : (l.position k).junior = true) (hle : lp ≤ (l.position k).lp) :
    Shares.redeemed l.book.juniorLp l.book.effectiveJunior lp ≤ l.book.effectiveJunior :=
  Shares.redeemed_le_value (hle.trans (h.junior_le hj))

/-- A senior redemption is within the senior value. -/
theorem Matched.senior_payout_le (h : Matched l) {k : K} {lp : Nat}
    (hj : (l.position k).junior = false) (hle : lp ≤ (l.position k).lp) :
    Shares.redeemed l.book.seniorLp l.book.senior.toNat lp ≤ l.book.senior.toNat :=
  Shares.redeemed_le_value (hle.trans (h.senior_le hj))

/-- A position that redeems with the seniors is not flagged. -/
theorem Matched.not_junior (h : Matched l) {k : K}
    (hflag : l.book.tranches = true → (l.position k).junior = false) :
    (l.position k).junior = false := by
  cases hj : (l.position k).junior with
  | false => rfl
  | true =>
    rw [hflag (h.junior_live k hj).1] at hj
    cases hj

/-! ## Prices -/

variable [DecidableEq K] {m : Move K}

theorem Matched.senior_step (h : Matched l) (hs : 0 ≤ l.book.senior) (hm : Step l m l')
    (hflush : ∀ x, m ≠ .flush x) :
    0 ≤ l'.book.senior ∧ l.book.seniorPrice ≤ l'.book.seniorPrice := by
  have hraise : ∀ {b : Book}, b.seniorLp = l.book.seniorLp → l.book.senior ≤ b.senior →
      0 ≤ b.senior ∧ l.book.seniorPrice ≤ b.seniorPrice :=
    fun hlp hv => ⟨hs.trans hv, Book.seniorPrice_le_of hlp hv⟩
  have hjle := h.seniorLp_eq.1
  cases hm with
  | @accrue f j hf hv hsup hj =>
    have hjf : j ≤ f := by
      split at hj
      · rw [hj.2.1]
        exact l.book.juniorShare_le f
      · omega
    refine hraise rfl ?_
    simp only [Book.senior, Book.effectiveJunior, Book.netLoss, Book.value]
    omega
  | @deposit k a lp ha hlp hacc hgate hv hprice hzero hflag =>
    rw [h.own_eq.1, h.own_eq.2] at hprice
    have hval : Book.senior { l.book with
        deposited := l.book.deposited + a, supply := l.book.supply + lp } =
        l.book.senior + a := by
      simp only [Book.senior, Book.effectiveJunior, Book.netLoss, Book.value]
      omega
    have hsup : Book.seniorLp { l.book with
        deposited := l.book.deposited + a, supply := l.book.supply + lp } =
        l.book.seniorLp + lp := by
      simp only [Book.seniorLp]
      omega
    have hnat : (l.book.senior + a).toNat = l.book.senior.toNat + a := by omega
    refine ⟨by rw [hval]; omega, ?_⟩
    simp only [Book.seniorPrice]
    rw [hval, hsup, hnat]
    exact Shares.price_le_of_mint hprice
  | @depositJunior k a lp ha hlp hacc ht hgate hprice hzero hflag =>
    refine hraise ?_ ?_
    · simp only [Book.seniorLp]
      omega
    · simp only [Book.senior, Book.effectiveJunior, Book.netLoss, Book.value]
      omega
  | @withdraw k lp x hlp hle hacc hflag hv hx hpos hvault hsupply =>
    have hjf := h.not_junior hflag
    rw [h.own_eq.1, h.own_eq.2] at hx
    have hxle : x ≤ l.book.senior.toNat := hx ▸ h.senior_payout_le hjf hle
    have hlple := hle.trans (h.senior_le hjf)
    have hval : Book.senior { l.book with
        withdrawn := l.book.withdrawn + x, supply := l.book.supply - lp } =
        l.book.senior - x := by
      simp only [Book.senior, Book.effectiveJunior, Book.netLoss, Book.value]
      omega
    have hsup : Book.seniorLp { l.book with
        withdrawn := l.book.withdrawn + x, supply := l.book.supply - lp } =
        l.book.seniorLp - lp := by
      simp only [Book.seniorLp]
      omega
    have hnat : (l.book.senior - x).toNat = l.book.senior.toNat - x := by omega
    refine ⟨by rw [hval]; omega, ?_⟩
    simp only [Book.seniorPrice]
    rw [hval, hsup, hnat]
    refine Shares.price_le_of_redeem hxle hlple ?_
    rw [hx]
    exact Shares.redeemed_mul_le _ _ _
  | @withdrawJunior k lp x hlp hle hacc ht hflag hx hvault hsupply hrest hbal =>
    have hxle : x ≤ l.book.effectiveJunior := hx ▸ h.junior_payout_le hflag hle
    simp only [Book.effectiveJunior, Book.netLoss] at hxle
    refine hraise ?_ ?_
    · simp only [Book.seniorLp]
      omega
    · simp only [Book.senior, Book.effectiveJunior, Book.netLoss, Book.value]
      omega
  | @exitJunior k lp x hlp hle hacc ht hflag hx hvault hsupply hlast =>
    have hxle : x ≤ l.book.effectiveJunior := hx ▸ h.junior_payout_le hflag hle
    simp only [Book.effectiveJunior, Book.netLoss] at hxle
    refine hraise ?_ ?_
    · simp only [Book.seniorLp]
      omega
    · simp only [Book.senior, Book.effectiveJunior, Book.netLoss, Book.value]
      omega
  | flush => exact (hflush _ rfl).elim
  | giveBack | recover | setTranches | inflow =>
    refine hraise rfl ?_
    simp only [Book.senior, Book.effectiveJunior, Book.netLoss, Book.value]
    omega

/-- The junior side.  The exit of the last junior is left out: nobody is there
after it. -/
theorem Matched.junior_step (h : Matched l) (hm : Step l m l') (hflush : ∀ x, m ≠ .flush x)
    (hexit : ∀ k lp x, m ≠ .exitJunior k lp x) :
    l.book.juniorPrice ≤ l'.book.juniorPrice := by
  cases hm with
  | accrue | giveBack | recover | setTranches | inflow | deposit | withdraw =>
    refine Book.juniorPrice_le_of rfl ?_
    simp only [Book.effectiveJunior, Book.netLoss]
    omega
  | @depositJunior k a lp ha hlp hacc ht hgate hprice hzero hflag =>
    have hval : Book.effectiveJunior { l.book with
        deposited := l.book.deposited + a, supply := l.book.supply + lp,
        juniorLp := l.book.juniorLp + lp, juniorBalance := l.book.juniorBalance + a } =
        l.book.effectiveJunior + a := by
      simp only [Book.effectiveJunior, Book.netLoss]
      omega
    simp only [Book.juniorPrice]
    rw [hval]
    exact Shares.price_le_of_mint hprice
  | @withdrawJunior k lp x hlp hle hacc ht hflag hx hvault hsupply hrest hbal =>
    have hxle : x ≤ l.book.effectiveJunior := hx ▸ h.junior_payout_le hflag hle
    have hval : Book.effectiveJunior { l.book with
        withdrawn := l.book.withdrawn + x, supply := l.book.supply - lp,
        juniorLp := l.book.juniorLp - lp, juniorBalance := l.book.juniorBalance - x } =
        l.book.effectiveJunior - x := by
      simp only [Book.effectiveJunior, Book.netLoss] at hxle ⊢
      omega
    simp only [Book.juniorPrice]
    rw [hval]
    refine Shares.price_le_of_redeem hxle hrest.le ?_
    rw [hx]
    exact Shares.redeemed_mul_le _ _ _
  | exitJunior => exact (hexit _ _ _ rfl).elim
  | flush => exact (hflush _ rfl).elim

end Ledger

end PercolatorStake
