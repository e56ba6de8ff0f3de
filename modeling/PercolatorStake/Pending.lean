import PercolatorStake.Redemption

/-!
# Surplus that is not on the books

What the vault holds above the value of the pool is booked in front of every pricing.
So what LP would be paid is its price on the books that an accrual leads to.  No event
but a flush lowers it, with one exception: insurance that comes back to a vault with a
surplus gives the senior tranche a larger part of that surplus.
-/

namespace PercolatorStake

open Result Word

/-- What a withdrawal prices LP at: the surplus of the vault is booked first. -/
def redeemable (p : StakePool) (balance : UInt64) (junior : Bool) (lp : UInt64) :
    Except ProgramError UInt64 := do
  let p ← accrueFeesInner p balance
  priceWithdraw p junior lp

/-- An accrual leads to `l'`, which has nothing left to accrue. -/
def Ledger.AccruesTo {K : Type} [DecidableEq K] (l l' : Ledger K) : Prop :=
  l'.Accrued ∧ ∃ ms, Accrual ms ∧ Transition.Run Ledger.Step l ms l'

/-! ## Settled ledgers -/

section

variable {K : Type} [DecidableEq K] {l l₁ l₂ l' : Ledger K} {ms : List (Move K)} {mv : Move K}

theorem Ledger.Accrued.accruesTo (h : l.Accrued) : l.AccruesTo l := ⟨h, [], .inl rfl, rfl⟩

theorem Ledger.Step.accruesTo {f j : Nat} (hm : Ledger.Step l (.accrue f j) l') :
    l.AccruesTo l' := ⟨hm.accrued, _, .inr ⟨f, j, rfl⟩, _, hm, rfl⟩

/-- An accrual finds nothing, or books everything. -/
theorem Accrual.accruesTo (h : Accrual ms) (hrun : Transition.Run Ledger.Step l ms l') :
    l' = l ∨ l.AccruesTo l' := by
  rcases h.run hrun with rfl | ⟨f, j, hm⟩
  · exact .inl rfl
  · exact .inr hm.accruesTo

theorem Ledger.AccruesTo.run (h : l.AccruesTo l') :
    (l.Accrued ∧ l' = l) ∨ ∃ f j, Ledger.Step l (.accrue f j) l' := by
  obtain ⟨hacc, ms, hms, hrun⟩ := h
  rcases hms.run hrun with rfl | hm
  · exact .inl ⟨hacc, rfl⟩
  · exact .inr hm

/-- There is one way to settle a ledger. -/
theorem Ledger.AccruesTo.unique (h₁ : l.AccruesTo l₁) (h₂ : l.AccruesTo l₂) : l₁ = l₂ := by
  obtain ⟨hacc₁, ms₁, hms₁, hrun₁⟩ := h₁
  obtain ⟨hacc₂, ms₂, hms₂, hrun₂⟩ := h₂
  exact hms₁.unique hms₂ hrun₁ hrun₂ hacc₁ hacc₂

theorem Ledger.AccruesTo.supply_eq (h : l.AccruesTo l') : l'.book.supply = l.book.supply := by
  rcases h.run with ⟨-, rfl⟩ | ⟨f, j, hm⟩
  · rfl
  · cases hm
    rfl

section Sums

variable [Fintype K]

theorem Ledger.AccruesTo.sound {X : Nat} (h : l.AccruesTo l') (hl : Ledger.Sound X l) :
    Ledger.Sound X l' := by
  obtain ⟨-, ms, hms, hrun⟩ := h
  have hsum : (ms.map Move.inflowOf).sum = 0 := hms.sum_eq_zero fun _ _ => rfl
  have hsound := hl.run hrun
  rwa [hsum, Nat.add_zero] at hsound

/-- Settling lowers no price. -/
theorem Ledger.AccruesTo.price_le (h : l.AccruesTo l') (hl : Ledger.Matched l)
    (hs : 0 ≤ l.book.senior) : 0 ≤ l'.book.senior ∧ l.book.seniorPrice ≤ l'.book.seniorPrice ∧
      l.book.juniorPrice ≤ l'.book.juniorPrice := by
  rcases h.run with ⟨-, rfl⟩ | ⟨f, j, hm⟩
  · exact ⟨hs, le_refl _, le_refl _⟩
  · obtain ⟨hs', hsenior⟩ := hl.senior_step hs hm fun x e => by cases e
    exact ⟨hs', hsenior, hl.junior_step hm (fun x e => by cases e) fun _ _ _ e => by cases e⟩

end Sums

/-! ## Insurance that comes back -/

theorem Book.juniorShare_anti {b b' : Book} {fee : Nat}
    (hbalance : b'.juniorBalance = b.juniorBalance)
    (hmult : b'.multiplier = b.multiplier) (hs : b.senior.toNat ≤ b'.senior.toNat) :
    b'.juniorShare fee ≤ b.juniorShare fee := by
  unfold Book.juniorShare
  rw [hbalance, hmult]
  by_cases h0 : b.juniorBalance * b.multiplier + b.senior.toNat * 10000 = 0
  · have hzero : b.juniorBalance * b.multiplier = 0 := by omega
    rw [hzero, Nat.mul_zero, Nat.zero_div, Nat.zero_div]
  · exact Nat.div_le_div_left (by omega) (Nat.pos_of_ne_zero h0)

/-- The senior tranche has no less of what was booked, the smaller the junior part. -/
theorem Book.senior_accrued_le (b : Book) {f j j' x y : Nat} (hle : j' ≤ j) :
    (b.accrued f j).senior ≤ ((b.refund x y).accrued f j').senior := by
  simp only [Book.refund, Book.accrued, Book.senior, Book.effectiveJunior, Book.netLoss,
    Book.value]
  omega

theorem Book.senior_le_refund (b : Book) (x y : Nat) : b.senior ≤ (b.refund x y).senior := by
  simp only [Book.refund, Book.senior, Book.effectiveJunior, Book.netLoss, Book.value]
  omega

/-- The surplus stays as it is, and no more of it is for the junior tranche. -/
theorem Ledger.Step.accrue_refund {f j x y : Nat} (hm : Ledger.Step l (.accrue f j) l₁)
    (hs : 0 ≤ l.book.senior) :
    ∃ j', j' ≤ j ∧ Ledger.Step ⟨l.book.refund x y, l.vault + x, l.position⟩ (.accrue f j')
      ⟨(l.book.refund x y).accrued f j', l.vault + x, l.position⟩ := by
  have hsenior : l.book.senior ≤ (l.book.refund x y).senior := l.book.senior_le_refund x y
  have hvalue := l.book.value_refund x y
  cases hm with
  | accrue hf hv hsupply hj =>
    have hv' : ((l.vault + x : Nat) : Int) = (l.book.refund x y).value + f := by omega
    by_cases hjunior : l.book.tranches = true ∧ 0 < l.book.juniorLp
    · rw [if_pos hjunior] at hj
      obtain ⟨-, rfl, hfit⟩ := hj
      have hshare : (l.book.refund x y).juniorShare f ≤ l.book.juniorShare f :=
        Book.juniorShare_anti rfl rfl (by omega)
      refine ⟨_, hshare, .accrue hf hv' hsupply ?_⟩
      show if l.book.tranches = true ∧ 0 < l.book.juniorLp then _ else _
      rw [if_pos hjunior]
      refine ⟨hs.trans hsenior, rfl, ?_⟩
      show (l.book.juniorBalance : Int) + (l.book.refund x y).juniorShare f ≤
        (l.book.refund x y).value + f
      omega
    · refine ⟨0, Nat.zero_le _, .accrue hf hv' hsupply ?_⟩
      show if l.book.tranches = true ∧ 0 < l.book.juniorLp then _ else _
      rw [if_neg hjunior]

/-- Insurance that comes back leaves the surplus as it is, and no less of it for the
senior tranche. -/
theorem Ledger.AccruesTo.refunded {x y : Nat} (h : l.AccruesTo l₁) (hs : 0 ≤ l.book.senior)
    (hsupply : 0 < l.book.supply) :
    ∃ l₁', Ledger.AccruesTo ⟨l.book.refund x y, l.vault + x, l.position⟩ l₁' ∧
      l₁'.book.fees = l₁.book.fees ∧ l₁'.book.seniorLp = l₁.book.seniorLp ∧
      l₁.book.senior ≤ l₁'.book.senior := by
  rcases h.run with ⟨hacc, rfl⟩ | ⟨f, j, hm⟩
  · have hall : (l₁.vault : Int) ≤ l₁.book.value := hacc.resolve_left hsupply.ne'
    have hacc' : Ledger.Accrued ⟨l₁.book.refund x y, l₁.vault + x, l₁.position⟩ := by
      refine .inr ?_
      show ((l₁.vault + x : Nat) : Int) ≤ (l₁.book.refund x y).value
      rw [Book.value_refund]
      omega
    exact ⟨_, hacc'.accruesTo, rfl, rfl, l₁.book.senior_le_refund x y⟩
  · obtain ⟨j', hle, hm'⟩ := hm.accrue_refund (x := x) (y := y) hs
    refine ⟨_, hm'.accruesTo, ?_⟩
    cases hm with
    | accrue => exact ⟨rfl, rfl, l.book.senior_accrued_le hle⟩

/-! ## Across a move -/

/-- A move other than an inflow leaves no surplus behind. -/
theorem Ledger.Step.keeps_accrued (hm : Ledger.Step l mv l') (hacc : l.Accrued)
    (hsupply : 0 < l.book.supply) (hinflow : ∀ x, mv ≠ .inflow x) : l'.Accrued := by
  have hall : (l.vault : Int) ≤ l.book.value := hacc.resolve_left hsupply.ne'
  cases hm with
  | inflow => exact (hinflow _ rfl).elim
  | accrue hf hv hs hj => exact (Ledger.Step.accrue hf hv hs hj).accrued
  | _ =>
    refine .inr ?_
    simp only [Book.value] at hall ⊢
    omega

variable [Fintype K]

/-- Without junior LP the tranche settings have no part in an accrual, and with it they are
fixed. -/
theorem Ledger.AccruesTo.setTranches {n : Nat} (h : l.AccruesTo l₁) (hl : Ledger.Matched l)
    (hm : Ledger.Step l (.setTranches n) l') :
    ∃ l₁', l'.AccruesTo l₁' ∧ l₁'.book.fees = l₁.book.fees ∧
      l₁'.book.seniorPrice = l₁.book.seniorPrice ∧ l₁'.book.juniorPrice = l₁.book.juniorPrice := by
  cases hm with
  | setTranches hmult =>
    by_cases h0 : 0 < l.book.juniorLp
    · have hon : l.book.tranches = true := by
        by_contra hoff
        rw [(hl.no_junior (Bool.eq_false_iff.mpr hoff)).1] at h0
        exact Nat.lt_irrefl 0 h0
      have hsame : ({ l.book with tranches := true, multiplier := n } : Book) = l.book := by
        rw [← hmult h0, ← hon]
      refine ⟨l₁, ?_, rfl, rfl, rfl⟩
      rw [hsame]
      exact h
    · refine ⟨{ l₁ with book := { l₁.book with tranches := true, multiplier := n } }, ?_, rfl, rfl,
        rfl⟩
      rcases h.run with ⟨hacc, rfl⟩ | ⟨f, j, hm⟩
      · exact Ledger.Accrued.accruesTo hacc
      · cases hm with
        | accrue hf hv hs hj =>
          rw [if_neg fun e => h0 e.2] at hj
          have hm : Ledger.Step { l with book := { l.book with tranches := true, multiplier := n } }
              (.accrue f j) _ := .accrue hf hv hs (by rw [if_neg fun e => h0 e.2]; exact hj)
          exact hm.accruesTo

/-- Insurance that comes back. -/
def Move.returns {K : Type} : Move K → Bool
  | .giveBack _ | .recover _ => true
  | _ => false

/-- What settles before a move settles after it, and no lower is its price, the junior one
only if the move brings no insurance back to a surplus. -/
theorem Ledger.AccruesTo.step (h : l.AccruesTo l₁) (hl : Ledger.Matched l) (hs : 0 ≤ l.book.senior)
    (hsupply : 0 < l.book.supply) (hm : Ledger.Step l mv l') (hflush : ∀ x, mv ≠ .flush x)
    (hinflow : ∀ x, mv ≠ .inflow x) :
    ∃ l₁', l'.AccruesTo l₁' ∧ (l₁'.book.fees = l'.book.fees ∨ l₁'.book.fees = l₁.book.fees) ∧
      l₁.book.seniorPrice ≤ l₁'.book.seniorPrice ∧
      ((mv.returns = true → l.Accrued) → 0 < l₁'.book.juniorLp →
        l₁.book.juniorPrice ≤ l₁'.book.juniorPrice) := by
  by_cases hacc : l.Accrued
  · -- there is nothing to settle, before or after
    obtain rfl := h.unique hacc.accruesTo
    refine ⟨l', (hm.keeps_accrued hacc hsupply hinflow).accruesTo, .inl rfl,
      (hl.senior_step hs hm hflush).2, fun _ hpos => hl.junior_step hm hflush ?_⟩
    rintro k lp x rfl
    cases hm
    exact absurd hpos (Nat.lt_irrefl 0)
  · cases hm with
    | deposit _ _ h0 | depositJunior _ _ h0 | withdraw _ _ h0 | withdrawJunior _ _ h0
    | exitJunior _ _ h0 => exact (hacc h0).elim
    | flush => exact (hflush _ rfl).elim
    | inflow => exact (hinflow _ rfl).elim
    | @accrue f j hf hv hsup hj =>
      have hm : Ledger.Step l (.accrue f j) _ := .accrue hf hv hsup hj
      obtain rfl := h.unique hm.accruesTo
      exact ⟨_, hm.accrued.accruesTo, .inl rfl, le_refl _, fun _ _ => le_refl _⟩
    | @giveBack x =>
      obtain ⟨l₁', hsettles, hfees, hlp, hsenior⟩ := h.refunded (x := x) (y := 0) hs hsupply
      exact ⟨l₁', hsettles, .inr hfees, Book.seniorPrice_le_of hlp hsenior,
        fun h0 => (hacc (h0 rfl)).elim⟩
    | @recover x =>
      obtain ⟨l₁', hsettles, hfees, hlp, hsenior⟩ := h.refunded (x := x) (y := x) hs hsupply
      exact ⟨l₁', hsettles, .inr hfees, Book.seniorPrice_le_of hlp hsenior,
        fun h0 => (hacc (h0 rfl)).elim⟩
    | setTranches hmult =>
      obtain ⟨l₁', hsettles, hfees, hsenior, hjunior⟩ := h.setTranches hl (.setTranches hmult)
      exact ⟨l₁', hsettles, .inr hfees, hsenior.ge, fun _ _ => hjunior.ge⟩

end

/-! ## The accrual of the program -/

section

variable {p q : StakePool} {b : UInt64} {f : Pubkey → Position} {l₁ : Ledger Pubkey}

theorem accrueFeesInner_accruesTo (h : accrueFeesInner p b = .ok q) :
    Ledger.AccruesTo ⟨p.book, b.toNat, f⟩ ⟨q.book, b.toNat, f⟩ := accrueFeesInner_run h

/-- The program books a surplus if the ledger can and the sums fit. -/
theorem accrueFeesInner_of_surplus {fee j : Nat} (hf : 0 < fee)
    (hb : (b.toNat : Int) = p.book.value + fee) (hs : 0 < p.book.supply)
    (hj : if p.book.tranches = true ∧ 0 < p.book.juniorLp then
        0 ≤ p.book.senior ∧ j = p.book.juniorShare fee ∧
          (p.book.juniorBalance + j : Int) ≤ p.book.value + fee
      else j = 0)
    (hnonneg : 0 ≤ p.book.value) (hfees : p.book.fees + fee < 2 ^ 64) :
    ∃ q, accrueFeesInner p b = .ok q := by
  have hlt64 := b.toNat_lt
  obtain ⟨v, hv, ev⟩ := StakePool.totalPoolValue_isSome hnonneg (by omega)
  have hlt : v.toNat < b.toNat := by omega
  have hdelta : (b - v).toNat = fee := by
    rw [UInt64.toNat_sub_of_le _ _ (UInt64.le_iff_toNat_le.mpr hlt.le)]
    omega
  have hsum : (UInt64.ofNat (p.book.fees + fee)).toNat = p.book.fees + (b - v).toNat := by
    rw [toNat_ofNat hfees, hdelta]
  simp only [accrueFeesInner_eq_ok, hv, Option.some_inj, exists_eq_left',
    if_pos (And.intro (UInt64.lt_iff_toNat_lt.mpr hlt) (pos_iff.mpr hs))]
  by_cases ht : p.trancheEnabled = true ∧ 0 < p.juniorTotalLp
  · have ht' : p.book.tranches = true ∧ 0 < p.book.juniorLp := ⟨ht.1, pos_iff.mp ht.2⟩
    rw [if_pos ht'] at hj
    obtain ⟨hsenior, rfl, hfit⟩ := hj
    obtain ⟨s, hs', es⟩ := StakePool.seniorBalance_isSome hsenior (by omega)
    simp only [if_pos ht, hs', Option.some_inj, exists_eq_left', accrueJuniorFee_eq_ok]
    have hshare : (Math.distributeFees p.juniorBalance s p.juniorFeeMultBps (b - v)).1.toNat =
        p.book.juniorShare fee := by
      rw [Math.distributeFees_junior, Book.juniorShare, hdelta, es, Int.toNat_natCast]
      rfl
    have hval : (StakePool.book { p with
        totalFeesEarned := UInt64.ofNat (p.book.fees + fee) }).value = b.toNat := by
      rw [StakePool.book_fees, Book.value_fees, hsum]
      omega
    -- the junior balance stays within the vault
    have hjb : (UInt64.ofNat (p.book.juniorBalance + p.book.juniorShare fee)).toNat =
        p.book.juniorBalance + p.book.juniorShare fee := toNat_ofNat (by omega)
    refine ⟨_, _, hsum, UInt64.ofNat (p.book.juniorBalance + p.book.juniorShare fee), b, ?_, hval,
      ?_, rfl⟩
    · rw [hjb, ← hshare]
      rfl
    · rw [hjb]
      omega
  · simp only [if_neg ht]
    exact ⟨_, _, hsum, rfl⟩

/-- The program can settle whatever ledger can be settled with fees that fit. -/
theorem accrueFeesInner_of_accruesTo (h : Ledger.AccruesTo ⟨p.book, b.toNat, f⟩ l₁)
    (hnonneg : 0 ≤ p.book.value) (hvalue : p.book.value < 2 ^ 64)
    (hfees : l₁.book.fees < 2 ^ 64) :
    ∃ q, accrueFeesInner p b = .ok q ∧ l₁ = ⟨q.book, b.toNat, f⟩ := by
  have hok : ∃ q, accrueFeesInner p b = .ok q := by
    rcases h.run with ⟨hacc, -⟩ | ⟨fee, j, hm⟩
    · -- nothing to book
      have hall : p.book.supply = 0 ∨ (b.toNat : Int) ≤ p.book.value := hacc
      obtain ⟨v, hv, ev⟩ := StakePool.totalPoolValue_isSome hnonneg hvalue
      refine ⟨p, accrueFeesInner_eq_ok.mpr ⟨v, hv, ?_⟩⟩
      rw [if_neg]
      rintro ⟨hlt, hpos⟩
      have hlt := UInt64.lt_iff_toNat_lt.mp hlt
      have hpos : 0 < p.book.supply := pos_iff.mp hpos
      omega
    · cases hm with
      | accrue hf hb hs hj => exact accrueFeesInner_of_surplus hf hb hs hj hnonneg hfees
  obtain ⟨q, hq⟩ := hok
  exact ⟨q, hq, h.unique (accrueFeesInner_accruesTo hq)⟩

end

end PercolatorStake
