import PercolatorStake.DeadShares
import PercolatorStake.HwmDrain
import PercolatorStake.Insurance
import PercolatorStake.Lib.ShareHistory

/-!
# Two tranches side by side

With no more back than went out, an operation of one tranche leaves the other alone, and
neither tranche can be entered while it carries a loss: the gate of a senior deposit looks
at what the loss leaves of the junior balance, that of a junior deposit at the loss itself.
What comes back later therefore adds nothing to LP that was minted before it.
-/

namespace PercolatorStake

open Result Word

/-! ## The books -/

namespace Book

variable {b : Book} {a n x : Nat}

theorem accrued_senior_nonneg {f j : Nat} (hs : 0 ≤ b.senior)
    (hj : (b.juniorBalance + j : Int) ≤ b.value + f ∨ j = 0) : 0 ≤ (b.accrued f j).senior := by
  simp only [accrued, senior, value, effectiveJunior, netLoss] at hs hj ⊢
  omega

/-- The senior tranche carries no loss while the junior balance covers it. -/
theorem netLoss_le_iff (hle : b.returned ≤ b.flushed) :
    b.netLoss ≤ b.juniorBalance ↔ b.senior = b.gross - b.juniorBalance := by
  simp only [senior, value, effectiveJunior, netLoss, gross]
  omega

theorem deposit_effectiveJunior (b : Book) (a n : Nat) :
    (b.deposit a n false).effectiveJunior = b.effectiveJunior ∧
      (b.deposit a n false).juniorLp = b.juniorLp :=
  ⟨rfl, rfl⟩

theorem depositJunior_isolated (hle : b.returned ≤ b.flushed)
    (hgate : b.flushed ≤ b.returned - b.realized) :
    (b.deposit a n true).effectiveJunior = b.effectiveJunior + a ∧
      (b.deposit a n true).senior = b.senior := by
  simp only [deposit, senior, value, effectiveJunior, netLoss]
  omega

/-- The junior tranche pays its own withdrawals, while some of it is left. -/
theorem withdrawJunior_senior (hx : x ≤ b.effectiveJunior) :
    ({ b.debited n x with
      juniorLp := b.juniorLp - n, juniorBalance := b.juniorBalance - x } : Book).senior =
      b.senior := by
  simp only [debited, senior, value, effectiveJunior, netLoss] at hx ⊢
  omega

/-- The last junior leaves to the senior tranche what is not paid out. -/
theorem exitJunior_senior :
    ({ (b.debited n x).settled with juniorLp := 0, juniorBalance := 0 } : Book).senior + x =
      b.senior + b.effectiveJunior := by
  simp only [settled, debited, senior, value, effectiveJunior, netLoss]
  omega

/-- Insurance comes back after a senior deposit, made with no loss on the senior side: the
senior value is what it was, and the deposit. -/
theorem refund_deposit_senior {y : Nat} (hgate : b.netLoss ≤ b.juniorBalance)
    (hjunior : b.juniorLp ≤ b.supply) (hle : b.returned + x ≤ b.flushed) :
    ((b.deposit a n false).refund x y).senior = b.senior + a ∧
      ((b.deposit a n false).refund x y).seniorLp = b.seniorLp + n := by
  simp only [refund, deposit, senior, value, effectiveJunior, netLoss, seniorLp] at hgate hle ⊢
  omega

theorem refund_deposit_value (b : Book) (a n x y : Nat) :
    ((b.deposit a n false).refund x y).value = b.value + a + x := by
  simp only [refund, deposit, value]
  omega

end Book

/-! ## What comes back -/

/-- Insurance comes back, or time passes. -/
def Event.refunds : Event → Bool
  | .instruction (.returnInsurance _) _ | .instruction (.recoverFlushedInsurance _) _ => true
  | .outside x => x == 0
  | _ => false

/-- Some insurance has come back, and nothing else has happened. -/
def Ledger.Refunded {K : Type} (l l' : Ledger K) : Prop :=
  ∃ x y : Nat, l' = ⟨l.book.refund x y, l.vault + x, l.position⟩

theorem Ledger.Refunded.step {K : Type} [DecidableEq K] {l₀ l l' : Ledger K} {x : Nat} {m : Move K}
    (h : Refunded l₀ l) (hm : Ledger.Step l m l')
    (hx : m = .inflow 0 ∨ m = .giveBack x ∨ m = .recover x) : Refunded l₀ l' := by
  obtain ⟨r, y, rfl⟩ := h
  rcases hx with rfl | rfl | rfl
  · cases hm
    exact ⟨r, y, rfl⟩
  · cases hm
    refine ⟨r + x, y, ?_⟩
    simp only [Book.refund, Nat.add_assoc]
  · cases hm
    refine ⟨r + x, y + x, ?_⟩
    simp only [Book.refund, Nat.add_assoc]

section

variable {ctx : Context} {π : Pubkey} {w w' : World} {p p' q : StakePool} {t t' : TokenAccount}
  {m : Mint} {e : Event} {es later : List Event} {accounts : List AccountInfo} {X : Nat}
  {amount lp s : UInt64}

theorem Valid.refunded (h : Valid ctx π X w p t m) (hlater : ∀ e ∈ later, e.refunds = true)
    (hrun : Transition.Run (ctx.Step π) w later w') :
    ∃ X' p' t' m', Valid ctx π X' w' p' t' m' ∧
      Ledger.Refunded (ledgerOf ctx π w p t) (ledgerOf ctx π w' p' t') := by
  refine hrun.invariant (I := fun u => ∃ X' p' t' m', Valid ctx π X' u p' t' m' ∧
    Ledger.Refunded (ledgerOf ctx π w p t) (ledgerOf ctx π u p' t')) ?_ ⟨X, p, t, m, h, 0, 0, rfl⟩
  intro e he u u' hu hs
  obtain ⟨X', q, t₁, m₁, hvalid, hrefunded⟩ := hu
  obtain ⟨q', t₂, m₂, ms, hvalid', hreal, hrun⟩ := hvalid.step hs
  have he := hlater e he
  refine ⟨_, q', t₂, m₂, hvalid', ?_⟩
  cases e with
  | outside x =>
    cases hreal
    obtain ⟨l, hm, hl⟩ := hrun
    rw [← show l = _ from hl]
    rw [beq_iff_eq.mp he] at hm
    exact hrefunded.step (x := 0) hm (.inl rfl)
  | instruction ix accounts =>
    cases ix with
    | returnInsurance x =>
      cases hreal
      obtain ⟨l, hm, hl⟩ := hrun
      rw [← show l = _ from hl]
      exact hrefunded.step hm (.inr (.inl rfl))
    | recoverFlushedInsurance x =>
      cases hreal
      obtain ⟨l, hm, hl⟩ := hrun
      rw [← show l = _ from hl]
      exact hrefunded.step hm (.inr (.inr rfl))
    | _ => cases he

/-! ## The senior side of a pool -/

theorem StakePool.seniorBalance_eq (hs : q.seniorBalance = some s) (hv : p.book.value < 2 ^ 64)
    (h : p.book.senior = q.book.senior) : p.seniorBalance = some s := by
  have hsenior := StakePool.senior_of_seniorBalance hs
  obtain ⟨s', hs', e⟩ := StakePool.seniorBalance_isSome (p := p) (by omega) hv
  rw [hs', Option.some_inj, ← UInt64.toNat_inj]
  omega

/-- An accrual leaves the senior value defined and all that is in the vault on the books,
if there is LP to book it for. -/
theorem accrued_senior (h : Valid ctx π X w p t m) (hs : p.seniorBalance.isSome = true)
    (hq : accrueFeesInner p t.amount = .ok q) :
    (∃ s, q.seniorBalance = some s) ∧ (0 < p.totalLpSupply → q.totalPoolValue = some t.amount) ∧
      q.book.returned = p.book.returned ∧ q.book.flushed = p.book.flushed ∧
      q.book.tranches = p.book.tranches ∧ q.book.withdrawn = p.book.withdrawn := by
  have hsenior := (StakePool.seniorBalance_isSome_iff h.value_lt).mp hs
  have hle := h.sound.toBalanced.value_le
  change p.book.value ≤ t.amount.toNat at hle
  obtain ⟨-, ⟨hbook, hall⟩ | ⟨f, j, hf, hpos, hv, hbook, hj⟩⟩ := accrueFeesInner_book hq
  · have hnonneg : 0 ≤ q.book.senior := by
      rw [hbook]
      exact hsenior
    have hlt : q.book.value < 2 ^ 64 := by
      rw [hbook]
      exact h.value_lt
    obtain ⟨s, hs', -⟩ := StakePool.seniorBalance_isSome hnonneg hlt
    refine ⟨⟨s, hs'⟩, ?_, ?_⟩
    · intro hsupply
      have hsupply : 0 < p.book.supply := pos_iff.mp hsupply
      rw [StakePool.totalPoolValue_eq_some, hbook]
      omega
    · rw [hbook]
      exact ⟨rfl, rfl, rfl, rfl⟩
  · have hvalue : q.book.value = t.amount.toNat := by
      rw [hbook]
      simp only [Book.accrued, Book.value] at hv ⊢
      omega
    have hnonneg : 0 ≤ q.book.senior := by
      rw [hbook]
      apply Book.accrued_senior_nonneg hsenior
      split at hj
      · exact .inl hj.2.2
      · exact .inr hj
    have hlt := t.amount.toNat_lt
    obtain ⟨s, hs', -⟩ := StakePool.seniorBalance_isSome hnonneg (by omega)
    refine ⟨⟨s, hs'⟩, fun _ => StakePool.totalPoolValue_eq_some.mpr hvalue, ?_⟩
    rw [hbook]
    exact ⟨rfl, rfl, rfl, rfl⟩

/-! ## One operation -/

/-- The junior tranche of `q` is that of `p`. -/
def SameJunior (q p : StakePool) : Prop :=
  p.effectiveJuniorBalance = q.effectiveJuniorBalance ∧ p.juniorTotalLp = q.juniorTotalLp

theorem sameJunior_of_book (h : p.book.effectiveJunior = q.book.effectiveJunior)
    (hlp : p.book.juniorLp = q.book.juniorLp) : SameJunior q p := by
  refine ⟨?_, UInt64.toNat_inj.mp hlp⟩
  rw [← UInt64.toNat_inj, StakePool.toNat_effectiveJuniorBalance,
    StakePool.toNat_effectiveJuniorBalance, h]

theorem DepositRun.sameJunior (r : DepositRun ctx w accounts false amount w') :
    SameJunior r.accrued r.final := by
  have hbook : r.final.book = r.accrued.book.deposit amount.toNat r.lp.toNat false :=
    r.charter_final.2.trans r.book_booked.2
  obtain ⟨heff, hlp⟩ := r.accrued.book.deposit_effectiveJunior amount.toNat r.lp.toNat
  rw [← hbook] at heff hlp
  exact sameJunior_of_book heff hlp

/-- A junior deposit inherits no loss, and the senior value does not see it. -/
theorem DepositRun.isolated (r : DepositRun ctx w accounts true amount w')
    (hle : r.accrued.book.returned ≤ r.accrued.book.flushed)
    (hs : r.accrued.seniorBalance = some s) (hv : r.final.book.value < 2 ^ 64) :
    r.final.effectiveJuniorBalance.toNat = r.accrued.effectiveJuniorBalance.toNat + amount.toNat ∧
      r.final.seniorBalance = some s := by
  have hbook : r.final.book = r.accrued.book.deposit amount.toNat r.lp.toNat true :=
    r.charter_final.2.trans r.book_booked.2
  obtain ⟨heff, hsenior⟩ := Book.depositJunior_isolated (a := amount.toNat) (n := r.lp.toNat) hle
    (juniorDepositGate_eq_ok.mp r.gate)
  rw [← hbook] at heff hsenior
  refine ⟨?_, StakePool.seniorBalance_eq hs hv hsenior⟩
  rw [StakePool.toNat_effectiveJuniorBalance, StakePool.toNat_effectiveJuniorBalance, heff]

/-- What a withdrawal of LP of the tranche `junior` does to the other one. -/
def WithdrawIsolated (q p : StakePool) (junior : Bool) (lp s : UInt64) (paid : Nat) : Prop :=
  if junior = true then
    p.seniorTotalLp = q.seniorTotalLp ∧ ∃ s', p.seniorBalance = some s' ∧
      if lp = q.juniorTotalLp then
        paid ≤ q.effectiveJuniorBalance.toNat ∧
          s'.toNat = s.toNat + (q.effectiveJuniorBalance.toNat - paid)
      else s' = s
  else SameJunior q p

theorem WithdrawRun.isolated (r : WithdrawRun ctx w accounts lp w')
    (ht : r.accrued.book.tranches = true) (hs : r.accrued.seniorBalance = some s)
    (hv : r.final.book.value < 2 ^ 64) :
    WithdrawIsolated r.accrued r.final r.deposit.isJuniorDeposit lp s r.amount.toNat := by
  obtain ⟨-, hsupply, hbook⟩ := bookWithdraw_book r.book_eq
  rw [r.book_floored.2] at hsupply hbook
  have hprice := priceWithdraw_spec r.price_eq
  unfold WithdrawIsolated
  by_cases hj : r.deposit.isJuniorDeposit = true
  · rw [if_pos ⟨ht, hj⟩] at hbook hprice
    rw [if_pos hj]
    have heff := StakePool.toNat_effectiveJuniorBalance r.accrued
    have hsenior := StakePool.senior_of_seniorBalance hs
    rcases hbook with ⟨hlast, hbook⟩ | ⟨hrest, hle, hbook⟩
    · have hpaid : r.amount.toNat ≤ r.accrued.book.effectiveJunior :=
        hprice ▸ Shares.redeemed_le_value hlast.le
      have hsum := Book.exitJunior_senior (b := r.accrued.book) (n := lp.toNat)
        (x := r.amount.toNat)
      rw [← hbook] at hsum
      obtain ⟨s', hs', e⟩ := StakePool.seniorBalance_isSome (p := r.final) (by omega) hv
      refine ⟨?_, s', hs', ?_⟩
      · rw [← UInt64.toNat_inj, StakePool.toNat_seniorTotalLp, StakePool.toNat_seniorTotalLp, hbook]
        show r.accrued.book.supply - lp.toNat - 0 = r.accrued.book.supply - r.accrued.book.juniorLp
        omega
      · rw [if_pos (UInt64.toNat_inj.mp hlast), heff]
        exact ⟨hpaid, by omega⟩
    · have hpaid : r.amount.toNat ≤ r.accrued.book.effectiveJunior :=
        hprice ▸ Shares.redeemed_le_value hrest.le
      have hsame := Book.withdrawJunior_senior (n := lp.toNat) hpaid
      rw [← hbook] at hsame
      refine ⟨?_, s, StakePool.seniorBalance_eq hs hv hsame, ?_⟩
      · rw [← UInt64.toNat_inj, StakePool.toNat_seniorTotalLp, StakePool.toNat_seniorTotalLp, hbook]
        show r.accrued.book.supply - lp.toNat - (r.accrued.book.juniorLp - lp.toNat) =
          r.accrued.book.supply - r.accrued.book.juniorLp
        omega
      · rw [if_neg]
        intro h
        exact Nat.ne_of_lt hrest (congrArg UInt64.toNat h)
  · rw [if_neg (fun h => hj h.2)] at hbook
    rw [if_neg hj]
    have heff : r.final.book.effectiveJunior = r.accrued.book.effectiveJunior := by
      rw [hbook]
      rfl
    have hlp : r.final.book.juniorLp = r.accrued.book.juniorLp := by
      rw [hbook]
      rfl
    exact sameJunior_of_book heff hlp

/-! ## No snipe -/

/-- With everything in the vault on the books there is nothing to accrue. -/
theorem accrueFeesInner_settled {b : UInt64} (hq : accrueFeesInner p b = .ok q)
    (hv : p.book.value = b.toNat) : q.book = p.book := by
  obtain ⟨-, ⟨hsame, -⟩ | ⟨f, j, hf, -, hfee, -, -⟩⟩ := accrueFeesInner_book hq
  · exact hsame
  · omega

theorem WithdrawRun.junior_eq (r : WithdrawRun ctx w accounts lp w') (h : Standing ctx π w p t m)
    (hpool : ∃ a, accounts[1]? = some a ∧ a.key = π) : r.deposit.isJuniorDeposit =
      (w.positions ctx.programId π (ctx.depositPda π r.a.user.key)).junior := by
  obtain ⟨hπ, -, -⟩ := r.standing_eq h hpool
  obtain ⟨hpda, hrec⟩ := r.record_eq
  rw [hpda, hπ] at hrec
  have hold := h.position_eq r.a.user.key (d := r.deposit) (by
    rw [World.recordOrZeroed, World.record_eq_some.mpr hrec]
    rfl)
  rw [hold]

theorem DepositRun.mintAmount_le {junior : Bool} (r : DepositRun ctx w accounts junior amount w') :
    r.mintAmount.toNat ≤ r.lp.toNat := by
  have hlock := applyMinimumLiquidityLock_eq_ok r.lock_eq
  omega

/-- LP minted for `amount` on the pool `p` redeems for at most `amount`, after whatever
insurance comes back as long as no more is back than went out. -/
def Unsniped (ctx : Context) (π : Pubkey) (w : World) (p : StakePool) (amount : UInt64)
    (accounts : List AccountInfo) (w₁ : World) : Prop :=
  ∀ later w₂ p₂ lp accounts' w₃ m m₁, (∀ e ∈ later, e.refunds = true) →
    Transition.Run (ctx.Step π) w₁ later w₂ → w₂.pool ctx.programId π = some p₂ →
    p₂.totalReturned ≤ p₂.totalFlushed →
    accounts'[0]?.map AccountInfo.key = accounts[0]?.map AccountInfo.key →
    w.mint p.lpMint = some m → w₁.mint p.lpMint = some m₁ →
    m.supply.toNat + lp.toNat ≤ m₁.supply.toNat →
    ctx.Step π w₂ (.instruction (.withdraw lp) accounts') w₃ →
    ∃ p₃, w₃.pool ctx.programId π = some p₃ ∧ payout p₂ p₃ ≤ amount.toNat

theorem Valid.unsniped {w₁ : World} (h : Valid ctx π X w p t m) (ht : p.trancheEnabled = true)
    (hs : ctx.Step π w (.instruction (.deposit amount) accounts) w₁)
    (hq : accrueFeesInner p t.amount = .ok q) (hbooked : q.totalPoolValue = some t.amount) :
    Unsniped ctx π w p amount accounts w₁ := by
  intro later w₂ p₂ lp accounts' w₃ m₀ m₁ hlater hrun hp₂ hle huser hm₀ hm₁ hlp hwithdraw
  obtain ⟨p', t', m', -, hvalid', -, -⟩ := h.step hs
  obtain ⟨hpool, hsign, hd⟩ := hs
  obtain ⟨r⟩ := processDeposit_eq_ok.mp hd
  obtain ⟨v, supply, hv, hsup, hst', hcharter, -, hpos⟩ := r.settled h.standing hpool hsign
  obtain rfl : p' = r.final :=
    Option.some_inj.mp (hvalid'.standing.pool_eq.symm.trans hst'.pool_eq)
  obtain ⟨hπ, -, hacc⟩ := r.standing_eq h.standing hpool
  obtain rfl : q = r.accrued := Except.ok.inj (hq.symm.trans hacc)
  obtain ⟨X', p'', t₂, m₂, hvalid₂, x, y, hrefunded⟩ := hvalid'.refunded hlater hrun
  obtain rfl : p₂ = p'' := Option.some_inj.mp (hp₂.symm.trans hvalid₂.standing.pool_eq)
  obtain ⟨hpool₂, -, hd₂⟩ := hwithdraw
  obtain ⟨r₂⟩ := processWithdraw_eq_ok.mp hd₂
  obtain ⟨v₃, s₃, -, -, hst₃, -⟩ := r₂.settled hvalid₂.standing hpool₂
  refine ⟨r₂.final, hst₃.pool_eq, ?_⟩
  rw [r₂.payout_eq hvalid₂.standing hpool₂]
  -- the books and the vault after the deposit and after what came back
  have hfinal : r.final.book = r.accrued.book.deposit amount.toNat r.lp.toNat false :=
    r.charter_final.2.trans r.book_booked.2
  have hbook₂ : p₂.book = (r.accrued.book.deposit amount.toNat r.lp.toNat false).refund x y := by
    rw [← hfinal]
    exact congrArg Ledger.book hrefunded
  have hvault₂ : t₂.amount.toNat = t.amount.toNat + amount.toNat + x := by
    have hsum : t₂.amount.toNat = t'.amount.toNat + x := congrArg Ledger.vault hrefunded
    rw [hsum, Option.some_inj.mp (hvalid'.standing.vault_eq.symm.trans hst'.vault_eq), ← hv]
  have hpos₂ : w₂.positions ctx.programId π = w₁.positions ctx.programId π :=
    congrArg Ledger.position hrefunded
  have hon : r.accrued.book.tranches = true := (accrueFeesInner_tranches hacc).trans ht
  have hback : r.accrued.book.returned + x ≤ r.accrued.book.flushed := by
    have hle := UInt64.le_iff_toNat_le.mp hle
    change p₂.book.returned ≤ p₂.book.flushed at hle
    rw [hbook₂] at hle
    exact hle
  have hjuniorLp : r.accrued.book.juniorLp ≤ r.accrued.book.supply := by
    obtain ⟨-, ms, -, haccrual⟩ := accrueFeesInner_run (f := w.positions ctx.programId π) hacc
    exact (h.sound.run haccrual).toMatched.seniorLp_eq.1
  obtain ⟨hsenior, hseniorLp⟩ := Book.refund_deposit_senior (a := amount.toNat) (n := r.lp.toNat)
    (y := y) (seniorDepositGate_eq_ok.mp r.gate hon) hjuniorLp hback
  rw [← hbook₂] at hsenior hseniorLp
  -- everything in the vault is on the books, so there is nothing to accrue
  have haccrued₂ : r₂.accrued.book = p₂.book := by
    obtain ⟨-, -, hacc₂⟩ := r₂.standing_eq hvalid₂.standing hpool₂
    apply accrueFeesInner_settled hacc₂
    rw [hbook₂, Book.refund_deposit_value, StakePool.totalPoolValue_eq_some.mp hbooked, hvault₂]
    omega
  have hjunior : r₂.deposit.isJuniorDeposit = false := by
    rw [(WithdrawAccounts.next_eq_ok r₂.next_eq).1, (DepositAccounts.next_eq_ok r.next_eq).1,
      Option.map_some, Option.map_some, Option.some_inj] at huser
    rw [r₂.junior_eq hvalid₂.standing hpool₂, hpos₂, hpos, huser, Function.update_self]
  have hminted : lp.toNat ≤ r.lp.toNat := by
    obtain rfl : m = m₀ := Option.some_inj.mp (h.standing.mint_eq.symm.trans hm₀)
    have hmint := hst'.mint_eq
    rw [lpMint_of_charter hcharter, hm₁, Option.some_inj] at hmint
    rw [hmint, show ({ m with supply := supply } : Mint).supply = supply from rfl, hsup] at hlp
    have hle := r.mintAmount_le
    omega
  have hprice := (priceDeposit_spec r.price_eq).2.1
  rw [Book.ownValue, Book.ownLp, if_pos hon, if_pos hon] at hprice
  have hnonneg := (priceDeposit_spec r.price_eq).1
  rw [Book.ownValue, if_pos hon] at hnonneg
  have hpaid := priceWithdraw_spec r₂.price_eq
  have hon₂ : p₂.book.tranches = true := by
    rw [hbook₂]
    exact hon
  have hend : p₂.book.senior.toNat = r.accrued.book.senior.toNat + amount.toNat := by omega
  rw [haccrued₂, hjunior, if_neg (fun e => Bool.false_ne_true e.2), Book.ownValue, Book.ownLp,
      if_pos hon₂, if_pos hon₂,
    hseniorLp, hend] at hpaid
  rw [hpaid.2]
  exact Shares.redeemed_minted_le hprice hminted

/-- Two tranches from any reachable state with tranches, a senior value and no more back
than out, read after the accrual in front of every pricing.  The senior gate is open
exactly while the senior side carries no loss.  LP of a senior deposit is not worth more
than was paid for it when insurance comes back, if that accrual left nothing in the vault
unbooked, and it leaves nothing while there is LP.  A junior deposit adds itself to the
junior side, and only the exit of the last junior leaves anything to the senior one. -/
theorem tranche_isolation (h : ctx.Reached π es w) (hp : w.pool ctx.programId π = some p)
    (ht : w.token p.vault = some t) (htranche : p.trancheEnabled = true)
    (hsenior : p.seniorBalance.isSome = true) (hle : p.totalReturned ≤ p.totalFlushed)
    (hq : accrueFeesInner p t.amount = .ok q) :
    ∃ s, q.seniorBalance = some s ∧
      (0 < p.totalLpSupply → q.totalPoolValue = some t.amount) ∧
      (seniorDepositGate q = .ok () ↔ (s.toNat : Int) = q.totalDeposited.toNat -
        q.totalWithdrawn.toNat + q.totalFeesEarned.toNat - q.realizedJuniorLoss.toNat -
          q.juniorBalance.toNat) ∧
      (∀ amount accounts w₁, ctx.Step π w (.instruction (.deposit amount) accounts) w₁ →
        (∃ p₁, w₁.pool ctx.programId π = some p₁ ∧ SameJunior q p₁) ∧
        (q.totalPoolValue = some t.amount → Unsniped ctx π w p amount accounts w₁)) ∧
      (∀ amount accounts w₁, ctx.Step π w (.instruction (.depositJunior amount) accounts) w₁ →
        ∃ p₁, w₁.pool ctx.programId π = some p₁ ∧
          p₁.effectiveJuniorBalance.toNat = q.effectiveJuniorBalance.toNat + amount.toNat ∧
          p₁.seniorBalance = some s) ∧
      ∀ lp accounts w₁, ctx.Step π w (.instruction (.withdraw lp) accounts) w₁ →
        ∃ user d p₁, accounts[0]? = some user ∧
          w.record ctx.programId (ctx.depositPda π user.key) = some d ∧
          w₁.pool ctx.programId π = some p₁ ∧
          WithdrawIsolated q p₁ d.isJuniorDeposit lp s (payout p p₁) := by
  obtain ⟨p', t', m, hvalid⟩ := h.stands
  obtain rfl : p = p' := Option.some_inj.mp (hp.symm.trans hvalid.standing.pool_eq)
  obtain rfl : t = t' := Option.some_inj.mp (ht.symm.trans hvalid.standing.vault_eq)
  obtain ⟨⟨s, hs⟩, hbooked, hreturned, hflushed, hon, -⟩ := accrued_senior hvalid hsenior hq
  have hon : q.book.tranches = true := hon.trans htranche
  have hback : q.book.returned ≤ q.book.flushed := by
    rw [hreturned, hflushed]
    exact UInt64.le_iff_toNat_le.mp hle
  refine ⟨s, hs, hbooked, ?_, ?_, ?_, ?_⟩
  · rw [seniorDepositGate_eq_ok, ← StakePool.senior_of_seniorBalance hs]
    have hgate := Book.netLoss_le_iff hback
    constructor
    · intro hg
      exact hgate.mp (hg hon)
    · intro hg _
      exact hgate.mpr hg
  · intro amount accounts w₁ hstep
    refine ⟨?_, fun hall => hvalid.unsniped htranche hstep hq hall⟩
    obtain ⟨hpool, hsign, hd⟩ := hstep
    obtain ⟨r⟩ := processDeposit_eq_ok.mp hd
    obtain ⟨v, supply, -, -, hst', -⟩ := r.settled hvalid.standing hpool hsign
    obtain ⟨-, -, hacc⟩ := r.standing_eq hvalid.standing hpool
    obtain rfl : q = r.accrued := Except.ok.inj (hq.symm.trans hacc)
    exact ⟨r.final, hst'.pool_eq, r.sameJunior⟩
  · intro amount accounts w₁ hstep
    obtain ⟨p₁, t₁, m₁, -, hvalid₁, -, -⟩ := hvalid.step hstep
    obtain ⟨hpool, hsign, hd⟩ := hstep
    obtain ⟨r⟩ := processDepositJunior_eq_ok.mp hd
    obtain ⟨v, supply, -, -, hst', -⟩ := r.settled hvalid.standing hpool hsign
    obtain ⟨-, -, hacc⟩ := r.standing_eq hvalid.standing hpool
    obtain rfl : q = r.accrued := Except.ok.inj (hq.symm.trans hacc)
    obtain rfl : p₁ = r.final :=
      Option.some_inj.mp (hvalid₁.standing.pool_eq.symm.trans hst'.pool_eq)
    obtain ⟨hjunior, hsame⟩ := r.isolated hback hs hvalid₁.value_lt
    exact ⟨r.final, hst'.pool_eq, hjunior, hsame⟩
  · intro lp accounts w₁ hstep
    obtain ⟨p₁, t₁, m₁, -, hvalid₁, -, -⟩ := hvalid.step hstep
    obtain ⟨hpool, -, hd⟩ := hstep
    obtain ⟨r⟩ := processWithdraw_eq_ok.mp hd
    obtain ⟨v, supply, -, -, hst', -⟩ := r.settled hvalid.standing hpool
    obtain ⟨hπ, -, hacc⟩ := r.standing_eq hvalid.standing hpool
    obtain rfl : q = r.accrued := Except.ok.inj (hq.symm.trans hacc)
    obtain rfl : p₁ = r.final :=
      Option.some_inj.mp (hvalid₁.standing.pool_eq.symm.trans hst'.pool_eq)
    obtain ⟨hpda, hrec⟩ := r.record_eq
    rw [hpda, hπ] at hrec
    refine ⟨r.a.user, r.deposit, r.final, (WithdrawAccounts.next_eq_ok r.next_eq).1,
      World.record_eq_some.mpr hrec, hst'.pool_eq, ?_⟩
    rw [r.payout_eq hvalid.standing hpool]
    exact r.isolated hon hs hvalid₁.value_lt

end

namespace Sample

/-- Collateral is sent to a pool with tranches before anybody deposits. -/
def baited : List Action := [enableTranches, .send 50000]

/-- Its first depositor takes it: 2000 LP, minted for 3000, redeem for more, and nothing
has come back. -/
theorem baited_snipe :
    Sample.ctx.Reached pool (baited.map Action.event) (after baited) ∧
    Sample.ctx.Step pool (after baited) (deposit alice 3000).event
      (after (baited ++ [deposit alice 3000])) ∧
    Transition.Run (Sample.ctx.Step pool) (after (baited ++ [deposit alice 3000])) [.outside 0]
      (after (baited ++ [deposit alice 3000] ++ [.tick ⟨200, 1⟩])) ∧
    Sample.ctx.Step pool (after (baited ++ [deposit alice 3000] ++ [.tick ⟨200, 1⟩]))
      (withdraw alice 2000).event
      (after (baited ++ [deposit alice 3000] ++ [.tick ⟨200, 1⟩] ++ [withdraw alice 2000])) ∧
    ((after baited).mint lpMint).map Mint.supply = some 0 ∧
    ((after (baited ++ [deposit alice 3000])).mint lpMint).map Mint.supply = some 2000 ∧
    ∃ p p₁ p₂, (after baited).pool Sample.ctx.programId pool = some p ∧
      p.trancheEnabled = true ∧ p.seniorBalance = some 0 ∧ p.totalReturned ≤ p.totalFlushed ∧
      seniorDepositGate p = .ok () ∧
      (after (baited ++ [deposit alice 3000] ++ [.tick ⟨200, 1⟩])).pool Sample.ctx.programId pool =
        some p₁ ∧ p₁.totalReturned ≤ p₁.totalFlushed ∧
      (after (baited ++ [deposit alice 3000] ++ [.tick ⟨200, 1⟩] ++ [withdraw alice 2000])).pool
        Sample.ctx.programId pool = some p₂ ∧
      payout p₁ p₂ = 35322 := by
  have h₀ : ((after baited).pool Sample.ctx.programId pool).map (fun p =>
      (p.trancheEnabled, p.seniorBalance, p.totalReturned, p.totalFlushed, p.juniorBalance)) =
      some (true, some 0, 0, 0, 0) := by decide +kernel
  have h₁ : ((after (baited ++ [deposit alice 3000] ++ [.tick ⟨200, 1⟩])).pool
      Sample.ctx.programId pool).map (fun p =>
        (p.totalReturned, p.totalFlushed, p.totalWithdrawn)) =
      some (0, 0, 0) := by decide +kernel
  have h₂ : ((after (baited ++ [deposit alice 3000] ++ [.tick ⟨200, 1⟩] ++
      [withdraw alice 2000])).pool Sample.ctx.programId pool).map (fun p => p.totalWithdrawn) =
      some 35322 := by decide +kernel
  obtain ⟨hthird, hwithdraw⟩ := after_step (run_of_pool h₂)
  obtain ⟨hsecond, htick⟩ := after_run (s := baited ++ [deposit alice 3000])
    (r := [.tick ⟨200, 1⟩]) hthird
  obtain ⟨hfirst, hdeposit⟩ := after_step hsecond
  obtain ⟨p, hp, hp'⟩ := Option.map_eq_some_iff.mp h₀
  obtain ⟨p₁, hp₁, hp₁'⟩ := Option.map_eq_some_iff.mp h₁
  obtain ⟨p₂, hp₂, hpaid⟩ := Option.map_eq_some_iff.mp h₂
  simp only [Prod.mk.injEq] at hp' hp₁'
  obtain ⟨htranche, hsenior, hr, hf, hj⟩ := hp'
  obtain ⟨hr₁, hf₁, hpaid₁⟩ := hp₁'
  refine ⟨after_reached hfirst, hdeposit, htick, hwithdraw, by decide +kernel, by decide +kernel,
    p, p₁, p₂, hp, htranche, hsenior, ?_, ?_, hp₁, ?_, hp₂, ?_⟩
  · rw [hr, hf]
    decide
  · rw [seniorDepositGate_eq_ok]
    intro _
    show p.totalFlushed.toNat - p.totalReturned.toNat ≤ p.juniorBalance.toNat
    rw [hr, hf, hj]
    decide
  · rw [hr₁, hf₁]
    decide
  · unfold payout
    rw [hpaid, hpaid₁]
    decide

/-- A loss within the junior balance, with a senior deposit after it. -/
def sheltered : List Action := [enableTranches, deposit alice 100000, depositJunior bob 50000,
  flush 30000]

theorem tranche_isolation_sheltered :
    ∃ p t q s, (after sheltered).pool Sample.ctx.programId pool = some p ∧
      (after sheltered).token p.vault = some t ∧ accrueFeesInner p t.amount = .ok q ∧
      q.seniorBalance = some s ∧ seniorDepositGate q = .ok () ∧
      Unsniped Sample.ctx pool (after sheltered) p 5000 (depositAccounts alice)
        (after (sheltered ++ [deposit alice 5000])) := by
  obtain ⟨hscript, hdeposit⟩ := after_step (s := sheltered) (a := deposit alice 5000)
    (by decide +kernel)
  have hstate : ((after sheltered).pool Sample.ctx.programId pool).map (fun p =>
      (p.trancheEnabled, p.seniorBalance.isSome, p.totalReturned, p.totalFlushed,
        decide (0 < p.totalLpSupply))) = some (true, true, 0, 30000, true) := by decide +kernel
  obtain ⟨p, hp, hstate⟩ := Option.map_eq_some_iff.mp hstate
  simp only [Prod.mk.injEq, decide_eq_true_eq] at hstate
  obtain ⟨htranche, hsenior, hr, hf, hsupply⟩ := hstate
  obtain ⟨p', t, m, hvalid⟩ := (after_reached hscript).stands
  obtain rfl : p = p' := Option.some_inj.mp (hp.symm.trans hvalid.standing.pool_eq)
  obtain ⟨r⟩ := processDeposit_eq_ok.mp hdeposit.2.2
  obtain ⟨-, -, hq⟩ := r.standing_eq hvalid.standing hdeposit.1
  obtain ⟨s, hs, hbooked, -, hsenior, -, -⟩ := tranche_isolation (after_reached hscript) hp
    hvalid.standing.vault_eq htranche hsenior (by rw [hr, hf]; decide) hq
  exact ⟨p, t, r.accrued, s, hp, hvalid.standing.vault_eq, hq, hs, r.gate,
    (hsenior _ _ _ hdeposit).2 (hbooked hsupply)⟩

end Sample

end PercolatorStake
