import PercolatorStake.Effect.Deposit

/-!
# What a withdrawal does

An accrual and one move of the ledger on the position of the withdrawer: out of
the sub-pool the position belongs to, and out of the junior tranche either leaving
juniors behind or as the last one.
-/

namespace PercolatorStake

open Result Word

theorem WithdrawAccounts.next_eq_ok {accounts : List AccountInfo} {a : WithdrawAccounts}
    (h : WithdrawAccounts.next accounts = .ok a) :
    accounts[0]? = some a.user ∧ accounts[1]? = some a.poolPda := by
  unfold WithdrawAccounts.next at h
  split at h
  · cases h
    exact ⟨rfl, rfl⟩
  · cases h

/-! ## Checks -/

theorem validateWithdraw_eq_ok {ctx : Context} {w : World} {a : WithdrawAccounts} {p : StakePool}
    {u : Unit} (h : validateWithdraw ctx w a p = .ok u) :
    p.lpMint = a.lpMint.key ∧ p.vault = a.vault.key ∧ a.userAta.key ≠ a.vault.key ∧
      a.depositPda.key = ctx.depositPda a.poolPda.key a.user.key ∧
      w.owner a.depositPda = ctx.programId := by
  unfold validateWithdraw at h
  simp only [bind_eq_ok, rejectIf_eq_ok, not_not] at h
  obtain ⟨_, h1, _, h2, _, -, _, -, _, -, _, -, _, h3, _, -, _, -, _, h4, _, h5, -⟩ := h
  exact ⟨h1, h2, h3, h4, h5⟩

theorem checkRecord_eq_ok {w : World} {a : WithdrawAccounts} {p : StakePool} {c : Clock}
    {lp : UInt64} {d : StakeDeposit} :
    checkRecord w a p c lp = .ok d ↔ w.data a.depositPda = .deposit d ∧
      d.validateDiscriminator = true ∧
      (d.isInitialized = 1 ∧ d.user = a.user.key ∧ d.pool = a.poolPda.key) ∧
      saturatingAdd d.lastDepositSlot p.cooldownSlots ≤ c.slot ∧ lp ≤ d.lpAmount := by
  unfold checkRecord
  simp only [bind_eq_ok, rejectIf_eq_ok, ok_eq_ok, depositFromData_eq_ok, not_not, not_or,
    Bool.not_eq_false, gt_iff_lt, UInt64.not_lt]
  refine ⟨?_, ?_⟩
  · rintro ⟨d', hd, -, h1, -, h2, -, h3, -, h4, rfl⟩
    exact ⟨hd, h1, h2, h3, h4⟩
  · rintro ⟨hd, h1, h2, h3, h4⟩
    exact ⟨d, hd, (), h1, (), h2, (), h3, (), h4, rfl⟩

/-! ## Pricing -/

/-- A redemption is priced against the sub-pool of the position. -/
theorem priceWithdraw_spec {p : StakePool} {junior : Bool} {lp x : UInt64}
    (h : priceWithdraw p junior lp = .ok x) :
    if p.book.tranches = true ∧ junior = true then
      x.toNat = Shares.redeemed p.book.juniorLp p.book.effectiveJunior lp.toNat
    else 0 ≤ p.book.ownValue ∧
      x.toNat = Shares.redeemed p.book.ownLp p.book.ownValue.toNat lp.toNat := by
  unfold priceWithdraw at h
  by_cases hj : p.trancheEnabled = true ∧ junior = true
  · have hj' : p.book.tranches = true ∧ junior = true := hj
    rw [if_pos hj, okOr_eq_ok] at h
    rw [if_pos hj', ← StakePool.toNat_effectiveJuniorBalance]
    exact Math.calcCollateralForWithdraw_spec h
  · have hj' : ¬(p.book.tranches = true ∧ junior = true) := hj
    rw [if_neg hj] at h
    rw [if_neg hj']
    unfold Book.ownValue Book.ownLp
    by_cases ht : p.trancheEnabled = true
    · have ht' : p.book.tranches = true := ht
      simp only [if_pos ht, bind_eq_ok, okOr_eq_ok] at h
      obtain ⟨s, hs, hcalc⟩ := h
      have hsenior := StakePool.senior_of_seniorBalance hs
      rw [if_pos ht', if_pos ht', hsenior, Int.toNat_natCast, ← StakePool.toNat_seniorTotalLp]
      exact ⟨Int.natCast_nonneg _, Math.calcCollateralForWithdraw_spec hcalc⟩
    · have ht' : ¬p.book.tranches = true := ht
      rw [if_neg ht, okOr_eq_ok] at h
      unfold StakePool.calcCollateralForWithdraw at h
      simp only [Option.bind_eq_bind, Option.bind_eq_some_iff] at h
      obtain ⟨v, hv, hcalc⟩ := h
      rw [StakePool.totalPoolValue_eq_some] at hv
      rw [if_neg ht', if_neg ht', hv, Int.toNat_natCast]
      exact ⟨Int.natCast_nonneg _, Math.calcCollateralForWithdraw_spec hcalc⟩

theorem enforceHwmFloor_book {p p' : StakePool} {c : Clock} {x : UInt64}
    (h : enforceHwmFloor p c x = .ok p') : p'.charter = p.charter ∧ p'.book = p.book := by
  unfold enforceHwmFloor at h
  simp only [bind_eq_ok, ok_eq_ok] at h
  obtain ⟨v, -, _, -, _, -, rfl⟩ := h
  exact ⟨StakePool.charter_refreshHwm .., StakePool.book_refreshHwm ..⟩

/-! ## Tokens -/

theorem Standing.payOut {ctx : Context} {π : Pubkey} {w w' : World} {p p₁ : StakePool}
    {t : TokenAccount} {m : Mint} (h : Standing ctx π w p t m) {a : WithdrawAccounts}
    {lp x : UInt64} (hvault : p.vault = a.vault.key) (hmint : p.lpMint = a.lpMint.key)
    (hata : a.userAta.key ≠ a.vault.key)
    (hpay : PercolatorStake.payOut ctx w a p₁ lp x = .ok w') :
    ∃ v s : UInt64, t.amount.toNat = v.toNat + x.toNat ∧ m.supply.toNat = s.toNat + lp.toNat ∧
      World.TokensOnly w w' ∧
      Standing ctx π w' p { t with amount := v } { m with supply := s } := by
  unfold PercolatorStake.payOut Context.invoke at hpay
  simp only [bind_eq_ok] at hpay
  obtain ⟨w₁, hburn, _, -, hpay⟩ := hpay
  have hburn := Context.burn_of_invokeSigned hburn
  rw [← hmint] at hburn
  obtain ⟨s, hs, hw₁, h₁⟩ := h.burn hburn
  by_cases hx : x > 0
  · rw [if_pos hx] at hpay
    have htransfer := Context.transfer_of_invokeSigned hpay
    obtain ⟨-, hmove⟩ := SplToken.processTransfer_eq_ok.mp htransfer
    rw [← hvault] at hmove hata
    obtain ⟨v, hv, hw₂, h₂⟩ := h₁.moveOut hata.symm hmove
    exact ⟨v, s, hv, hs, hw₁.trans hw₂, h₂⟩
  · rw [if_neg hx] at hpay
    cases hpay
    rw [gt_iff_lt, pos_iff] at hx
    exact ⟨t.amount, s, by omega, hs, hw₁, h₁⟩

/-! ## Books -/

/-- What the last junior forfeits is booked as returned and as realized. -/
def Book.settled (b : Book) : Book :=
  { b with
    returned := b.returned + (b.juniorBalance - b.effectiveJunior)
    realized := b.realized + (b.juniorBalance - b.effectiveJunior) }

theorem Book.settled_eq {b : Book} (h : b.juniorBalance - b.effectiveJunior = 0) :
    b.settled = b := by
  unfold settled
  rw [h]
  rfl

/-- The settlement does not look at the junior LP. -/
theorem Book.settled_juniorLp (b : Book) (n : Nat) :
    { settled { b with juniorLp := n } with juniorBalance := 0 } =
      { b.settled with juniorLp := n, juniorBalance := 0 } := rfl

theorem settleForfeitedLoss_book {p p' : StakePool} (h : settleForfeitedLoss p = .ok p') :
    p'.charter = p.charter ∧ p'.book = p.book.settled := by
  have hforfeit := p.book.forfeited_le
  have hnet : (saturatingSub p.totalFlushed p.totalReturned).toNat = p.book.netLoss :=
    toNat_saturatingSub ..
  have hf : (lesser (saturatingSub p.juniorBalance p.effectiveJuniorBalance)
      (saturatingSub p.totalFlushed p.totalReturned)).toNat =
      p.book.juniorBalance - p.book.effectiveJunior := by
    rw [toNat_lesser, hnet, toNat_saturatingSub, StakePool.toNat_effectiveJuniorBalance]
    exact Nat.min_eq_left hforfeit
  unfold settleForfeitedLoss at h
  simp only [gt_iff_lt, pos_iff, hnet, hf] at h
  split at h
  · split at h
    · simp only [bind_eq_ok, okOr_eq_ok, ok_eq_ok, checkedAdd_eq_some, hf] at h
      obtain ⟨r, hr, l, hl, rfl⟩ := h
      have hr : r.toNat = p.book.returned + (p.book.juniorBalance - p.book.effectiveJunior) := hr
      have hl : l.toNat = p.book.realized + (p.book.juniorBalance - p.book.effectiveJunior) := hl
      refine ⟨StakePool.charter_setRealizedJuniorLoss _ _, ?_⟩
      rw [StakePool.book_setRealizedJuniorLoss, Book.settled, ← hr, ← hl]
      rfl
    · cases h
      exact ⟨rfl, (Book.settled_eq (by omega)).symm⟩
  · cases h
    exact ⟨rfl, (Book.settled_eq (by omega)).symm⟩

/-- The junior half of the books: the rest of the tranche stays, or nothing does. -/
theorem bookJuniorWithdraw_book {p p' : StakePool} {lp x : UInt64}
    (h : bookJuniorWithdraw p lp x = .ok p') :
    p'.charter = p.charter ∧
      ((lp.toNat = p.book.juniorLp ∧
        p'.book = { p.book.settled with juniorLp := 0, juniorBalance := 0 }) ∨
      (lp.toNat < p.book.juniorLp ∧ x.toNat ≤ p.book.juniorBalance ∧
        p'.book = { p.book with
          juniorLp := p.book.juniorLp - lp.toNat
          juniorBalance := p.book.juniorBalance - x.toNat })) := by
  unfold bookJuniorWithdraw at h
  simp only [bind_eq_ok, okOr_eq_ok, checkedSub_eq_some] at h
  obtain ⟨jl, hjl, h⟩ := h
  have hjl : p.book.juniorLp = jl.toNat + lp.toNat := hjl
  by_cases h0 : jl = 0
  · simp only [if_pos h0, bind_eq_ok, ok_eq_ok] at h
    obtain ⟨p₁, hp₁, rfl⟩ := h
    obtain ⟨hcharter, hbook⟩ := settleForfeitedLoss_book hp₁
    have h0' : jl.toNat = 0 := eq_zero_iff.mp h0
    refine ⟨?_, .inl ⟨by omega, ?_⟩⟩
    · rw [StakePool.charter_setJuniorBalance, hcharter, StakePool.charter_setJuniorTotalLp]
    · rw [StakePool.book_setJuniorBalance, hbook, StakePool.book_setJuniorTotalLp, h0',
        ← Book.settled_juniorLp]
      rfl
  · simp only [if_neg h0, bind_eq_ok, okOr_eq_ok, ok_eq_ok, checkedSub_eq_some] at h
    obtain ⟨jb, hjb, rfl⟩ := h
    have hjb : (p.setJuniorTotalLp jl).book.juniorBalance = jb.toNat + x.toNat := hjb
    rw [StakePool.book_setJuniorTotalLp] at hjb
    have hjb : p.book.juniorBalance = jb.toNat + x.toNat := hjb
    rw [eq_zero_iff] at h0
    refine ⟨?_, .inr ⟨by omega, by omega, ?_⟩⟩
    · rw [StakePool.charter_setJuniorBalance, StakePool.charter_setJuniorTotalLp]
    · have e1 : p.book.juniorLp - lp.toNat = jl.toNat := by omega
      have e2 : p.book.juniorBalance - x.toNat = jb.toNat := by omega
      rw [StakePool.book_setJuniorBalance, StakePool.book_setJuniorTotalLp, e1, e2]

/-- The counters every withdrawal moves. -/
def Book.debited (b : Book) (lp x : Nat) : Book :=
  { b with withdrawn := b.withdrawn + x, supply := b.supply - lp }

theorem bookWithdraw_book {p p' : StakePool} {junior : Bool} {lp x : UInt64}
    (h : bookWithdraw p junior lp x = .ok p') :
    p'.charter = p.charter ∧ lp.toNat ≤ p.book.supply ∧
      if p.book.tranches = true ∧ junior = true then
        (lp.toNat = p.book.juniorLp ∧ p'.book =
          { (p.book.debited lp.toNat x.toNat).settled with juniorLp := 0, juniorBalance := 0 }) ∨
        (lp.toNat < p.book.juniorLp ∧ x.toNat ≤ p.book.juniorBalance ∧
          p'.book = { p.book.debited lp.toNat x.toNat with
            juniorLp := p.book.juniorLp - lp.toNat
            juniorBalance := p.book.juniorBalance - x.toNat })
      else p'.book = p.book.debited lp.toNat x.toNat := by
  unfold bookWithdraw at h
  simp only [bind_eq_ok, okOr_eq_ok, checkedAdd_eq_some, checkedSub_eq_some] at h
  obtain ⟨wd, hwd, s, hs, h⟩ := h
  have hwd : wd.toNat = p.book.withdrawn + x.toNat := hwd
  have hs : p.book.supply = s.toNat + lp.toNat := hs
  have hbook : StakePool.book { p with totalWithdrawn := wd, totalLpSupply := s } =
      p.book.debited lp.toNat x.toNat := by
    have e : p.book.supply - lp.toNat = s.toNat := by omega
    unfold Book.debited
    rw [e, ← hwd]
    rfl
  by_cases hj : p.trancheEnabled = true ∧ junior = true
  · have hj' : p.book.tranches = true ∧ junior = true := hj
    rw [if_pos hj']
    have hif : StakePool.trancheEnabled { p with totalWithdrawn := wd, totalLpSupply := s } = true ∧
        junior = true := hj
    rw [if_pos hif] at h
    obtain ⟨hcharter, hcases⟩ := bookJuniorWithdraw_book h
    rw [hbook] at hcases
    exact ⟨hcharter, by omega, hcases⟩
  · have hj' : ¬(p.book.tranches = true ∧ junior = true) := hj
    have hif : ¬(StakePool.trancheEnabled { p with totalWithdrawn := wd, totalLpSupply := s } =
        true ∧ junior = true) := hj
    rw [if_neg hif] at h
    cases h
    rw [if_neg hj']
    exact ⟨rfl, by omega, hbook⟩

/-! ## The record -/

theorem debitRecord_eq_ok {d d' : StakeDeposit} {lp : UInt64} (h : debitRecord d lp = .ok d') :
    d'.pool = d.pool ∧ d'.validateDiscriminator = d.validateDiscriminator ∧
      lp.toNat ≤ d.lpAmount.toNat ∧
      (⟨d'.lpAmount.toNat, d'.isJuniorDeposit, d'.isInitialized == 1⟩ : Position) =
        Position.debit ⟨d.lpAmount.toNat, d.isJuniorDeposit, d.isInitialized == 1⟩ lp.toNat := by
  unfold debitRecord at h
  simp only [bind_eq_ok, okOr_eq_ok, checkedSub_eq_some] at h
  obtain ⟨r, hr, h⟩ := h
  have e : d.lpAmount.toNat - lp.toNat = r.toNat := by omega
  unfold Position.debit
  by_cases h0 : r = 0
  · rw [if_pos h0, ok_eq_ok] at h
    subst h
    have h0' : r.toNat = 0 := eq_zero_iff.mp h0
    refine ⟨rfl, StakeDeposit.validateDiscriminator_setJuniorDeposit _ _, by omega, ?_⟩
    rw [if_pos (e.trans h0'), StakeDeposit.isJuniorDeposit_setJuniorDeposit]
    show (⟨r.toNat, false, (0 : UInt8) == 1⟩ : Position) = _
    rw [h0']
    rfl
  · rw [if_neg h0, ok_eq_ok] at h
    subst h
    rw [eq_zero_iff] at h0
    refine ⟨rfl, rfl, by omega, ?_⟩
    rw [if_neg (fun h => h0 (e.symm.trans h)), e]
    rfl

/-- The record is debited and the position follows. -/
theorem Standing.debit {ctx : Context} {π user : Pubkey} {w : World} {p : StakePool}
    {t : TokenAccount} {m : Mint} (h : Standing ctx π w p t m) {d d' : StakeDeposit} {lp : UInt64}
    (hd : w.account (ctx.depositPda π user) = ⟨ctx.programId, .deposit d⟩)
    (hdebit : debitRecord d lp = .ok d') :
    Standing ctx π (w.set (ctx.depositPda π user) ⟨ctx.programId, .deposit d'⟩) p t m ∧
      (w.set (ctx.depositPda π user) ⟨ctx.programId, .deposit d'⟩).positions ctx.programId π =
        Function.update (w.positions ctx.programId π) (ctx.depositPda π user)
          ((w.positions ctx.programId π (ctx.depositPda π user)).debit lp.toNat) := by
  have hrec := World.record_eq_some.mpr hd
  obtain ⟨hpool, hdisc⟩ := h.record_eq user d hrec
  obtain ⟨hpool', hdisc', -, hpos⟩ := debitRecord_eq_ok hdebit
  refine ⟨h.setRecord (.inl ⟨d, hd⟩) (hpool'.trans hpool) (hdisc'.trans hdisc), ?_⟩
  have hold : w.positions ctx.programId π (ctx.depositPda π user) =
      ⟨d.lpAmount.toNat, d.isJuniorDeposit, d.isInitialized == 1⟩ :=
    h.position_eq user (by unfold World.recordOrZeroed; rw [hrec]; rfl)
  rw [positions_setRecord, hold, ← hpos, positionOf, if_pos (hpool'.trans hpool)]

/-! ## The instruction -/

/-- One of the three moves a withdrawal can be. -/
def Withdrawal {K : Type} (k : K) (lp x : Nat) (m : Move K) : Prop :=
  m = .withdraw k lp x ∨ m = .withdrawJunior k lp x ∨ m = .exitJunior k lp x

/-- The priced and booked withdrawal as a move of the ledger. -/
theorem bookWithdraw_step {p₁ p₂ p₃ : StakePool} {junior : Bool} {lp x : UInt64} {v v' : Nat}
    {f : Pubkey → Position} {k : Pubkey} (hlp : 0 < lp.toNat) (hle : lp.toNat ≤ (f k).lp)
    (hjunior : (f k).junior = junior) (hacc : Ledger.Accrued ⟨p₁.book, v, f⟩)
    (hprice : priceWithdraw p₁ junior lp = .ok x)
    (hzero : ¬(x = 0 ∧ fullyWipedJuniorExit p₁ junior x = false)) (hv : v = v' + x.toNat)
    (hsame : p₂.book = p₁.book) (hbook : bookWithdraw p₂ junior lp x = .ok p₃) :
    ∃ m, Withdrawal k lp.toNat x.toNat m ∧ Ledger.Step ⟨p₁.book, v, f⟩ m
      ⟨p₃.book, v', Function.update f k ((f k).debit lp.toNat)⟩ := by
  have hprice := priceWithdraw_spec hprice
  obtain ⟨-, hsupply, hbook⟩ := bookWithdraw_book hbook
  rw [hsame] at hsupply hbook
  have hvault : x.toNat ≤ v := by omega
  have hv' : v' = v - x.toNat := by omega
  rw [hv']
  by_cases hj : p₁.book.tranches = true ∧ junior = true
  · rw [if_pos hj] at hprice hbook
    have hflag : (f k).junior = true := hjunior.trans hj.2
    rcases hbook with ⟨hlast, hbook⟩ | ⟨hrest, hbal, hbook⟩
    · rw [hbook]
      exact ⟨_, .inr (.inr rfl), .exitJunior hlp hle hacc hj.1 hflag hprice hvault hsupply hlast⟩
    · rw [hbook]
      exact ⟨_, .inr (.inl rfl),
        .withdrawJunior hlp hle hacc hj.1 hflag hprice hvault hsupply hrest hbal⟩
  · rw [if_neg hj] at hprice hbook
    have hwiped : fullyWipedJuniorExit p₁ junior x = false := by
      unfold fullyWipedJuniorExit
      cases ht : p₁.trancheEnabled with
      | false => rfl
      | true =>
        cases hb : junior with
        | false => rfl
        | true => exact (hj ⟨ht, hb⟩).elim
    have hpos : 0 < x.toNat := by
      have hne : x ≠ 0 := fun e => hzero ⟨e, hwiped⟩
      rw [Ne, eq_zero_iff] at hne
      omega
    have hflag : p₁.book.tranches = true → (f k).junior = false := by
      intro ht
      rw [hjunior]
      exact Bool.eq_false_iff.mpr fun e => hj ⟨ht, e⟩
    rw [hbook]
    exact ⟨_, .inl rfl,
      .withdraw hlp hle hacc hflag hprice.1 hprice.2 hpos hvault hsupply⟩

/-- A successful withdrawal with everything it computes on the way.  `accrued` is
the pool after the accrual, `floored` after the floor, which moves the high-water
mark only, and `final` the pool it stores.  `paid` is the world after the tokens
moved and `recorded` the one after the record was written. -/
structure WithdrawRun (ctx : Context) (w : World) (accounts : List AccountInfo) (lp : UInt64)
    (w' : World) where
  a : WithdrawAccounts
  pool : StakePool
  clock : Clock
  deposit : StakeDeposit
  accrued : StakePool
  amount : UInt64
  floored : StakePool
  paid : World
  final : StakePool
  record : StakeDeposit
  debited : StakeDeposit
  recorded : World
  lp_ne : lp ≠ 0
  next_eq : WithdrawAccounts.next accounts = .ok a
  user_signs : a.user.isSigner = true
  not_empty : validateAccountNotEmpty w a.poolPda = .ok ()
  owner_eq : w.owner a.poolPda = ctx.programId
  writable : validateAccountWritable a.poolPda = .ok ()
  read_eq : readPool w a.poolPda = .ok pool
  valid : validateWithdraw ctx w a pool = .ok ()
  clock_eq : readClock w a.clockSysvar = .ok clock
  check_eq : checkRecord w a pool clock lp = .ok deposit
  accrue_eq : preAccrueFeeModes w pool a.vault = .ok accrued
  price_eq : priceWithdraw accrued deposit.isJuniorDeposit lp = .ok amount
  pays : ¬(amount = 0 ∧ fullyWipedJuniorExit accrued deposit.isJuniorDeposit amount = false)
  floor_eq : (if accrued.hwmEnabled = true ∧
      fullyWipedJuniorExit accrued deposit.isJuniorDeposit amount = false then
    enforceHwmFloor accrued clock amount else .ok accrued) = .ok floored
  pay_eq : payOut ctx w a floored lp amount = .ok paid
  book_eq : bookWithdraw floored deposit.isJuniorDeposit lp amount = .ok final
  reread_eq : depositFromData (paid.data a.depositPda) = .ok record
  debit_eq : debitRecord record lp = .ok debited
  store_record : paid.store a.depositPda (.deposit debited) = .ok recorded
  store_eq : recorded.store a.poolPda (.pool final) = .ok w'

theorem processWithdraw_eq_ok {ctx : Context} {w w' : World} {accounts : List AccountInfo}
    {lp : UInt64} : processWithdraw ctx w accounts lp = .ok w' ↔
      Nonempty (WithdrawRun ctx w accounts lp w') := by
  have hif : ∀ {c : Prop} [Decidable c] {x : Except ProgramError StakePool} {p : StakePool}
      {f : StakePool → Except ProgramError World},
      (if c then x >>= f else .ok p >>= f) = (if c then x else .ok p) >>= f := by
    intro c _ x p f
    by_cases h : c
    · rw [if_pos h, if_pos h]
    · rw [if_neg h, if_neg h]
  unfold processWithdraw requireSigner
  simp only [hif]
  simp only [bind_eq_ok, rejectIf_eq_ok, validateAccountOwner_eq_ok, Bool.not_eq_false]
  constructor
  · rintro ⟨_, hlp, a, ha, _, hsigner, _, hempty, _, howner, _, hwrite, q, hq, _, hval, c, hc, d,
      hd, p₁, hacc, x, hprice, _, hpays, p₂, hfloor, w₁, hpay, p₃, hbook, r, hr, d', hd', w₂,
      hrecord, hstore⟩
    exact ⟨⟨a, q, c, d, p₁, x, p₂, w₁, p₃, r, d', w₂, hlp, ha, hsigner, hempty, howner, hwrite, hq,
      hval, hc, hd, hacc, hprice, hpays, hfloor, hpay, hbook, hr, hd', hrecord, hstore⟩⟩
  · rintro ⟨r⟩
    exact ⟨(), r.lp_ne, r.a, r.next_eq, (), r.user_signs, (), r.not_empty, (), r.owner_eq, (),
      r.writable, r.pool, r.read_eq, (), r.valid, r.clock, r.clock_eq, r.deposit, r.check_eq,
      r.accrued, r.accrue_eq, r.amount, r.price_eq, (), r.pays, r.floored, r.floor_eq, r.paid,
      r.pay_eq, r.final, r.book_eq, r.record, r.reread_eq, r.debited, r.debit_eq, r.recorded,
      r.store_record, r.store_eq⟩

namespace WithdrawRun

variable {ctx : Context} {π : Pubkey} {w w' : World} {p : StakePool} {t : TokenAccount} {m : Mint}
  {accounts : List AccountInfo} {lp : UInt64}

theorem pool_eq (r : WithdrawRun ctx w accounts lp w') :
    w.pool ctx.programId r.a.poolPda.key = some r.pool :=
  pool_of_read r.owner_eq (readPool_eq_ok.mp r.read_eq).1

/-- The withdrawal is from the pool that stands. -/
theorem standing_eq (r : WithdrawRun ctx w accounts lp w') (h : Standing ctx π w p t m)
    (hpool : ∃ a, accounts[1]? = some a ∧ a.key = π) :
    r.a.poolPda.key = π ∧ p = r.pool ∧ accrueFeesInner p t.amount = .ok r.accrued := by
  obtain ⟨hπ, hp⟩ := h.pool_read hpool (WithdrawAccounts.next_eq_ok r.next_eq).2 r.pool_eq
  have hvault := (validateWithdraw_eq_ok r.valid).2.1
  rw [← hp] at hvault
  refine ⟨hπ, hp, ?_⟩
  rw [← h.preAccrue hvault, hp]
  exact r.accrue_eq

theorem book_floored (r : WithdrawRun ctx w accounts lp w') :
    r.floored.charter = r.accrued.charter ∧ r.floored.book = r.accrued.book := by
  have hfloor := r.floor_eq
  split at hfloor
  · exact enforceHwmFloor_book hfloor
  · rw [← Except.ok.inj hfloor]
    exact ⟨rfl, rfl⟩

theorem charter_final (r : WithdrawRun ctx w accounts lp w') :
    r.final.charter = r.accrued.charter :=
  (bookWithdraw_book r.book_eq).1.trans r.book_floored.1

/-- The record is the depositor's own, as it was read. -/
theorem record_eq (r : WithdrawRun ctx w accounts lp w') :
    r.a.depositPda.key = ctx.depositPda r.a.poolPda.key r.a.user.key ∧
      w.account r.a.depositPda.key = ⟨ctx.programId, .deposit r.deposit⟩ := by
  obtain ⟨-, -, -, hpda, hrowner⟩ := validateWithdraw_eq_ok r.valid
  exact ⟨hpda, World.account_eq hrowner (checkRecord_eq_ok.mp r.check_eq).1⟩

/-- LP burned, collateral out, and the position debited. -/
theorem settled (r : WithdrawRun ctx w accounts lp w') (h : Standing ctx π w p t m)
    (hpool : ∃ a, accounts[1]? = some a ∧ a.key = π) :
    ∃ v s : UInt64, t.amount.toNat = v.toNat + r.amount.toNat ∧
      m.supply.toNat = s.toNat + lp.toNat ∧
      Standing ctx π w' r.final { t with amount := v } { m with supply := s } ∧
      r.final.charter = p.charter ∧ r.record = r.deposit ∧
      w' = (r.paid.set (ctx.depositPda π r.a.user.key)
        ⟨ctx.programId, .deposit r.debited⟩).set π ⟨ctx.programId, .pool r.final⟩ ∧
      World.TokensOnly w r.paid ∧
      w'.positions ctx.programId π = Function.update (w.positions ctx.programId π)
        (ctx.depositPda π r.a.user.key)
        ((w.positions ctx.programId π (ctx.depositPda π r.a.user.key)).debit lp.toNat) := by
  obtain ⟨hπ, hp, hacc⟩ := r.standing_eq h hpool
  obtain ⟨hmint, hvault, hata, -⟩ := validateWithdraw_eq_ok r.valid
  rw [← hp] at hmint hvault
  have hcharter : r.final.charter = p.charter :=
    r.charter_final.trans (accrueFeesInner_book hacc).1
  obtain ⟨v, s, hv, hs, hpaid, h₁⟩ := h.payOut hvault hmint hata r.pay_eq
  -- the record was not touched by the token movements
  obtain ⟨hpda, hrec⟩ := r.record_eq
  have hrec₁ : r.paid.account r.a.depositPda.key = ⟨ctx.programId, .deposit r.deposit⟩ :=
    (hpaid.account_iff (fun _ e => by cases e) (fun _ e => by cases e)).mpr hrec
  have hsame : r.record = r.deposit := by
    have hr := r.reread_eq
    rw [depositFromData_eq_ok, World.data, hrec₁] at hr
    exact (AccountData.deposit.inj hr).symm
  obtain ⟨-, hw₂⟩ := (store_record_eq_ok hrec₁).mp r.store_record
  rw [hpda, hπ] at hrec₁ hw₂
  obtain ⟨h₂, hpos⟩ := h₁.debit hrec₁ (hsame ▸ r.debit_eq)
  have hstore := r.store_eq
  rw [hw₂] at hstore
  obtain ⟨-, hw'⟩ := (store_pool_eq_ok hπ h₂.pool_eq).mp hstore
  have h₃ := h₂.setPool hcharter
  have hpos₃ := h₂.positions_setPool r.final
  rw [← hw'] at h₃ hpos₃
  refine ⟨v, s, hv, hs, h₃, hcharter, hsame, hw', hpaid, ?_⟩
  rw [hpos₃, hpos, hpaid.positions_eq]

/-- The books of the pool the accrual left take one move. -/
theorem step_final (r : WithdrawRun ctx w accounts lp w') (h : Standing ctx π w p t m)
    (hpool : ∃ a, accounts[1]? = some a ∧ a.key = π) :
    ∃ v mv, t.amount.toNat = v + r.amount.toNat ∧
      Withdrawal (ctx.depositPda π r.a.user.key) lp.toNat r.amount.toNat mv ∧
      Ledger.Step ⟨r.accrued.book, t.amount.toNat, w.positions ctx.programId π⟩ mv
        ⟨r.final.book, v, w'.positions ctx.programId π⟩ := by
  obtain ⟨hπ, rfl, hacc⟩ := r.standing_eq h hpool
  obtain ⟨v, s, hv, -, -, -, -, -, -, hpos⟩ := r.settled h hpool
  obtain ⟨haccrued, -⟩ := accrueFeesInner_run (f := w.positions ctx.programId π) hacc
  obtain ⟨-, -, -, -, hle⟩ := checkRecord_eq_ok.mp r.check_eq
  obtain ⟨hpda, hrec⟩ := r.record_eq
  rw [hpda, hπ] at hrec
  have hold := h.position_eq r.a.user.key (d := r.deposit) (by
    rw [World.recordOrZeroed, World.record_eq_some.mpr hrec]
    rfl)
  have hlp := r.lp_ne
  rw [Ne, eq_zero_iff] at hlp
  obtain ⟨mv, hmv, hstep⟩ := bookWithdraw_step (k := ctx.depositPda π r.a.user.key) (by omega)
    (by rw [hold]; exact UInt64.le_iff_toNat_le.mp hle) (by rw [hold]) haccrued r.price_eq r.pays
    hv r.book_floored.2 r.book_eq
  rw [← hpos] at hstep
  exact ⟨v.toNat, mv, hv, hmv, hstep⟩

end WithdrawRun

theorem Standing.withdraw {ctx : Context} {π : Pubkey} {w w' : World} {p : StakePool}
    {t : TokenAccount} {m : Mint} (h : Standing ctx π w p t m) {accounts : List AccountInfo}
    {lp : UInt64} (hpool : ∃ a, accounts[1]? = some a ∧ a.key = π)
    (hd : processWithdraw ctx w accounts lp = .ok w') :
    ∃ user acc x mv, accounts[0]? = some user ∧ Accrual acc ∧
      Withdrawal (ctx.depositPda π user.key) lp.toNat x mv ∧
      Simulated ctx π w p t (acc ++ [mv]) w' := by
  obtain ⟨r⟩ := processWithdraw_eq_ok.mp hd
  obtain ⟨-, -, hacc⟩ := r.standing_eq h hpool
  obtain ⟨v, s, hv, -, h', hcharter, -⟩ := r.settled h hpool
  obtain ⟨-, acc, hacc', hrun⟩ := accrueFeesInner_run (f := w.positions ctx.programId π) hacc
  obtain ⟨v₁, mv, hv₁, hmv, hstep⟩ := r.step_final h hpool
  obtain rfl : v₁ = v.toNat := by omega
  refine ⟨r.a.user, acc, r.amount.toNat, mv, (WithdrawAccounts.next_eq_ok r.next_eq).1, hacc', hmv,
    r.final, _, _, h', hcharter, ?_⟩
  rw [Transition.run_append]
  exact ⟨_, hrun, _, hstep, rfl⟩

end PercolatorStake
