import PercolatorStake.AccrualTiming
import PercolatorStake.Liveness

/-!
# Everybody can leave

Holders who are due redeem their LP one after another, in any order.  An
exit pays at most its own share of what the vault holds, burns only its own LP and
writes only its own record.  So whatever the next holder needs is still there, and the
last to leave gets at least what the LP was worth when the first one left.
-/

namespace PercolatorStake

open Result Word

/-- A holder on the way out with `lp`: the accounts of the withdrawal, with the contents
of the two token accounts and of the record. -/
structure Exit where
  accounts : List AccountInfo
  a : WithdrawAccounts
  lp : UInt64
  lpAta : TokenAccount
  ata : TokenAccount
  record : StakeDeposit

namespace Exit

def user (x : Exit) : Pubkey := x.a.user.key

def instruction (x : Exit) : StakeInstruction := .withdraw x.lp

/-- The holder is due, with the correct accounts, and has room for all of the vault. -/
structure Ready (x : Exit) (ctx : Context) (π : Pubkey) (c : Clock) (w : World) (p : StakePool)
    (t : TokenAccount) : Prop where
  next_eq : WithdrawAccounts.next x.accounts = .ok x.a
  unsigned : ∀ i ∈ x.accounts, i.isSigner = true → i.key ≠ ctx.vaultAuthority π
  correct : x.a.Correct ctx π w p x.lpAta x.ata
  ata_owner : x.ata.owner = x.user
  clock_eq : readClock w x.a.clockSysvar = .ok c
  due : Due ctx π w p c x.user x.record x.lpAta x.lp
  fits : x.ata.amount.toNat + t.amount.toNat < 2 ^ 64

end Exit

/-- The LP is off the record. -/
def Exit.Gone (ctx : Context) (w : World) (x : Exit) : Prop :=
  ∃ d, w.record ctx.programId x.a.depositPda.key = some d ∧
    d.lpAmount.toNat + x.lp.toNat = x.record.lpAmount.toNat

/-- An exit at its turn, by a holder who is owed `owed x`.  It pays that much and debits the
record, with every other record as it was, or the LP is worth less than one token and
nothing happens. -/
inductive Context.Leaves (ctx : Context) (owed : Exit → Nat) (w : World) (x : Exit) : World → Prop
  | paid {w' : World} {s : TokenAccount}
      (ok : process ctx w x.accounts x.instruction = .ok w')
      (credited : w'.token x.a.userAta.key = some s)
      (enough : x.ata.amount.toNat + owed x ≤ s.amount.toNat) (gone : x.Gone ctx w')
      (others : ∀ k, k ≠ x.a.depositPda.key →
        w'.record ctx.programId k = w.record ctx.programId k) : Leaves ctx owed w x w'
  | worthless (error : process ctx w x.accounts x.instruction = .error ↑StakeError.zeroAmount)
      (nothing : owed x = 0) : Leaves ctx owed w x w

/-- What the LP redeems for at the prices of `p`. -/
def Exit.worth (x : Exit) (p : StakePool) : Nat :=
  match priceWithdraw p x.record.isJuniorDeposit x.lp with
  | .ok amount => amount.toNat
  | .error _ => 0

/-- The holders `xs` are on their way out of the pool at `π`, and each is still worth what
it is owed.  `p₁` is the pool after the accrual that is due. -/
structure Context.Exiting (ctx : Context) (π : Pubkey) (c : Clock) (owed : Exit → Nat)
    (xs : List Exit) (X : Nat) (w : World) (p : StakePool) (t : TokenAccount) (m : Mint)
    (p₁ : StakePool) : Prop where
  valid : Valid ctx π X w p t m
  senior : 0 ≤ p.book.senior
  accrues : accrueFeesInner p t.amount = .ok p₁
  hwm : p.hwmEnabled = false
  room : p.totalWithdrawn.toNat + t.amount.toNat < 2 ^ 64
  ready : ∀ x ∈ xs, x.Ready ctx π c w p t
  apart : (xs.map Exit.user).Nodup
  supply : (xs.map fun x => x.lpAta.amount.toNat).sum ≤ m.supply.toNat
  owed_le : ∀ x ∈ xs,
    owed x ≤ p₁.book.redemption x.record.isJuniorDeposit x.lp.toNat

section

variable {ctx : Context} {π : Pubkey} {w w' : World} {p p' p₁ : StakePool}
  {t t' : TokenAccount} {m : Mint} {c : Clock} {x y : Exit} {xs : List Exit} {X : Nat}

/-! ## One exit -/

theorem accrued_withdrawn {b : UInt64} (h : accrueFeesInner p b = .ok p₁) :
    p₁.book.withdrawn = p.book.withdrawn := by
  obtain ⟨-, ⟨hbook, -⟩ | ⟨f, j, -, -, -, hbook, -⟩⟩ := accrueFeesInner_book h
  · rw [hbook]
  · rw [hbook]
    rfl

theorem Exit.Ready.position_eq (hx : x.Ready ctx π c w p t) (h : Standing ctx π w p t m) :
    w.positions ctx.programId π (ctx.depositPda π x.user) =
      ⟨x.record.lpAmount.toNat, x.record.isJuniorDeposit, x.record.isInitialized == 1⟩ := by
  obtain ⟨hpi, -⟩ := h.record_eq _ x.record hx.due.record_eq
  exact positions_of_record hx.due.record_eq hpi

/-- The LP of a holder who is ready is LP of the pool. -/
theorem Exit.Ready.lp_le (hx : x.Ready ctx π c w p t) (h : Valid ctx π X w p t m) :
    x.lp.toNat ≤ p.book.supply ∧
      (x.record.isJuniorDeposit = true → x.lp.toNat ≤ p.book.juniorLp) := by
  have hmatched : Ledger.Matched ⟨p.book, t.amount.toNat, w.positions ctx.programId π⟩ :=
    h.sound.toMatched
  have hall : x.lp.toNat ≤ (w.positions ctx.programId π (ctx.depositPda π x.user)).lp := by
    rw [hx.position_eq h.standing]
    exact UInt64.le_iff_toNat_le.mp hx.due.le_record
  have hbooked := lp_le_supply hmatched hall
  rw [hx.position_eq h.standing] at hbooked
  exact hbooked

/-- The LP of a holder who is ready has a price. -/
theorem Exit.Ready.priced (hx : x.Ready ctx π c w p t) (h : Valid ctx π X w p t m)
    (hs : 0 ≤ p.book.senior) (hacc : accrueFeesInner p t.amount = .ok p₁) :
    ∃ amount, priceWithdraw p₁ x.record.isJuniorDeposit x.lp = .ok amount ∧
      amount.toNat = p₁.book.redemption x.record.isJuniorDeposit x.lp.toNat ∧
      (amount.toNat ≤ if x.record.isJuniorDeposit = true then p₁.book.effectiveJunior
        else p₁.book.senior.toNat) ∧
      x.lp.toNat ≤ p₁.book.supply ∧
      (x.record.isJuniorDeposit = true → x.lp.toNat ≤ p₁.book.juniorLp) := by
  obtain ⟨hsound, hsenior⟩ := h.accrued hs hacc
  have hle : p₁.book.value ≤ t.amount.toNat := hsound.toBalanced.value_le
  have hlt := t.amount.toNat_lt
  have hposition := hx.position_eq h.standing
  have hall : x.lp.toNat ≤
      (w.positions ctx.programId π (ctx.depositPda π x.user)).lp := by
    rw [hposition]
    exact UInt64.le_iff_toNat_le.mp hx.due.le_record
  obtain ⟨amount, hprice, hvalue⟩ :=
    PercolatorStake.priceWithdraw_ok hsound.toMatched hsenior (by omega) (pos_iff.mp hx.due.pos)
      hall
  have hown := redemption_le_own hsound.toMatched hall
  have hbooked := lp_le_supply hsound.toMatched hall
  rw [hposition] at hprice hvalue hown hbooked
  rw [← hvalue] at hown
  exact ⟨amount, hprice, hvalue, hown, hbooked⟩

theorem Exit.Ready.worth_eq (hx : x.Ready ctx π c w p t) (h : Valid ctx π X w p t m)
    (hs : 0 ≤ p.book.senior) (hacc : accrueFeesInner p t.amount = .ok p₁) :
    x.worth p₁ = p₁.book.redemption x.record.isJuniorDeposit x.lp.toNat := by
  obtain ⟨amount, hprice, hvalue, -⟩ := hx.priced h hs hacc
  unfold Exit.worth
  rw [hprice]
  exact hvalue

/-- A holder who is ready is paid, unless the LP is worth less than one token. -/
theorem Exit.Ready.withdraws (hx : x.Ready ctx π c w p t) (h : Valid ctx π X w p t m)
    (hs : 0 ≤ p.book.senior) (hacc : accrueFeesInner p t.amount = .ok p₁)
    (hhwm : p.hwmEnabled = false) (hroom : p.totalWithdrawn.toNat + t.amount.toNat < 2 ^ 64)
    (hlp : x.lpAta.amount.toNat ≤ m.supply.toNat) :
    (∃ w', process ctx w x.accounts x.instruction = .ok w') ∨
      process ctx w x.accounts x.instruction = .error ↑StakeError.zeroAmount ∧
        p₁.book.redemption x.record.isJuniorDeposit x.lp.toNat = 0 := by
  have ha := hx.correct
  have hdue := hx.due
  have hpre : preAccrueFeeModes w p x.a.vault = .ok p₁ :=
    (h.standing.preAccrue ha.vault_eq.symm).trans hacc
  obtain ⟨hcharter, -⟩ := accrueFeesInner_book hacc
  obtain ⟨hsound, hsenior⟩ := h.accrued hs hacc
  have hle : p₁.book.value ≤ t.amount.toNat := hsound.toBalanced.value_le
  have hlt := t.amount.toNat_lt
  obtain ⟨amount, hprice, hvalue, hown, hbooked⟩ := hx.priced h hs hacc
  obtain ⟨own, -, -, hamount⟩ := own_of_le hsound.toMatched (by omega) hsenior hown
  have hoff : ¬(p₁.hwmEnabled = true ∧
      fullyWipedJuniorExit p₁ x.record.isJuniorDeposit amount = false) := by
    have hsettings : p₁.hwmEnabled = p.hwmEnabled :=
      congrArg Settings.hwmEnabled (accrueFeesInner_settings hacc).1
    rw [hsettings, hhwm]
    exact fun e => Bool.false_ne_true e.1
  have hwithdrawn : p₁.totalWithdrawn.toNat = p.totalWithdrawn.toNat := accrued_withdrawn hacc
  have hsettle : (∃ w', settleWithdraw ctx w x.a p₁ x.record.isJuniorDeposit x.lp
      amount = .ok w') ∨ settleWithdraw ctx w x.a p₁ x.record.isJuniorDeposit x.lp
      amount = .error ↑StakeError.overflow ∧
        2 ^ 64 ≤ p₁.totalWithdrawn.toNat + amount.toNat := by
    refine settleWithdraw_ok_or h.standing ha hdue ⟨UInt64.le_iff_toNat_le.mpr hlp, hx.fits⟩
      (UInt64.le_iff_toNat_le.mpr (by omega)) hcharter
      (bookWithdraw_ok_or hsound.settled_le_returned hbooked.1 hbooked.2 ?_)
    intro hj
    rw [if_pos hj] at hown
    exact hown.trans p₁.book.effectiveJunior_le
  unfold Exit.instruction
  rw [processWithdraw_eq h.standing hx.next_eq ha hx.clock_eq hdue hpre hprice]
  by_cases hzero : amount = 0 ∧ fullyWipedJuniorExit p₁ x.record.isJuniorDeposit amount = false
  · rw [if_pos hzero]
    exact .inr ⟨rfl, hvalue.symm.trans (eq_zero_iff.mp hzero.1)⟩
  · rw [if_neg hzero, if_neg hoff]
    -- the counter has room for all the vault holds
    refine .inl (hsettle.resolve_right ?_)
    rintro ⟨-, hfull⟩
    omega

theorem Ledger.Step.juniorLp_exit {K : Type} [DecidableEq K] {l l' : Ledger K} {k : K} {lp y : Nat}
    (h : Ledger.Step l (.exitJunior k lp y) l') : l'.book.juniorLp = 0 := by
  cases h
  rfl

/-- No sub-pool with LP left loses value per LP to a withdrawal. -/
theorem WithdrawRun.redemption_le {accounts : List AccountInfo} {lp : UInt64}
    (r : WithdrawRun ctx w accounts lp w') (h : Valid ctx π X w p t m) (hs : 0 ≤ p.book.senior)
    (hpool : ∃ a, accounts[1]? = some a ∧ a.key = π) :
    0 ≤ r.final.book.senior ∧ ∀ junior n, (junior = true → 0 < r.final.book.juniorLp) →
      r.accrued.book.redemption junior n ≤ r.final.book.redemption junior n := by
  obtain ⟨-, -, hacc⟩ := r.standing_eq h.standing hpool
  obtain ⟨hsound, hsenior⟩ := h.accrued hs hacc
  obtain ⟨v, mv, -, hmv, hstep⟩ := r.step_final h.standing hpool
  have hflush : ∀ y, mv ≠ .flush y := by
    rintro y rfl
    rcases hmv with e | e | e <;> cases e
  obtain ⟨hsenior', hprice⟩ := hsound.toMatched.senior_step hsenior hstep hflush
  refine ⟨hsenior', ?_⟩
  intro junior n hleft
  refine PercolatorStake.redemption_le hprice (fun hj => ?_) n
  refine hsound.toMatched.junior_step hstep hflush ?_
  -- after the exit of the last junior no junior LP is left
  rintro k lp y rfl
  have hnone : r.final.book.juniorLp = 0 := hstep.juniorLp_exit
  rw [hnone] at hleft
  exact Nat.lt_irrefl 0 (hleft hj)

/-! ## The others -/

/-- Two holders have nothing in common but the pool. -/
structure Exit.Apart (ctx : Context) (π : Pubkey) (w : World) (p : StakePool) (x y : Exit) :
    Prop where
  lp_lp : y.a.userLpAta.key ≠ x.a.userLpAta.key
  lp_vault : y.a.userLpAta.key ≠ p.vault
  lp_ata : y.a.userLpAta.key ≠ x.a.userAta.key
  ata_lp : y.a.userAta.key ≠ x.a.userLpAta.key
  ata_vault : y.a.userAta.key ≠ p.vault
  ata_ata : y.a.userAta.key ≠ x.a.userAta.key
  record : ctx.depositPda π y.user ≠ ctx.depositPda π x.user

theorem Exit.Ready.apart (h : Standing ctx π w p t m) (hx : x.Ready ctx π c w p t)
    (hy : y.Ready ctx π c w p t) (hne : y.user ≠ x.user) : Exit.Apart ctx π w p x y := by
  have howner : ∀ {k k' : Pubkey} {s s' : TokenAccount}, w.token k = some s →
      w.token k' = some s' → s.owner = y.user → s'.owner = x.user → k ≠ k' := by
    rintro k k' s s' hs hs' ho ho' rfl
    obtain rfl : s = s' := Option.some_inj.mp (hs.symm.trans hs')
    exact hne (ho.symm.trans ho')
  refine ⟨howner hy.correct.lpAta_eq hx.correct.lpAta_eq hy.correct.lpAta_owner
      hx.correct.lpAta_owner,
    (h.vault_ne_of_lp hy.correct.lpAta_eq hy.correct.lpAta_mint).symm,
    howner hy.correct.lpAta_eq hx.correct.ata_eq hy.correct.lpAta_owner hx.ata_owner,
    howner hy.correct.ata_eq hx.correct.lpAta_eq hy.ata_owner hx.correct.lpAta_owner,
    hy.correct.ata_ne,
    howner hy.correct.ata_eq hx.correct.ata_eq hy.ata_owner hx.ata_owner, ?_⟩
  -- a record names its user
  intro e
  have hrecord := hy.due.record_eq
  rw [e, hx.due.record_eq, Option.some_inj] at hrecord
  exact hne (hy.due.user_eq.symm.trans (hrecord ▸ hx.due.user_eq))

/-- What a holder needs is kept by whatever leaves the three accounts, the clock and the
cooldown alone and adds nothing to the vault. -/
theorem Exit.Ready.keep (hy : y.Ready ctx π c w p t) (hcharter : p'.charter = p.charter)
    (hcooldown : p'.cooldownSlots = p.cooldownSlots) (hclock : w'.clock = w.clock)
    (hlp : w'.token y.a.userLpAta.key = w.token y.a.userLpAta.key)
    (hata : w'.token y.a.userAta.key = w.token y.a.userAta.key)
    (hrecord : w'.record ctx.programId (ctx.depositPda π y.user) =
      w.record ctx.programId (ctx.depositPda π y.user))
    (hvault : t'.amount.toNat ≤ t.amount.toNat) : y.Ready ctx π c w' p' t' := by
  have ha := hy.correct
  have hdue := hy.due
  have hmint := lpMint_of_charter hcharter
  have hkey := vault_of_charter hcharter
  have hclockKey := (readClock_eq_ok.mp hy.clock_eq).1
  have hshows := clock_of_read hy.clock_eq
  refine ⟨hy.next_eq, hy.unsigned, ⟨ha.user_signs, ha.pool_eq, ha.pool_writable,
    hlp.trans ha.lpAta_eq, ha.lpAta_mint.trans hmint.symm, ha.lpAta_owner, ha.lpAta_live,
    ha.lpAta_writable, ha.lpMint_eq.trans hmint.symm, ha.lpMint_writable,
    ha.vault_eq.trans hkey.symm, ha.vault_writable, hata.trans ha.ata_eq,
    ha.ata_mint.trans (collateralMint_of_charter hcharter).symm, ha.ata_live, ha.ata_writable, ?_,
    ha.vaultAuth_eq, ha.deposit_eq, ha.deposit_writable, ha.tokenProgram_eq⟩, hy.ata_owner, ?_,
    ⟨hrecord.trans hdue.record_eq, hdue.initialized, hdue.user_eq, ?_, hdue.pos, hdue.le_record,
      hdue.le_balance⟩, ?_⟩
  · rw [hkey]
    exact ha.ata_ne
  · rw [readClock_eq_ok, World.data, hclockKey]
    rw [← hclock] at hshows
    exact ⟨rfl, World.clock_eq_some.mp hshows⟩
  · rw [hcooldown]
    exact hdue.cooled
  · have hfits := hy.fits
    omega

/-! ## The queue -/

theorem Exit.Ready.took (hx : x.Ready ctx π c w p t) (h : Standing ctx π w p t m)
    (hacc : accrueFeesInner p t.amount = .ok p₁) (r : WithdrawRun ctx w x.accounts x.lp w') :
    r.Took π x.a x.record p₁ :=
  r.took h hx.next_eq hx.correct hx.due hacc

/-- A payout debits the record and credits the worth of the LP. -/
theorem Exit.Ready.leaves {owed : Exit → Nat} (hx : x.Ready ctx π c w p t)
    (h : Valid ctx π X w p t m) (hs : 0 ≤ p.book.senior)
    (hacc : accrueFeesInner p t.amount = .ok p₁)
    (howed : owed x ≤ p₁.book.redemption x.record.isJuniorDeposit x.lp.toNat)
    (r : WithdrawRun ctx w x.accounts x.lp w') : ctx.Leaves owed w x w' := by
  have hr := hx.took h.standing hacc r
  have ha := hx.correct
  obtain ⟨amount, hprice, hvalue, -⟩ := hx.priced h hs hacc
  obtain ⟨-, ⟨s, hs, hcredit⟩, d', hd', hdebit⟩ := r.paysOut h.standing hr ha hprice
  rw [← ha.deposit_eq] at hd'
  refine .paid (processWithdraw_eq_ok.mpr ⟨r⟩) hs (by omega) ⟨d', hd', hdebit⟩ ?_
  intro k hk
  rw [r.record_final h.standing hr.pool, hr.accounts_eq, if_neg (by rw [← ha.deposit_eq]; exact hk)]

/-- The others are ready when the first has left. -/
theorem Exit.Ready.stays (hx : x.Ready ctx π c w p t) (hy : y.Ready ctx π c w p t)
    (hne : y.user ≠ x.user) (h : Standing ctx π w p t m)
    (hacc : accrueFeesInner p t.amount = .ok p₁)
    (r : WithdrawRun ctx w x.accounts x.lp w')
    (hcharter : r.final.charter = p.charter) (hcooldown : r.final.cooldownSlots = p.cooldownSlots)
    (hvault : t'.amount.toNat ≤ t.amount.toNat) : y.Ready ctx π c w' r.final t' := by
  obtain ⟨hpool, hra, -, -⟩ := hx.took h hacc r
  have hapart := hx.apart h hy hne
  have ha := hx.correct
  obtain ⟨hclock, hclock'⟩ := r.clock_final h hpool
  have hpay := r.pay_eq
  rw [hra] at hpay
  obtain ⟨hframe, -⟩ := payOut_token (by rw [ha.vault_eq]; exact ha.ata_ne.symm) hpay
  refine hy.keep hcharter hcooldown (hclock'.trans hclock.symm) ?_ ?_ ?_ hvault
  · rw [r.token_paid h hpool]
    exact hframe _ hapart.lp_lp (by rw [ha.vault_eq]; exact hapart.lp_vault) hapart.lp_ata
  · rw [r.token_paid h hpool]
    exact hframe _ hapart.ata_lp (by rw [ha.vault_eq]; exact hapart.ata_vault) hapart.ata_ata
  · rw [r.record_final h hpool, hra]
    exact if_neg hapart.record

/-- When the first of the queue has been paid, the rest are still on their way out. -/
theorem Context.Exiting.rest {owed : Exit → Nat} (h : ctx.Exiting π c owed (x :: xs) X w p t m p₁)
    (r : WithdrawRun ctx w x.accounts x.lp w') :
    ∃ Y p' t' m', ctx.Exiting π c owed xs Y w' p' t' m' p' := by
  have hx := h.ready x List.mem_cons_self
  have hst := h.valid.standing
  obtain ⟨hpool, hra, haccrued, -⟩ := hx.took hst h.accrues r
  have hapart := h.apart
  have hsupply := h.supply
  rw [List.map_cons, List.nodup_cons] at hapart
  rw [List.map_cons, List.sum_cons] at hsupply
  obtain ⟨v, s, hv, hs, hst', hcharter, -⟩ := r.settled hst hpool
  have hstep : ctx.Step π w (.instruction x.instruction x.accounts) w' :=
    ⟨hpool, hx.unsigned, processWithdraw_eq_ok.mpr ⟨r⟩⟩
  obtain ⟨p', t', m', -, hvalid, -, -⟩ := h.valid.step hstep
  obtain rfl : p' = r.final :=
    Option.some_inj.mp (hvalid.standing.pool_eq.symm.trans hst'.pool_eq)
  obtain rfl : t' = { t with amount := v } :=
    Option.some_inj.mp (hvalid.standing.vault_eq.symm.trans hst'.vault_eq)
  obtain rfl : m' = { m with supply := s } :=
    Option.some_inj.mp (hvalid.standing.mint_eq.symm.trans hst'.mint_eq)
  -- no setting changes
  obtain ⟨p', hrw, hsettings, -⟩ := hst.settings_step hstep
  obtain rfl : p' = r.final := Option.some_inj.mp (hrw.after.symm.trans hst'.pool_eq)
  have hsettings : r.final.settings = p.settings := hsettings
  obtain ⟨hvalue, hwithdrawn⟩ := r.value_final
  obtain ⟨hsenior, hworth⟩ := r.redemption_le h.valid h.senior hpool
  rw [haccrued] at hvalue hwithdrawn hworth
  have hin : ∀ y ∈ xs, y.user ≠ x.user :=
    fun y hy e => hapart.1 (e ▸ List.mem_map_of_mem hy)
  have hready : ∀ y ∈ xs, y.Ready ctx π c w' r.final { t with amount := v } := by
    intro y hy
    refine hx.stays (h.ready y (List.mem_cons_of_mem _ hy)) (hin y hy) hst h.accrues r hcharter
      (congrArg Settings.cooldownSlots hsettings) ?_
    show v.toNat ≤ _
    omega
  have hpos := pos_iff.mp hx.due.pos
  have hcovers := accrued_covers h.accrues (pos_iff.mpr (hpos.trans_le (hx.lp_le h.valid).1))
  refine ⟨_, r.final, { t with amount := v }, { m with supply := s }, hvalid, hsenior,
    hvalid.idle ?_, (congrArg Settings.hwmEnabled hsettings).trans h.hwm, ?_, hready, hapart.2, ?_,
    ?_⟩
  · rw [hvalue]
    show (v.toNat : Int) ≤ _
    omega
  · have hroom := h.room
    have hsame : p₁.book.withdrawn = p.totalWithdrawn.toNat := accrued_withdrawn h.accrues
    show r.final.book.withdrawn + v.toNat < 2 ^ 64
    omega
  · have hlp := UInt64.le_iff_toNat_le.mp hx.due.le_balance
    show _ ≤ s.toNat
    omega
  · intro y hy
    refine (h.owed_le y (List.mem_cons_of_mem _ hy)).trans (hworth _ _ fun hj => ?_)
    exact Nat.lt_of_lt_of_le (pos_iff.mp (hready y hy).due.pos) (((hready y hy).lp_le hvalid).2 hj)

/-- The first of the queue leaves, and the rest are still on their way out. -/
theorem Context.Exiting.step {owed : Exit → Nat}
    (h : ctx.Exiting π c owed (x :: xs) X w p t m p₁) :
    ∃ w', ctx.Leaves owed w x w' ∧ ∃ Y p' t' m' p₁', ctx.Exiting π c owed xs Y w' p' t' m' p₁' := by
  have hx := h.ready x List.mem_cons_self
  have howed := h.owed_le x List.mem_cons_self
  have hsupply := h.supply
  rw [List.map_cons, List.sum_cons] at hsupply
  rcases hx.withdraws h.valid h.senior h.accrues h.hwm h.room (by omega) with ⟨w', hok⟩ | hzero
  · obtain ⟨r⟩ := processWithdraw_eq_ok.mp hok
    obtain ⟨Y, p', t', m', hrest⟩ := h.rest r
    exact ⟨w', hx.leaves h.valid h.senior h.accrues howed r, Y, p', t', m', p', hrest⟩
  · have hapart := h.apart
    rw [List.map_cons, List.nodup_cons] at hapart
    refine ⟨w, .worthless hzero.1 (by omega), X, p, t, m, p₁, h.valid, h.senior, h.accrues, h.hwm,
      h.room, fun y hy => h.ready y (List.mem_cons_of_mem _ hy), hapart.2, by omega,
      fun y hy => h.owed_le y (List.mem_cons_of_mem _ hy)⟩

/-- All of the queue leaves. -/
theorem Context.Exiting.run {owed : Exit → Nat} (h : ctx.Exiting π c owed xs X w p t m p₁) :
    ∃ w', Transition.Run (ctx.Leaves owed) w xs w' := by
  let Q : List Exit → World → Prop := fun xs w => ∃ X p t m p₁, ctx.Exiting π c owed xs X w p t m p₁
  have hstep : ∀ x xs w, Q (x :: xs) w → ∃ w', ctx.Leaves owed w x w' ∧ Q xs w' := by
    rintro x xs w ⟨X, p, t, m, p₁, h⟩
    exact h.step
  obtain ⟨w', hrun, -⟩ := Transition.Run.of_progress (P := Q) hstep ⟨X, p, t, m, p₁, h⟩
  exact ⟨w', hrun⟩

/-- A record that is not the holder's stays debited. -/
theorem Context.Leaves.keep_gone {owed : Exit → Nat} (h : ctx.Leaves owed w y w')
    (hne : x.a.depositPda.key ≠ y.a.depositPda.key) (hx : x.Gone ctx w) : x.Gone ctx w' := by
  cases h with
  | paid _ _ _ _ others =>
    unfold Exit.Gone
    rw [others _ hne]
    exact hx
  | worthless => exact hx

/-- From every reachable state in which the senior value is defined, if tranches are on,
with the high-water mark off, an accrual that goes through and room in the counter of all
withdrawals for the whole vault: holders who are due leave in whatever order they come.
Each is paid at least what the LP was worth before the first one left, and no LP that was
worth a token is left. -/
theorem everybody_leaves {es : List Event} (h : ctx.Reached π es w)
    (hp : w.pool ctx.programId π = some p) (hvault : w.token p.vault = some t)
    (hmint : w.mint p.lpMint = some m)
    (hs : p.trancheEnabled = true → p.seniorBalance.isSome = true)
    (hacc : accrueFeesInner p t.amount = .ok p₁) (hhwm : p.hwmEnabled = false)
    (hroom : p.totalWithdrawn.toNat + t.amount.toNat < 2 ^ 64)
    (hready : ∀ x ∈ xs, x.Ready ctx π c w p t) (hapart : (xs.map Exit.user).Nodup)
    (hsupply : (xs.map fun x => x.lpAta.amount.toNat).sum ≤ m.supply.toNat) :
    ∃ w', Transition.Run (ctx.Leaves fun x => x.worth p₁) w xs w' ∧
      ∀ x ∈ xs, x.worth p₁ ≠ 0 → x.Gone ctx w' := by
  obtain ⟨q, t₀, m₀, hvalid⟩ := h.stands
  obtain rfl : p = q := Option.some_inj.mp (hp.symm.trans hvalid.standing.pool_eq)
  obtain rfl : t = t₀ := Option.some_inj.mp (hvault.symm.trans hvalid.standing.vault_eq)
  obtain rfl : m = m₀ := Option.some_inj.mp (hmint.symm.trans hvalid.standing.mint_eq)
  have hsenior := hvalid.senior_nonneg hs
  have hstart : ctx.Exiting π c (fun x => x.worth p₁) xs _ w p t m p₁ :=
    ⟨hvalid, hsenior, hacc, hhwm, hroom, hready, hapart, hsupply,
      fun x hx => Nat.le_of_eq ((hready x hx).worth_eq hvalid hsenior hacc)⟩
  obtain ⟨w', hrun⟩ := hstart.run
  have hdistinct : xs.Pairwise fun x y => x.a.depositPda.key ≠ y.a.depositPda.key := by
    refine (List.pairwise_map.mp hapart).imp_of_mem ?_
    intro x y hx hy hne
    have hrecord := ((hready y hy).apart hvalid.standing (hready x hx) hne).record
    rw [(hready x hx).correct.deposit_eq, (hready y hy).correct.deposit_eq]
    exact hrecord
  refine ⟨w', hrun, hrun.each (Q := fun x w => x.worth p₁ ≠ 0 → x.Gone ctx w) hdistinct ?_ ?_⟩
  · rintro x w w' hleaves hworth
    cases hleaves with
    | paid _ _ _ gone => exact gone
    | worthless _ nothing => exact (hworth nothing).elim
  · intro x y w w' hne hx hleaves hworth
    exact hleaves.keep_gone hne (hx hworth)

end

namespace Sample

/-- A loss on the junior tranche and a fee that nobody has booked yet. -/
def exodus : List Action :=
  [enableTranches, deposit alice 100000, depositJunior bob 50000, flush 30000, .send 900,
    .tick ⟨200, 1⟩]

def leaver (user : UInt8) (lp balance : UInt64) (record : StakeDeposit) : Exit where
  accounts := withdrawAccounts user
  a :=
    { user := signer (key user)
      poolPda := writable pool
      userLpAta := writable (lpAta user)
      lpMint := writable lpMint
      vault := writable vault
      userAta := writable (ata user)
      vaultAuth := readonly (ctx.vaultAuthority pool)
      depositPda := writable (ctx.depositPda pool (key user))
      tokenProgram := readonly splTokenId
      clockSysvar := readonly clockSysvarId }
  lp := lp
  lpAta := ⟨lpMint, key user, lp, .initialized⟩
  ata := ⟨collateralMint, key user, balance, .initialized⟩
  record := record

theorem leaver_ready {user : UInt8} {lp balance : UInt64} {w : World} {p : StakePool}
    {t : TokenAccount} {d : StakeDeposit} {clock : Clock}
    (hunsigned : ∀ i ∈ withdrawAccounts user, i.isSigner = true → i.key ≠ ctx.vaultAuthority pool)
    (hp : p.lpMint = lpMint ∧ p.vault = vault ∧ p.collateralMint = collateralMint)
    (hne : ata user ≠ vault)
    (hlp : w.token (lpAta user) = some ⟨lpMint, key user, lp, .initialized⟩)
    (hata : w.token (ata user) = some ⟨collateralMint, key user, balance, .initialized⟩)
    (hclock : w.data (readonly clockSysvarId) = .clock clock)
    (hd : w.record ctx.programId (ctx.depositPda pool (key user)) = some d)
    (hinit : d.isInitialized = 1 ∧ d.user = key user)
    (hcooled : saturatingAdd d.lastDepositSlot p.cooldownSlots ≤ clock.slot)
    (hdue : 0 < lp ∧ lp ≤ d.lpAmount) (hfits : balance.toNat + t.amount.toNat < 2 ^ 64) :
    (leaver user lp balance d).Ready ctx pool clock w p t := by
  obtain ⟨h1, h2, h3⟩ := hp
  refine ⟨rfl, hunsigned, ⟨rfl, rfl, rfl, hlp, h1.symm, rfl, rfl, rfl, h1.symm, rfl, h2.symm, rfl,
    hata, h3.symm, rfl, rfl, ?_, rfl, rfl, rfl, rfl⟩, rfl, readClock_eq_ok.mpr ⟨rfl, hclock⟩,
    ⟨hd, hinit.1, hinit.2, hcooled, hdue.1, hdue.2, UInt64.le_refl _⟩, hfits⟩
  rw [h2]
  exact hne

/-- The pool after the last deposit, with an accrual that goes through. -/
theorem exodus_pool : (run exodus).isSome = true ∧
    ((after exodus).pool ctx.programId pool).map (fun p => (p.lpMint, p.vault, p.collateralMint,
      p.seniorBalance.isSome, p.hwmEnabled, p.cooldownSlots)) =
      some (lpMint, vault, collateralMint, true, false, 1) ∧
    (∀ p ∈ (after exodus).pool ctx.programId pool,
      p.totalWithdrawn.toNat + (120900 : UInt64).toNat < 2 ^ 64 ∧
        (accrueFeesInner p 120900).toOption.isSome = true) ∧
    (after exodus).token vault =
      some ⟨collateralMint, ctx.vaultAuthority pool, 120900, .initialized⟩ ∧
    (after exodus).mint lpMint = some ⟨some (ctx.vaultAuthority pool), 149000, 6, true⟩ ∧
    (after exodus).data (readonly clockSysvarId) = .clock ⟨200, 1⟩ := by decide +kernel

theorem exodus_users :
    ((after exodus).record ctx.programId (ctx.depositPda pool (key bob))).map
      (fun d => (d.isInitialized, d.user, d.lastDepositSlot, d.lpAmount)) =
      some (1, key bob, 100, 50000) ∧
    (after exodus).token (lpAta bob) = some ⟨lpMint, key bob, 50000, .initialized⟩ ∧
    (after exodus).token (ata bob) = some ⟨collateralMint, key bob, 950000, .initialized⟩ ∧
    ((after exodus).record ctx.programId (ctx.depositPda pool (key alice))).map
      (fun d => (d.isInitialized, d.user, d.lastDepositSlot, d.lpAmount)) =
      some (1, key alice, 100, 100000) ∧
    (after exodus).token (lpAta alice) = some ⟨lpMint, key alice, 99000, .initialized⟩ ∧
    (after exodus).token (ata alice) = some ⟨collateralMint, key alice, 900000, .initialized⟩ := by
  decide +kernel

/-- Bob first, and Alice with all but the dead shares of her record. -/
theorem everybody_leaves_exodus : ∃ p₁ d d' w',
    Transition.Run (ctx.Leaves fun x => x.worth p₁) (after exodus)
      [leaver bob 50000 950000 d, leaver alice 99000 900000 d'] w' ∧
    ∀ x ∈ [leaver bob 50000 950000 d, leaver alice 99000 900000 d'],
      x.worth p₁ ≠ 0 → x.Gone ctx w' := by
  obtain ⟨hrun, hpool, hroom, hvault, hmint, hclock⟩ := exodus_pool
  obtain ⟨hbob, hlpBob, hataBob, halice, hlpAlice, hataAlice⟩ := exodus_users
  obtain ⟨p, hp, hfields⟩ := Option.map_eq_some_iff.mp hpool
  obtain ⟨d, hd, hdfields⟩ := Option.map_eq_some_iff.mp hbob
  obtain ⟨d', hd', hdfields'⟩ := Option.map_eq_some_iff.mp halice
  simp only [Prod.mk.injEq] at hfields hdfields hdfields'
  obtain ⟨h1, h2, h3, hsenior, hhwm, hcooldown⟩ := hfields
  obtain ⟨hinit, huser, hslot, hamount⟩ := hdfields
  obtain ⟨hinit', huser', hslot', hamount'⟩ := hdfields'
  obtain ⟨hroom, hacc⟩ := hroom p hp
  obtain ⟨p₁, hp₁⟩ := Option.isSome_iff_exists.mp hacc
  have hready : (leaver bob 50000 950000 d).Ready ctx pool ⟨200, 1⟩ (after exodus) p
      ⟨collateralMint, ctx.vaultAuthority pool, 120900, .initialized⟩ :=
    leaver_ready (by decide) ⟨h1, h2, h3⟩ (by decide) hlpBob hataBob hclock hd ⟨hinit, huser⟩
      (by rw [hslot, hcooldown]; decide) ⟨by decide, by rw [hamount]; decide⟩ (by decide)
  have hready' : (leaver alice 99000 900000 d').Ready ctx pool ⟨200, 1⟩ (after exodus) p
      ⟨collateralMint, ctx.vaultAuthority pool, 120900, .initialized⟩ :=
    leaver_ready (by decide) ⟨h1, h2, h3⟩ (by decide) hlpAlice hataAlice hclock hd'
      ⟨hinit', huser'⟩ (by rw [hslot', hcooldown]; decide)
      ⟨by decide, by rw [hamount']; decide⟩ (by decide)
  have hall : ∀ x ∈ [leaver bob 50000 950000 d, leaver alice 99000 900000 d'],
      x.Ready ctx pool ⟨200, 1⟩ (after exodus) p
        ⟨collateralMint, ctx.vaultAuthority pool, 120900, .initialized⟩ := by
    intro x hx
    rcases List.mem_pair.mp hx with rfl | rfl
    · exact hready
    · exact hready'
  have hapart : [key bob, key alice].Nodup := by decide
  have hsum : ([leaver bob 50000 950000 d, leaver alice 99000 900000 d'].map
      fun x => x.lpAta.amount.toNat).sum ≤ (149000 : UInt64).toNat := by
    simp only [List.map_cons, List.map_nil, List.sum_cons, List.sum_nil, leaver]
    decide
  rw [← h2] at hvault
  rw [← h1] at hmint
  exact ⟨p₁, d, d', everybody_leaves (after_reached hrun) hp hvault hmint (fun _ => hsenior)
    (toOption_eq_some.mp hp₁) hhwm hroom hall hapart hsum⟩

end Sample

end PercolatorStake
