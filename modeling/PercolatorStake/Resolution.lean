import PercolatorStake.Execution
import PercolatorStake.Effect.Settings

/-!
# Resolution is final

The instruction that resolves a market asks for nothing but an empty claim on the
wrapper.  The ledger turns that into more: what came back from the wrapper and what
was forfeited is at most what was returned, so an empty claim leaves no loss
outstanding either.  Both caps are then shut for good, and the exit of the last
junior has nothing left to forfeit.
-/

namespace PercolatorStake

open Result Word

/-! ## Insurance counters of the ledger -/

/-- The four counters the insurance instructions and the last junior write. -/
def Book.insurance (b : Book) : Nat × Nat × Nat × Nat :=
  (b.flushed, b.returned, b.recovered, b.realized)

theorem Book.netLoss_of_insurance {b b' : Book} (h : b'.insurance = b.insurance) :
    b'.netLoss = b.netLoss ∧ b'.recoverable = b.recoverable := by
  unfold insurance at h
  simp only [Prod.mk.injEq] at h
  obtain ⟨hf, hr, hc, hl⟩ := h
  unfold netLoss recoverable
  rw [hf, hr, hc, hl]
  exact ⟨rfl, rfl⟩

/-- With no loss outstanding and nothing to recover, only a flush moves the
insurance counters. -/
theorem Ledger.Step.insurance_eq {K : Type} [DecidableEq K] {l l' : Ledger K} {m : Move K}
    (hm : Ledger.Step l m l') (hloss : l.book.netLoss = 0) (hrec : l.book.recoverable = 0)
    (hflush : ∀ x, m ≠ .flush x) : l'.book.insurance = l.book.insurance := by
  cases hm with
  | flush => exact (hflush _ rfl).elim
  | giveBack hx hle =>
    unfold Book.netLoss at hloss
    omega
  | recover hx hle => omega
  | exitJunior =>
    -- with no loss the effective balance is the balance
    have hnone : l.book.juniorBalance - l.book.effectiveJunior = 0 := by
      unfold Book.effectiveJunior
      omega
    unfold Book.insurance
    simp only [hnone, Nat.add_zero]
  | _ => rfl

/-- An empty claim on the wrapper means that no loss is outstanding. -/
theorem Ledger.Balanced.netLoss_eq_zero {K : Type} {X : Nat} {l : Ledger K}
    (h : Ledger.Balanced X l) (hrec : l.book.recoverable = 0) : l.book.netLoss = 0 := by
  have hle := h.settled_le_returned
  unfold Book.recoverable at hrec
  unfold Book.netLoss
  omega

/-! ## The flag -/

theorem Settings.Step.ne_flush {clock : Option Clock} {s s' : Settings} {ix : StakeInstruction}
    (h : Settings.Step clock s ix s') (hr : s.marketResolved = true) (amount : UInt64) :
    ix ≠ .deposit amount ∧ ix ≠ .depositJunior amount ∧ ix ≠ .flushToInsurance amount := by
  have hno : s.marketResolved = false → False := by
    intro hf
    rw [hr] at hf
    cases hf
  refine ⟨?_, ?_, ?_⟩
  · intro e
    rw [e] at h
    exact hno h.1
  · intro e
    rw [e] at h
    exact hno h.1
  · intro e
    rw [e] at h
    exact hno h.1

/-! ## Resolved pools -/

/-- A pool whose market is resolved, with the insurance counters of `p₀`. -/
structure Resolved (p₀ p : StakePool) : Prop where
  resolved : p.marketResolved = true
  flushed_eq : p.totalFlushed = p₀.totalFlushed
  returned_eq : p.totalReturned = p₀.totalReturned
  recovered_eq : p.totalRecoveredFromWrapper = p₀.totalRecoveredFromWrapper
  realized_eq : p.realizedJuniorLoss = p₀.realizedJuniorLoss
  net_loss : saturatingSub p.totalFlushed p.totalReturned = 0
  recoverable : p.wrapperRecoverable = 0
  effective_eq : p.effectiveJuniorBalance = p.juniorBalance

/-- The instructions that resolution closes. -/
def StakeInstruction.closesOnResolution : StakeInstruction → Bool
  | .deposit _ | .depositJunior _ | .flushToInsurance _ | .returnInsurance _
  | .recoverFlushedInsurance _ => true
  | _ => false

/-- A redemption priced against the balances as they are booked, with no loss taken
off the junior one. -/
def unadjustedPayout (p : StakePool) (junior : Bool) (lp : UInt64) : Option UInt64 :=
  if p.trancheEnabled = true ∧ junior = true then
    Math.calcJuniorCollateralForWithdraw p.juniorTotalLp p.juniorBalance lp
  else if p.trancheEnabled = true then do
    let value ← p.totalPoolValue
    let senior ← checkedSub value p.juniorBalance
    Math.calcSeniorCollateralForWithdraw p.seniorTotalLp senior lp
  else p.calcCollateralForWithdraw lp

theorem effective_of_netLoss {p : StakePool} (h : p.book.netLoss = 0) :
    p.effectiveJuniorBalance = p.juniorBalance := by
  rw [← UInt64.toNat_inj, StakePool.toNat_effectiveJuniorBalance, Book.effectiveJunior, h,
    Nat.sub_zero, StakePool.book]

theorem priceWithdraw_unadjusted {p : StakePool} {junior : Bool} {lp x : UInt64}
    (h : p.book.netLoss = 0) (hprice : priceWithdraw p junior lp = .ok x) :
    unadjustedPayout p junior lp = some x := by
  have heff := effective_of_netLoss h
  unfold priceWithdraw at hprice
  unfold unadjustedPayout
  by_cases hj : p.trancheEnabled = true ∧ junior = true
  · rw [if_pos hj, okOr_eq_ok, heff] at hprice
    rw [if_pos hj]
    exact hprice
  · rw [if_neg hj] at hprice ⊢
    by_cases ht : p.trancheEnabled = true
    · simp only [if_pos ht, bind_eq_ok, okOr_eq_ok, StakePool.seniorBalance, heff] at hprice
      obtain ⟨s, hs, hx⟩ := hprice
      obtain ⟨v, hv, hs⟩ := Option.bind_eq_some_iff.mp hs
      rw [if_pos ht]
      exact Option.bind_eq_some_iff.mpr ⟨v, hv, Option.bind_eq_some_iff.mpr ⟨s, hs, hx⟩⟩
    · rw [if_neg ht, okOr_eq_ok] at hprice
      rw [if_neg ht]
      exact hprice

section

variable {ctx : Context} {π : Pubkey} {w₀ w₁ w w' : World} {es fs : List Event}
  {accounts : List AccountInfo} {X : Nat} {p : StakePool} {t : TokenAccount} {m : Mint}
  {e : Event}

/-- What resolution fixes, as an invariant of the run that follows. -/
def Context.Settled (ctx : Context) (π : Pubkey) (c : Nat × Nat × Nat × Nat) (w : World) : Prop :=
  ∃ X p t m, Valid ctx π X w p t m ∧ p.marketResolved = true ∧ p.book.netLoss = 0 ∧
    p.book.recoverable = 0 ∧ p.book.insurance = c

/-- An event on a resolved pool leaves it resolved and its insurance counters
alone. -/
theorem Context.Settled.step {c : Nat × Nat × Nat × Nat} (h : ctx.Settled π c w)
    (hs : ctx.Step π w e w') : ctx.Settled π c w' := by
  obtain ⟨X, p, t, m, hvalid, hflag, hloss, hrec, hc⟩ := h
  obtain ⟨p', t', m', ms, hvalid', hreal, hrun⟩ := hvalid.step hs
  have hflag' : p'.marketResolved = true ∧
      ∀ amount accounts, e ≠ .instruction (.flushToInsurance amount) accounts := by
    cases e with
    | outside x =>
      have hpool := (Context.Outside.pool_eq hs).trans hvalid.standing.pool_eq
      obtain rfl : p' = p := Option.some_inj.mp (hvalid'.standing.pool_eq.symm.trans hpool)
      exact ⟨hflag, fun _ _ e => by cases e⟩
    | instruction ix accounts =>
      obtain ⟨q, hrw, hstep, -⟩ := hvalid.standing.settings_step hs
      obtain rfl : p' = q := Option.some_inj.mp (hvalid'.standing.pool_eq.symm.trans hrw.after)
      refine ⟨hstep.keeps.2.1 hflag, ?_⟩
      intro amount accounts' e
      cases e
      exact (hstep.ne_flush hflag amount).2.2 rfl
  -- along the moves of the event the counters stay, so the caps stay shut
  have hins : p'.book.insurance = p.book.insurance := by
    refine Transition.Run.invariant (I := fun l => l.book.insurance = p.book.insurance) hrun ?_ rfl
    intro mv hmv l l' hl hm
    obtain ⟨hl₁, hl₂⟩ := Book.netLoss_of_insurance hl
    rw [← hl]
    exact hm.insurance_eq (hl₁.trans hloss) (hl₂.trans hrec) (hreal.ne_flush hflag'.2 mv hmv)
  obtain ⟨h₁, h₂⟩ := Book.netLoss_of_insurance hins
  exact ⟨_, p', t', m', hvalid', hflag'.1, h₁.trans hloss, h₂.trans hrec, hins.trans hc⟩

theorem Context.Settled.run {c : Nat × Nat × Nat × Nat} (h : ctx.Settled π c w)
    (hrun : Transition.Run (ctx.Step π) w fs w') : ctx.Settled π c w' :=
  hrun.invariant (fun _ _ _ _ hw hs => hw.step hs) h

/-- Resolving settles. -/
theorem Valid.settled (h : Valid ctx π X w p t m)
    (hs : ctx.Step π w (.instruction .setMarketResolved accounts) w') :
    ctx.Settled π p.book.insurance w' := by
  obtain ⟨p', t', m', ms, hvalid', -, -⟩ := h.step hs
  obtain ⟨hpool, -, hd⟩ := hs
  obtain ⟨a, q, p'', ha, hq, ⟨hgate, -, rfl⟩, hw'⟩ := processSetMarketResolved_configured hd
  obtain ⟨hk, rfl⟩ := h.standing.pool_read hpool ha hq
  have hp' : w'.pool ctx.programId π = some (p.setMarketResolved true) := by
    rw [hw', hk, World.pool_eq_some, World.account_set_self]
  obtain rfl : p' = p.setMarketResolved true :=
    Option.some_inj.mp (hvalid'.standing.pool_eq.symm.trans hp')
  have hrec := StakePool.wrapperFullyRecovered_iff.mp hgate
  have hloss : p.book.netLoss = 0 := h.sound.toBalanced.netLoss_eq_zero hrec
  have hbook : (p.setMarketResolved true).book = p.book := StakePool.book_setMarketResolved ..
  refine ⟨_, _, t', m', hvalid', ?_, ?_, ?_, ?_⟩
  · exact congrArg Settings.marketResolved (StakePool.settings_setMarketResolved p true)
  · rw [hbook, hloss]
  · rw [hbook, hrec]
  · rw [hbook]

/-- Nothing that resolution closes gets through. -/
theorem Context.Settled.closed {c : Nat × Nat × Nat × Nat} (h : ctx.Settled π c w)
    {ix : StakeInstruction} (hix : ix.closesOnResolution = true)
    (hpool : ∃ a, ix.poolAccount accounts = some a ∧ a.key = π) :
    process ctx w accounts ix ≠ .ok w' := by
  intro hd
  obtain ⟨X, p, t, m, hvalid, hflag, hloss, hrec, -⟩ := h
  have hopen : ix.creates = false := by
    cases ix <;> first | rfl | cases hix
  obtain ⟨a, q, q', ha, hrw, hstep, -⟩ := process_rewrites hd hopen
  have hsecond : ix.poolAccount accounts = accounts[1]? := by
    cases ix <;> first | rfl | cases hix
  obtain ⟨-, rfl⟩ := hvalid.standing.pool_read (hsecond ▸ hpool) ha hrw.before
  cases ix with
  | deposit amount => exact (hstep.ne_flush hflag amount).1 rfl
  | depositJunior amount => exact (hstep.ne_flush hflag amount).2.1 rfl
  | flushToInsurance amount => exact (hstep.ne_flush hflag amount).2.2 rfl
  | returnInsurance amount =>
    obtain ⟨r⟩ := processReturnInsurance_run hd
    obtain ⟨-, hp⟩ := hvalid.standing.pool_read hpool (ReturnAccounts.next_eq_ok r.next_eq).2
      r.pool_eq
    have hpos := r.amount_pos
    have hle := r.amount_le
    rw [← hp] at hle
    unfold Book.netLoss at hloss
    omega
  | recoverFlushedInsurance amount =>
    obtain ⟨r⟩ := processRecoverFlushedInsurance_run hd
    obtain ⟨-, hp⟩ := hvalid.standing.pool_read hpool (RecoverAccounts.next_eq_ok r.next_eq)
      r.pool_eq
    have hpos := r.amount_pos
    have hle := r.amount_le
    rw [← hp] at hle
    omega
  | _ => cases hix

/-- A withdrawal pays out of the booked balances. -/
theorem Context.Settled.withdraw {c : Nat × Nat × Nat × Nat} (h : ctx.Settled π c w)
    {lp : UInt64} (r : WithdrawRun ctx w accounts lp w') (hk : r.a.poolPda.key = π) :
    unadjustedPayout r.accrued r.deposit.isJuniorDeposit lp = some r.amount := by
  obtain ⟨X, p, t, m, hvalid, -, hloss, -, -⟩ := h
  obtain ⟨-, rfl, hacc⟩ := r.standing_eq hvalid.standing
    ⟨_, (WithdrawAccounts.next_eq_ok r.next_eq).2, hk⟩
  refine priceWithdraw_unadjusted ?_ r.price_eq
  obtain ⟨-, ⟨hbook, -⟩ | ⟨f, j, -, -, -, hbook, -⟩⟩ := accrueFeesInner_book hacc
  · rw [hbook]
    exact hloss
  · rw [hbook]
    exact hloss

theorem Context.Settled.resolved {p₁ : StakePool} (h : ctx.Settled π p₁.book.insurance w) :
    ∃ p, w.pool ctx.programId π = some p ∧ Resolved p₁ p := by
  obtain ⟨X, p, t, m, hvalid, hflag, hloss, hrec, hc⟩ := h
  unfold Book.insurance StakePool.book at hc
  simp only [Prod.mk.injEq, UInt64.toNat_inj] at hc
  obtain ⟨hf, hr, hcov, hl⟩ := hc
  refine ⟨p, hvalid.standing.pool_eq, ⟨hflag, hf, hr, hcov, hl, ?_, ?_, effective_of_netLoss hloss⟩⟩
  · rw [eq_zero_iff, toNat_saturatingSub]
    exact hloss
  · rw [eq_zero_iff, StakePool.toNat_wrapperRecoverable, hrec]

/-- Once a market is resolved it stays resolved, with the insurance counters fixed
and nothing outstanding.  Deposits, flushes, returns and recoveries are over, and
both tranches redeem at their booked balances. -/
theorem resolution_final (h : ctx.Reached π es w₀)
    (hresolve : ctx.Step π w₀ (.instruction .setMarketResolved accounts) w₁)
    (hrun : Transition.Run (ctx.Step π) w₁ fs w) :
    ∃ p₀ p, w₀.pool ctx.programId π = some p₀ ∧ w.pool ctx.programId π = some p ∧
      Resolved p₀ p ∧
      (∀ ix accounts w', ix.closesOnResolution = true →
        (∃ a, ix.poolAccount accounts = some a ∧ a.key = π) →
        process ctx w accounts ix ≠ .ok w') ∧
      ∀ accounts lp w' (r : WithdrawRun ctx w accounts lp w'), r.a.poolPda.key = π →
        unadjustedPayout r.accrued r.deposit.isJuniorDeposit lp = some r.amount := by
  obtain ⟨p₀, t, m, hvalid⟩ := h.stands
  have hsettled := (hvalid.settled hresolve).run hrun
  obtain ⟨p, hp, hresolved⟩ := hsettled.resolved
  exact ⟨p₀, p, hvalid.standing.pool_eq, hp, hresolved,
    fun _ _ _ hix hpool => hsettled.closed hix hpool, fun _ _ _ r hk => hsettled.withdraw r hk⟩

/-- A flush with juniors in the pool, recovered in full. -/
def Sample.recovered : List Action :=
  [deposit alice 100000, enableTranches, depositJunior bob 50000, flush 40000, recover 40000]

/-- The market is resolved and the junior leaves. -/
def Sample.wound : List Action := recovered ++ [resolve] ++ [.tick ⟨200, 1⟩, withdraw bob 50000]

theorem Sample.resolution_final_wound :
    ∃ p₀ p, (after recovered).pool Sample.ctx.programId pool = some p₀ ∧
      (after wound).pool Sample.ctx.programId pool = some p ∧ Resolved p₀ p ∧
      p.juniorTotalLp = 0 := by
  obtain ⟨hresolved, hrun⟩ := after_run (s := recovered ++ [resolve])
    (r := [.tick ⟨200, 1⟩, withdraw bob 50000]) (by decide +kernel)
  obtain ⟨hscript, hstep⟩ := after_step hresolved
  obtain ⟨p₀, p, hp₀, hp, h, -, -⟩ := resolution_final (after_reached hscript) hstep hrun
  have hstate : ((after wound).pool Sample.ctx.programId pool).map (·.juniorTotalLp) = some 0 := by
    decide +kernel
  have hp : (after wound).pool Sample.ctx.programId pool = some p := hp
  rw [hp, Option.map_some, Option.some_inj] at hstate
  exact ⟨p₀, p, hp₀, hp, h, hstate⟩

end

end PercolatorStake
