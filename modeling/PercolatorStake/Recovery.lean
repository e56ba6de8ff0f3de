import PercolatorStake.Ledger.Waterfall
import PercolatorStake.Execution

/-!
# Recovery from the wrapper

What went to the wrapper and has neither been pulled back from it nor been
forfeited by an exiting junior tranche can be pulled back, once.  When nothing is
left the market can be resolved.
-/

namespace PercolatorStake

open Result Word

/-! ## Totals of a run -/

/-- Collateral sent to the wrapper by flushes, and pulled back by recoveries. -/
def Event.wrapper : Event → Nat × Nat
  | .instruction (.flushToInsurance amount) _ => (amount.toNat, 0)
  | .instruction (.recoverFlushedInsurance amount) _ => (0, amount.toNat)
  | _ => 0

def Move.wrapper {K : Type} : Move K → Nat × Nat
  | .flush x => (x, 0)
  | .recover x => (0, x)
  | _ => 0

theorem Ledger.Step.wrapper {K : Type} [DecidableEq K] {l l' : Ledger K} {m : Move K}
    (hm : Ledger.Step l m l') :
    (l'.book.flushed, l'.book.recovered) = (l.book.flushed, l.book.recovered) + m.wrapper := by
  cases hm <;> rfl

section

variable {ctx : Context} {π : Pubkey} {w w' : World} {p : StakePool} {t : TokenAccount} {m : Mint}
  {e : Event} {es : List Event} {ms : List (Move Pubkey)} {X : Nat}

theorem Realizes.wrapper (h : Realizes ctx π e ms) : (ms.map Move.wrapper).sum = e.wrapper := by
  cases e with
  | outside x =>
    cases h
    rfl
  | instruction ix accounts =>
    cases ix with
    | deposit amount | depositJunior amount =>
      obtain ⟨_, acc, _, -, ha, rfl⟩ := h
      rw [List.map_append, List.sum_append, ha.sum_eq_zero fun _ _ => rfl]
      rfl
    | withdraw lp =>
      obtain ⟨_, acc, _, _, -, ha, rfl | rfl | rfl, rfl⟩ := h <;>
        rw [List.map_append, List.sum_append, ha.sum_eq_zero fun _ _ => rfl] <;> rfl
    | accrueFees => exact Accrual.sum_eq_zero h fun _ _ => rfl
    | _ =>
      cases h
      rfl

/-- The counters of both directions are the totals of the run. -/
theorem Context.Reached.wrapper_totals (h : ctx.Reached π es w) :
    ∃ p t m, Valid ctx π (es.map Event.inflow).sum w p t m ∧
      (p.book.flushed, p.book.recovered) = (es.map Event.wrapper).sum := by
  refine h.by_true.tally (I := fun n l => (l.book.flushed, l.book.recovered) = n)
    Event.wrapper ?_ rfl
  intro e _ n X w w' p t m p' t' ms _ _ _ hreal hrun hn
  rw [← hreal.wrapper]
  exact hrun.tally (I := fun n l => (l.book.flushed, l.book.recovered) = n) Move.wrapper
    (fun _ _ _ _ _ h hm => hm.wrapper.trans (congrArg (· + _) h)) hn

/-! ## The ledger of the wrapper -/

/-- The counters of a pool against the totals `flushed` and `recovered` of a run. -/
structure RecoveryLedger (flushed recovered : Nat) (p : StakePool) : Prop where
  flushed_eq : p.totalFlushed.toNat = flushed
  recovered_eq : p.totalRecoveredFromWrapper.toNat = recovered
  le_returned : p.totalRecoveredFromWrapper.toNat + p.realizedJuniorLoss.toNat ≤
    p.totalReturned.toNat
  le_flushed : p.totalRecoveredFromWrapper.toNat + p.realizedJuniorLoss.toNat ≤
    p.totalFlushed.toNat
  /-- Neither of the two subtractions saturates. -/
  recoverable_eq : (p.wrapperRecoverable.toNat : Int) =
    p.totalFlushed.toNat - p.realizedJuniorLoss.toNat - p.totalRecoveredFromWrapper.toNat

/-- What an event may do to the amount that is still recoverable. -/
def MovesRecoverable (p p' : StakePool) : Event → Prop
  | .instruction (.flushToInsurance amount) _ =>
    p'.wrapperRecoverable.toNat = p.wrapperRecoverable.toNat + amount.toNat
  | .instruction (.recoverFlushedInsurance amount) _ =>
    p'.wrapperRecoverable.toNat + amount.toNat = p.wrapperRecoverable.toNat
  | _ => p'.wrapperRecoverable ≤ p.wrapperRecoverable

/-- Both resolutions get through: the pool's own at once, the market's as far as the
wrapper lets it. -/
structure OpensResolution (ctx : Context) (π : Pubkey) (w : World) (p : StakePool) : Prop where
  gate : resolveGate p = .ok ()
  set_market_resolved : ∀ admin poolPda : AccountInfo, admin.key = p.admin →
    admin.isSigner = true → poolPda.key = π → poolPda.isWritable = true →
    process ctx w [admin, poolPda] .setMarketResolved =
      .ok (w.set π ⟨ctx.programId, .pool (p.setMarketResolved true)⟩)
  admin_resolve_market : ∀ admin poolPda slab percolatorProgram : AccountInfo,
    admin.key = p.admin → admin.isSigner = true → poolPda.key = π → slab.key = p.slab →
    percolatorProgram.key = p.percolatorProgram →
    process ctx w [admin, poolPda, slab, percolatorProgram] .adminResolveMarket =
      cpiPoolSetter ctx w ⟨admin, poolPda, slab, percolatorProgram⟩
        (Cpi.resolveMarket percolatorProgram.key poolPda.key slab.key) p.bump

theorem Valid.movesRecoverable {p' : StakePool} {t' : TokenAccount} (h : Valid ctx π X w p t m)
    (hreal : Realizes ctx π e ms)
    (hrun : Transition.Run Ledger.Step (ledgerOf ctx π w p t) ms (ledgerOf ctx π w' p' t')) :
    MovesRecoverable p p' e := by
  have hle : (∀ amount accounts, e ≠ .instruction (.flushToInsurance amount) accounts) →
      p'.wrapperRecoverable ≤ p.wrapperRecoverable := by
    intro he
    rw [UInt64.le_iff_toNat_le, StakePool.toNat_wrapperRecoverable,
      StakePool.toNat_wrapperRecoverable]
    exact hrun.invariant (I := fun l => l.book.recoverable ≤ p.book.recoverable)
      (fun mv hmv _ _ hi hm => (Ledger.recoverable_le hm (hreal.ne_flush he mv hmv)).trans hi)
      (Nat.le_refl _)
  cases e with
  | outside => exact hle fun _ _ e => by cases e
  | instruction ix accounts =>
    cases ix with
    | flushToInsurance amount =>
      cases hreal
      obtain ⟨l₁, hm, rfl⟩ := hrun
      have hadd := Ledger.recoverable_flush h.sound.toBalanced hm
      show p'.wrapperRecoverable.toNat = p.wrapperRecoverable.toNat + amount.toNat
      rw [StakePool.toNat_wrapperRecoverable, StakePool.toNat_wrapperRecoverable]
      exact hadd
    | recoverFlushedInsurance amount =>
      cases hreal
      obtain ⟨l₁, hm, rfl⟩ := hrun
      have hsub := Ledger.recoverable_recover hm
      show p'.wrapperRecoverable.toNat + amount.toNat = p.wrapperRecoverable.toNat
      rw [StakePool.toNat_wrapperRecoverable, StakePool.toNat_wrapperRecoverable]
      exact hsub
    | _ => exact hle fun _ _ e => by cases e

theorem bookRecover_resolved {p' : StakePool} {amount : UInt64}
    (h : bookRecover p amount = .ok p') : p'.marketResolved = p.marketResolved := by
  unfold bookRecover at h
  simp only [bind_eq_ok, ok_eq_ok] at h
  obtain ⟨r, -, c, -, rfl⟩ := h
  rfl

theorem resolveGate_eq_ok {u : Unit} : resolveGate p = .ok u ↔ p.book.recoverable = 0 := by
  unfold resolveGate
  rw [rejectIf_eq_ok, Bool.not_eq_false, StakePool.wrapperFullyRecovered_iff]

theorem Standing.opensResolution (h : Standing ctx π w p t m) (hr : p.marketResolved = false)
    (h0 : p.book.recoverable = 0) : OpensResolution ctx π w p := by
  have hgate : resolveGate p = .ok () := resolveGate_eq_ok.mpr h0
  refine ⟨hgate, ?_, ?_⟩
  · intro admin poolPda hadmin hsigner hk hwritable
    obtain ⟨howner, hdata, hread⟩ := h.readPool_eq hk
    have hstore : w.store poolPda (.pool (p.setMarketResolved true)) =
        .ok (w.set π ⟨ctx.programId, .pool (p.setMarketResolved true)⟩) :=
      (store_pool_eq_ok hk h.pool_eq).mpr ⟨hwritable, rfl⟩
    simp [process, processSetMarketResolved, AdminPoolAccounts.next, requireSigner,
      validateAccountOwner, validateAccountNotEmpty, validateAccountWritable, rejectIf, ok_bind,
      hsigner, howner, hdata, hwritable, hread, hadmin, hr, hgate, hstore]
  · intro admin poolPda slab program hadmin hsigner hk hslab hprogram
    obtain ⟨howner, hdata, hread⟩ := h.readPool_eq hk
    simp [process, processAdminResolveMarket, MarketAccounts.next, requireSigner,
      validateAccountOwner, validateAccountNotEmpty, rejectIf, ok_bind, hsigner, howner, hdata,
      hread, hadmin, hgate, hslab, hprogram]

/-- The wrapper's ledger in every reachable state.  What is recoverable is what was
flushed less what was forfeited and what was pulled back, it moves with flushes and
recoveries by exactly their amounts, and a recovery of all of it opens resolution. -/
theorem wrapper_recovery_ledger (h : ctx.Reached π es w) :
    ∃ p, w.pool ctx.programId π = some p ∧
      RecoveryLedger (es.map Event.wrapper).sum.1 (es.map Event.wrapper).sum.2 p ∧
      (es.map Event.wrapper).sum.2 ≤ (es.map Event.wrapper).sum.1 ∧
      (∀ e w', ctx.Step π w e w' →
        ∃ p', w'.pool ctx.programId π = some p' ∧ MovesRecoverable p p' e) ∧
      (p.poolMode = 0 → p.marketResolved = false → 0 < p.wrapperRecoverable →
        checkRecoverCap p p.wrapperRecoverable = .ok () ∧
        ∀ accounts w', ctx.Step π w
            (.instruction (.recoverFlushedInsurance p.wrapperRecoverable) accounts) w' →
          ∃ p', w'.pool ctx.programId π = some p' ∧ OpensResolution ctx π w' p') := by
  obtain ⟨p, t, m, hvalid, htotals⟩ := h.wrapper_totals
  have hreturned : p.totalRecoveredFromWrapper.toNat + p.realizedJuniorLoss.toNat ≤
      p.totalReturned.toNat := hvalid.sound.settled_le_returned
  have hflushed : p.totalRecoveredFromWrapper.toNat + p.realizedJuniorLoss.toNat ≤
      p.totalFlushed.toNat := hvalid.sound.settled_le_flushed
  have hrecoverable : p.wrapperRecoverable.toNat =
      p.totalFlushed.toNat - p.realizedJuniorLoss.toNat - p.totalRecoveredFromWrapper.toNat :=
    StakePool.toNat_wrapperRecoverable p
  have hf : p.totalFlushed.toNat = (es.map Event.wrapper).sum.1 := congrArg Prod.fst htotals
  have hc : p.totalRecoveredFromWrapper.toNat = (es.map Event.wrapper).sum.2 :=
    congrArg Prod.snd htotals
  refine ⟨p, hvalid.standing.pool_eq, ⟨hf, hc, hreturned, hflushed, by omega⟩, by omega, ?_, ?_⟩
  · intro e w' hs
    obtain ⟨p', t', m', ms, hvalid', hreal, hrun⟩ := hvalid.step hs
    exact ⟨p', hvalid'.standing.pool_eq, hvalid.movesRecoverable hreal hrun⟩
  · intro _ hresolved hpos
    rw [pos_iff, StakePool.toNat_wrapperRecoverable] at hpos
    refine ⟨checkRecoverCap_eq_ok.mpr ⟨hpos, (StakePool.toNat_wrapperRecoverable p).le⟩, ?_⟩
    rintro accounts w' ⟨hpool, hsign, hd⟩
    obtain ⟨⟨p', hbook, hp'⟩, p'', t', m', hstanding, -, hrun⟩ :=
      hvalid.standing.recover_pool hpool hd
    obtain rfl : p' = p'' := Option.some_inj.mp (hp'.symm.trans hstanding.pool_eq)
    obtain ⟨l₁, hm, rfl⟩ := hrun
    have hleft := Ledger.recoverable_recover hm
    rw [StakePool.toNat_wrapperRecoverable] at hleft
    have hleft : p'.book.recoverable + p.book.recoverable = p.book.recoverable := hleft
    refine ⟨p', hp', hstanding.opensResolution ((bookRecover_resolved hbook).trans hresolved) ?_⟩
    omega

/-- A flush, of which a part comes back each way. -/
def Sample.flushed : List Action :=
  [deposit alice 100000, flush 40000, giveBack 5000, recover 10000]

/-- What is left to recover is recovered. -/
def Sample.emptied : List Action := flushed ++ [recover 30000]

theorem Sample.flushed_step : (run flushed).isSome = true ∧
    Sample.ctx.Step pool (after flushed) (recover 30000).event (after emptied) :=
  after_step (by decide +kernel)

theorem Sample.flushed_state :
    ((after flushed).pool Sample.ctx.programId pool).map
      (fun p => (p.poolMode, p.marketResolved, p.wrapperRecoverable)) = some (0, false, 30000) := by
  decide +kernel

theorem Sample.wrapper_recovery_emptied :
    ∃ p p', (after flushed).pool Sample.ctx.programId pool = some p ∧
      RecoveryLedger 40000 10000 p ∧ checkRecoverCap p 30000 = .ok () ∧
      (after emptied).pool Sample.ctx.programId pool = some p' ∧
      OpensResolution Sample.ctx pool (after emptied) p' := by
  obtain ⟨p, hp, hledger, -, -, hopen⟩ := wrapper_recovery_ledger (after_reached flushed_step.1)
  have hstate := flushed_state
  rw [hp, Option.map_some, Option.some_inj, Prod.mk.injEq, Prod.mk.injEq] at hstate
  obtain ⟨hmode, hresolved, hrec⟩ := hstate
  rw [hrec] at hopen
  obtain ⟨hcap, hnext⟩ := hopen hmode hresolved (by decide)
  obtain ⟨p', hp', hopens⟩ := hnext _ _ flushed_step.2
  exact ⟨p, p', hp, hledger, hcap, hp', hopens⟩

end

end PercolatorStake
