import PercolatorStake.Ledger.Waterfall
import PercolatorStake.Execution

/-!
# Insurance in both directions

Insurance that comes back counts as returned whichever way it comes.  The return
out of the admin's wallet stops at what is out.  The recovery from the wrapper does
not look at what the admin has already returned, so the two together can bring back
more than went out, and then the split of a later loss is read off wrong.

The bound and the waterfall hold of every run whose recoveries stay within what is
out, and of every run that uses one of the two channels only.
-/

namespace PercolatorStake

open Word

namespace Event

def isRecover : Event → Bool
  | .instruction (.recoverFlushedInsurance _) _ => true
  | _ => false

end Event

/-- A recovery brings back no more than is out. -/
def Context.RecoversWithin (ctx : Context) (π : Pubkey) (w : World) : Event → Prop
  | .instruction (.recoverFlushedInsurance amount) _ =>
    ∀ p, w.pool ctx.programId π = some p →
      p.totalReturned.toNat + amount.toNat ≤ p.totalFlushed.toNat
  | _ => True

section

variable {ctx : Context} {π : Pubkey} {w w' : World} {p p' : StakePool} {t t' : TokenAccount}
  {m : Mint} {e : Event} {es : List Event} {ms : List (Move Pubkey)} {X : Nat}

theorem Context.RecoversWithin.withinLoss {ix : UInt64} {accounts : List AccountInfo}
    (h : ctx.RecoversWithin π w (.instruction (.recoverFlushedInsurance ix) accounts))
    (hv : Standing ctx π w p t m) :
    Ledger.WithinLoss (ledgerOf ctx π w p t) (.recover ix.toNat) := by
  rintro x hx
  cases hx
  exact h p hv.pool_eq

/-- Moves that stay within what is out keep the books covered. -/
theorem Valid.covered (h : Valid ctx π X w p t m) (hG : ctx.RecoversWithin π w e)
    (hreal : Realizes ctx π e ms)
    (hrun : Transition.Run Ledger.Step (ledgerOf ctx π w p t) ms (ledgerOf ctx π w' p' t'))
    (hc : Ledger.Covered (ledgerOf ctx π w p t)) : Ledger.Covered (ledgerOf ctx π w' p' t') := by
  have hother : (∀ amount accounts, e ≠ .instruction (.recoverFlushedInsurance amount) accounts) →
      Ledger.Covered (ledgerOf ctx π w' p' t') := by
    intro he
    refine (hrun.invariant (I := fun l => Ledger.Covered l ∧ Ledger.Matched l) ?_
      ⟨hc, h.sound.toMatched⟩).1
    rintro mv hmv l l' ⟨hc, hmatched⟩ hm
    refine ⟨hc.step hmatched hm ?_, hmatched.step hm⟩
    rintro x rfl
    obtain ⟨amount, accounts, hix, -⟩ := hreal.causedBy _ hmv
    exact (he amount accounts hix).elim
  cases e with
  | outside => exact hother fun _ _ e => by cases e
  | instruction ix accounts =>
    cases ix with
    | recoverFlushedInsurance amount =>
      cases hreal
      obtain ⟨l₁, hm, rfl⟩ := hrun
      exact hc.step h.sound.toMatched hm (hG.withinLoss h.standing)
    | _ => exact hother fun _ _ e => by cases e

theorem Ledger.covered_empty : Ledger.Covered (.empty : Ledger Pubkey) :=
  ⟨Nat.le_refl _, Int.le_refl _⟩

theorem Context.ReachedBy.covered (h : ctx.ReachedBy π (ctx.RecoversWithin π) es w) :
    ∃ p t m, Valid ctx π (es.map Event.inflow).sum w p t m ∧
      Ledger.Covered (ledgerOf ctx π w p t) :=
  h.invariant (fun _ _ _ _ _ _ _ _ _ _ _ hv hG _ hreal hrun hc => hv.covered hG hreal hrun hc)
    Ledger.covered_empty

/-- Without recoveries there is nothing to stay within. -/
theorem Context.Reached.by_returns (h : ctx.Reached π es w)
    (hes : ∀ e ∈ es, e.isRecover = false) : ctx.ReachedBy π (ctx.RecoversWithin π) es w := by
  refine h.by_all fun e he w => ?_
  unfold Context.RecoversWithin
  split
  · cases hes _ he
  · trivial

/-! ## What comes back -/

/-- In every run whose recoveries stay within what is out, no more is back than went
out, and the pool is worth no more than its deposits, fees and settled losses say.
From there a step keeps the bound exactly if it stays within. -/
theorem returned_le_flushed (h : ctx.ReachedBy π (ctx.RecoversWithin π) es w) :
    ∃ p v, w.pool ctx.programId π = some p ∧ p.totalPoolValue = some v ∧
      p.totalReturned ≤ p.totalFlushed ∧
      (v.toNat : Int) ≤ p.totalDeposited.toNat - p.totalWithdrawn.toNat +
        p.totalFeesEarned.toNat - p.realizedJuniorLoss.toNat ∧
      ∀ e w' p', ctx.Step π w e w' → w'.pool ctx.programId π = some p' →
        (p'.totalReturned ≤ p'.totalFlushed ↔ ctx.RecoversWithin π w e) := by
  obtain ⟨p, t, m, hvalid, hc⟩ := h.covered
  obtain ⟨v, hv, hval⟩ :=
    StakePool.totalPoolValue_isSome (p := p) hvalid.sound.value_nonneg hvalid.value_lt
  have hgross : p.book.value ≤ p.book.gross := hc.value_le
  rw [hval] at hgross
  refine ⟨p, v, hvalid.standing.pool_eq, hv, UInt64.le_iff_toNat_le.mpr hc.returned_le, hgross, ?_⟩
  intro e w' p'' hs hp''
  obtain ⟨p', t', m', ms, hvalid', hreal, hrun⟩ := hvalid.step hs
  obtain rfl : p' = p'' := Option.some_inj.mp (hvalid'.standing.pool_eq.symm.trans hp'')
  rw [UInt64.le_iff_toNat_le]
  refine ⟨fun hle => ?_, fun hG => (hvalid.covered hG hreal hrun hc).returned_le⟩
  unfold Context.RecoversWithin
  split
  · -- a recovery moves the returned counter and leaves the flushed one
    rename_i amount accounts
    intro q hq
    obtain rfl : p = q := Option.some_inj.mp (hvalid.standing.pool_eq.symm.trans hq)
    cases hreal
    obtain ⟨l₁, hm, rfl⟩ := hrun
    have hbook : p'.book.returned = p.book.returned + amount.toNat ∧
        p'.book.flushed = p.book.flushed := by
      generalize hl : ledgerOf ctx π w' p' t' = l₁ at hm
      have hb : p'.book = l₁.book := by rw [← hl]; rfl
      rw [hb]
      cases hm
      exact ⟨rfl, rfl⟩
    have hle : p'.book.returned ≤ p'.book.flushed := hle
    rw [hbook.1, hbook.2] at hle
    exact hle
  · trivial

/-- A flush, of which the admin returns a part. -/
def Sample.returned : List Action := [deposit alice 100000, flush 40000, giveBack 5000]

theorem Sample.returned_step : (run returned).isSome = true ∧
    Sample.ctx.Step pool (after returned) (recover 35000).event
      (after (returned ++ [recover 35000])) :=
  after_step (by decide +kernel)

/-- The wrapper gives the rest. -/
theorem Sample.returned_reachedBy :
    Sample.ctx.ReachedBy pool (Sample.ctx.RecoversWithin pool)
      (returned.map Action.event ++ [(recover 35000).event])
      (after (returned ++ [recover 35000])) := by
  refine ((after_reached returned_step.1).by_returns (by decide)).snoc ?_ returned_step.2
  intro p hp
  have hstate : ((after returned).pool Sample.ctx.programId pool).map
      (fun p => (p.totalReturned, p.totalFlushed)) = some (5000, 40000) := by decide +kernel
  rw [hp, Option.map_some, Option.some_inj, Prod.mk.injEq] at hstate
  rw [hstate.1, hstate.2]
  decide

theorem Sample.returned_le_flushed_rest :
    ∃ p v, (after (returned ++ [recover 35000])).pool Sample.ctx.programId pool = some p ∧
      p.totalPoolValue = some v ∧ p.totalReturned ≤ p.totalFlushed ∧
      (v.toNat : Int) ≤ p.totalDeposited.toNat - p.totalWithdrawn.toNat +
        p.totalFeesEarned.toNat - p.realizedJuniorLoss.toNat := by
  obtain ⟨p, v, hp, hv, hle, hgross, -⟩ := returned_le_flushed returned_reachedBy
  exact ⟨p, v, hp, hv, hle, hgross⟩

/-- The admin returns everything, and then everything is recovered once more. -/
def Sample.doubled : List Action :=
  [deposit alice 100000, flush 70000, giveBack 70000, recover 70000]

theorem Sample.doubled_returned :
    Sample.ctx.Reached pool (doubled.map Action.event) (after doubled) ∧
      ∃ p, (after doubled).pool Sample.ctx.programId pool = some p ∧
        p.totalFlushed = 70000 ∧ p.totalReturned = 140000 ∧ ¬p.totalReturned ≤ p.totalFlushed ∧
        p.totalDeposited = 100000 ∧ p.totalWithdrawn = 0 ∧ p.totalFeesEarned = 0 ∧
        p.realizedJuniorLoss = 0 ∧ p.totalPoolValue = some 170000 := by
  have hstate : ((after doubled).pool Sample.ctx.programId pool).map (fun p =>
      ([p.totalFlushed, p.totalReturned, p.totalDeposited, p.totalWithdrawn, p.totalFeesEarned,
        p.realizedJuniorLoss], p.totalPoolValue)) =
      some ([70000, 140000, 100000, 0, 0, 0], some 170000) := by decide +kernel
  refine ⟨after_reached (run_of_pool hstate), ?_⟩
  obtain ⟨p, hp, h⟩ := Option.map_eq_some_iff.mp hstate
  simp only [Prod.mk.injEq, List.cons.injEq, and_true] at h
  obtain ⟨⟨hf, hr, hd, hw, hfees, hl⟩, hv⟩ := h
  refine ⟨p, hp, hf, hr, ?_, hd, hw, hfees, hl, hv⟩
  rw [hf, hr]
  decide

/-! ## The waterfall -/

/-- A flush of `amount` lowers the junior value by as much of it as there is, and the
senior value by exactly the rest, both defined before and after. -/
structure FlushWaterfall (p p' : StakePool) (amount : UInt64) : Prop where
  junior_eq : p'.effectiveJuniorBalance.toNat +
    min amount.toNat p.effectiveJuniorBalance.toNat = p.effectiveJuniorBalance.toNat
  senior_eq : ∃ s s', p.seniorBalance = some s ∧ p'.seniorBalance = some s' ∧
    s'.toNat + (amount.toNat - min amount.toNat p.effectiveJuniorBalance.toNat) = s.toNat

theorem flushWaterfall_iff {amount : UInt64} (hv : p.book.value < 2 ^ 64)
    (hv' : p'.book.value < 2 ^ 64) :
    FlushWaterfall p p' amount ↔ Book.Waterfall p.book p'.book amount.toNat := by
  have hj := StakePool.toNat_effectiveJuniorBalance p
  have hj' := StakePool.toNat_effectiveJuniorBalance p'
  constructor
  · rintro ⟨hjunior, s, s', hs, hs', hsenior⟩
    have e := StakePool.senior_of_seniorBalance hs
    have e' := StakePool.senior_of_seniorBalance hs'
    rw [hj, hj'] at hjunior
    rw [hj] at hsenior
    exact ⟨hjunior, by omega, by omega⟩
  · rintro ⟨hjunior, hsenior, hnonneg⟩
    obtain ⟨s, hs, e⟩ := StakePool.seniorBalance_isSome hnonneg.1 hv
    obtain ⟨s', hs', e'⟩ := StakePool.seniorBalance_isSome hnonneg.2 hv'
    refine ⟨by rw [hj, hj']; exact hjunior, s, s', hs, hs', ?_⟩
    rw [hj]
    omega

/-- A flush from any reachable state is a waterfall exactly if the senior value is
defined and no more is back than went out, or there is no junior balance, or the
flush makes up for what is back too much and for all of the junior balance.  In a
run whose recoveries stay within what is out every flush is one. -/
theorem flush_waterfall (h : ctx.Reached π es w) {amount : UInt64} {accounts : List AccountInfo}
    (hs : ctx.Step π w (.instruction (.flushToInsurance amount) accounts) w') :
    ∃ p p', w.pool ctx.programId π = some p ∧ w'.pool ctx.programId π = some p' ∧
      (FlushWaterfall p p' amount ↔ p.seniorBalance.isSome = true ∧
        (p.totalReturned ≤ p.totalFlushed ∨ p.juniorBalance = 0 ∨
          p.totalReturned.toNat + p.juniorBalance.toNat ≤
            p.totalFlushed.toNat + amount.toNat)) ∧
      (ctx.ReachedBy π (ctx.RecoversWithin π) es w → FlushWaterfall p p' amount) := by
  obtain ⟨p, t, m, hvalid⟩ := h.stands
  obtain ⟨p', t', m', ms, hvalid', hreal, hrun⟩ := hvalid.step hs
  cases hreal
  obtain ⟨l₁, hm, rfl⟩ := hrun
  have hflush : 0 < amount.toNat ∧ (amount.toNat : Int) ≤ p.book.value ∧
      p'.book = { p.book with flushed := p.book.flushed + amount.toNat } := by
    generalize hl : ledgerOf ctx π w' p' t' = l₁ at hm
    have hb : p'.book = l₁.book := by rw [← hl]; rfl
    rw [hb]
    cases hm with
    | flush hx hle hvault => exact ⟨hx, hle, rfl⟩
  obtain ⟨hpos, hle, hbook⟩ := hflush
  have hiff : FlushWaterfall p p' amount ↔ 0 ≤ p.book.senior ∧ p.book.Absorbs amount.toNat := by
    rw [flushWaterfall_iff hvalid.value_lt hvalid'.value_lt, hbook]
    exact Book.waterfall_flush_iff hpos hle
  refine ⟨p, p', hvalid.standing.pool_eq, hvalid'.standing.pool_eq, ?_, ?_⟩
  · rw [hiff, StakePool.seniorBalance_isSome_iff hvalid.value_lt, UInt64.le_iff_toNat_le,
      eq_zero_iff]
    exact Iff.rfl
  · intro hby
    obtain ⟨q, t₁, m₁, hvalid₁, hc⟩ := hby.covered
    obtain rfl : p = q :=
      Option.some_inj.mp (hvalid.standing.pool_eq.symm.trans hvalid₁.standing.pool_eq)
    exact hiff.mpr ⟨hc.senior_nonneg hvalid₁.sound.toBalanced, .inl hc.returned_le⟩

/-- A junior tranche with a loss. -/
def Sample.lossy : List Action :=
  [enableTranches, deposit alice 100000, depositJunior bob 50000, flush 30000]

theorem Sample.lossy_step : (run lossy).isSome = true ∧
    Sample.ctx.Step pool (after lossy) (flush 40000).event (after (lossy ++ [flush 40000])) :=
  after_step (by decide +kernel)

theorem Sample.flush_waterfall_lossy :
    ∃ p p', (after lossy).pool Sample.ctx.programId pool = some p ∧
      (after (lossy ++ [flush 40000])).pool Sample.ctx.programId pool = some p' ∧
      FlushWaterfall p p' 40000 := by
  have hreached := after_reached lossy_step.1
  obtain ⟨p, p', hp, hp', -, hfall⟩ := flush_waterfall hreached lossy_step.2
  exact ⟨p, p', hp, hp', hfall (hreached.by_returns (by decide))⟩

/-- More is back than went out. -/
def Sample.overdrawn : List Action :=
  [enableTranches, deposit alice 100000, depositJunior bob 50000, flush 70000, giveBack 70000,
    recover 70000]

/-- The next flush leaves the junior tranche as it is and falls on the seniors. -/
theorem Sample.overdrawn_flush :
    Sample.ctx.Reached pool (overdrawn.map Action.event) (after overdrawn) ∧
      Sample.ctx.Step pool (after overdrawn) (flush 10000).event
        (after (overdrawn ++ [flush 10000])) ∧
      ∃ p p', (after overdrawn).pool Sample.ctx.programId pool = some p ∧
        (after (overdrawn ++ [flush 10000])).pool Sample.ctx.programId pool = some p' ∧
        p.trancheEnabled = true ∧ p.effectiveJuniorBalance = 50000 ∧
        p'.effectiveJuniorBalance = 50000 ∧ p.seniorBalance = some 170000 ∧
        p'.seniorBalance = some 160000 ∧ ¬FlushWaterfall p p' 10000 := by
  have hbefore : ((after overdrawn).pool Sample.ctx.programId pool).map (fun p =>
      (p.trancheEnabled, p.effectiveJuniorBalance, p.seniorBalance)) =
      some (true, 50000, some 170000) := by decide +kernel
  have hafter : ((after (overdrawn ++ [flush 10000])).pool Sample.ctx.programId pool).map (fun p =>
      (p.effectiveJuniorBalance, p.seniorBalance)) = some (50000, some 160000) := by decide +kernel
  obtain ⟨hscript, hflush⟩ := after_step (run_of_pool hafter)
  refine ⟨after_reached hscript, hflush, ?_⟩
  obtain ⟨p, hp, h⟩ := Option.map_eq_some_iff.mp hbefore
  obtain ⟨p', hp', h'⟩ := Option.map_eq_some_iff.mp hafter
  simp only [Prod.mk.injEq] at h h'
  refine ⟨p, p', hp, hp', h.1, h.2.1, h'.1, h.2.2, h'.2, fun hfall => ?_⟩
  have hjunior := hfall.junior_eq
  rw [h.2.1, h'.1] at hjunior
  revert hjunior
  decide

/-! ## One channel -/

/-- A loss that wipes the juniors out, the exit of the last one, and what the wrapper
still owes. -/
def Sample.forfeited : List Action :=
  [enableTranches, deposit alice 100000, depositJunior bob 50000, flush 70000, .tick ⟨200, 1⟩,
    withdraw bob 50000, recover 20000]

end

end PercolatorStake
