import PercolatorStake.Execution
import PercolatorStake.Effect.Settings

/-!
# The configuration of a pool

Read off its packed bytes, the configuration of a pool is valid in every reachable world.
What it was set up as never changes, its flags are not unset, and the terms of the junior
tranche are fixed while there is junior LP.
-/

namespace PercolatorStake

open Result

/-! ## The terms of the junior tranche -/

section

variable {K : Type} [DecidableEq K] {l l' : Ledger K} {mv : Move K} {ms : List (Move K)}

theorem Ledger.Step.tranche_eq (hm : Ledger.Step l mv l') (hne : ∀ x, mv ≠ .setTranches x) :
    l'.book.tranches = l.book.tranches ∧ l'.book.multiplier = l.book.multiplier := by
  cases hm with
  | setTranches => exact (hne _ rfl).elim
  | _ => exact ⟨rfl, rfl⟩

theorem Ledger.run_tranche_eq (hrun : Transition.Run Ledger.Step l ms l')
    (hne : ∀ mv ∈ ms, ∀ x, mv ≠ .setTranches x) :
    l'.book.tranches = l.book.tranches ∧ l'.book.multiplier = l.book.multiplier := by
  apply hrun.invariant (I := fun u => u.book.tranches = l.book.tranches ∧
    u.book.multiplier = l.book.multiplier) _ ⟨rfl, rfl⟩
  intro mv hmv u v hu hm
  obtain ⟨ht, hmult⟩ := hm.tranche_eq (hne mv hmv)
  exact ⟨ht.trans hu.1, hmult.trans hu.2⟩

end

/-- What an event makes of the tranche flag and the multiplier: nothing, or it switches
tranches on with a multiplier in range, the one they have where there is junior LP. -/
def TrancheStep (p p' : StakePool) : Prop :=
  p'.trancheEnabled = p.trancheEnabled ∧ p'.juniorFeeMultBps = p.juniorFeeMultBps ∨
    p'.trancheEnabled = true ∧ (10000 ≤ p'.juniorFeeMultBps ∧ p'.juniorFeeMultBps ≤ 50000) ∧
      (0 < p.juniorTotalLp → p'.juniorFeeMultBps = p.juniorFeeMultBps)

section

variable {ctx : Context} {π : Pubkey} {w w' : World} {p p' p'' : StakePool} {t : TokenAccount}
  {m : Mint} {e : Event} {es : List Event}

/-- What an event leaves as it is. -/
structure Kept (p p' : StakePool) : Prop where
  tranche : p.trancheEnabled = true → p'.trancheEnabled = true
  resolved : p.marketResolved = true → p'.marketResolved = true
  burned : p.assetAdminBurned = true → p'.assetAdminBurned = true
  pool_mode : p'.poolMode = p.poolMode
  slab : p'.slab = p.slab
  vault : p'.vault = p.vault
  lp_mint : p'.lpMint = p.lpMint
  collateral_mint : p'.collateralMint = p.collateralMint
  percolator_program : p'.percolatorProgram = p.percolatorProgram

theorem Kept.refl (p : StakePool) : Kept p p :=
  ⟨id, id, id, rfl, rfl, rfl, rfl, rfl, rfl⟩

theorem Kept.trans (h : Kept p p') (h' : Kept p' p'') : Kept p p'' where
  tranche := fun hp => h'.tranche (h.tranche hp)
  resolved := fun hp => h'.resolved (h.resolved hp)
  burned := fun hp => h'.burned (h.burned hp)
  pool_mode := h'.pool_mode.trans h.pool_mode
  slab := h'.slab.trans h.slab
  vault := h'.vault.trans h.vault
  lp_mint := h'.lp_mint.trans h.lp_mint
  collateral_mint := h'.collateral_mint.trans h.collateral_mint
  percolator_program := h'.percolator_program.trans h.percolator_program

/-- A valid configuration. -/
structure WellConfigured (p : StakePool) : Prop where
  floor : p.hwmEnabled = true → 1 ≤ p.hwmFloorBps.toNat ∧ p.hwmFloorBps.toNat ≤ 9000
  multiplier : p.trancheEnabled = true →
    10000 ≤ p.juniorFeeMultBps.toNat ∧ p.juniorFeeMultBps.toNat ≤ 50000
  discriminator : p.validateDiscriminator = true
  version : p.version = StakePool.currentVersion

/-! ## One event -/

/-- The tranche terms after an event.  Only one instruction writes them; every other
event is moves of the ledger that do not. -/
theorem Standing.tranche_step (h : Standing ctx π w p t m) (hs : ctx.Step π w e w')
    (hp' : w'.pool ctx.programId π = some p') : TrancheStep p p' := by
  by_cases he : ∃ mult accounts, e = .instruction (.adminSetTrancheConfig mult) accounts
  · obtain ⟨mult, accounts, rfl⟩ := he
    obtain ⟨hpool, -, hd⟩ := hs
    obtain ⟨a, q, q', ha, hq, ⟨hrange, hlocked, hq'⟩, hw'⟩ :=
      processAdminSetTrancheConfig_configured hd
    obtain ⟨hk, rfl⟩ := h.pool_read hpool ha hq
    have hafter : w'.pool ctx.programId π = some q' := by
      rw [hw', hk, World.pool_eq_some, World.account_set_self]
    obtain rfl : q' = p' := Option.some_inj.mp (hafter.symm.trans hp')
    have hbook : q'.book = { p.book with tranches := true, multiplier := mult.toNat } := by
      rw [hq', StakePool.book_setJuniorFeeMultBps, StakePool.book_setTrancheEnabled]
    have hmult : q'.juniorFeeMultBps = mult :=
      UInt16.toNat_inj.mp (congrArg Book.multiplier hbook)
    refine Or.inr ⟨congrArg Book.tranches hbook, ?_, ?_⟩
    · rw [hmult]
      exact hrange
    · intro hlp
      rw [hmult]
      exact (hlocked hlp).symm
  · obtain ⟨ms, hms, p₁, t', m', h', -, hrun⟩ := h.step hs
    obtain rfl : p₁ = p' := Option.some_inj.mp (h'.pool_eq.symm.trans hp')
    have hne : ∀ mv ∈ ms, ∀ x, mv ≠ .setTranches x := by
      intro mv hmv x hx
      obtain ⟨mult, accounts, hcause, -⟩ := hx ▸ hms.causedBy mv hmv
      exact he ⟨mult, accounts, hcause⟩
    obtain ⟨htranche, hmult⟩ := Ledger.run_tranche_eq hrun hne
    exact Or.inl ⟨htranche, UInt16.toNat_inj.mp hmult⟩

theorem TrancheStep.tranche (h : TrancheStep p p') (hp : p.trancheEnabled = true) :
    p'.trancheEnabled = true := by
  rcases h with h | h
  · exact h.1.trans hp
  · exact h.1

theorem TrancheStep.multiplier (h : TrancheStep p p')
    (hp : p.trancheEnabled = true →
      10000 ≤ p.juniorFeeMultBps.toNat ∧ p.juniorFeeMultBps.toNat ≤ 50000)
    (hp' : p'.trancheEnabled = true) :
    10000 ≤ p'.juniorFeeMultBps.toNat ∧ p'.juniorFeeMultBps.toNat ≤ 50000 := by
  rcases h with ⟨htranche, hmult⟩ | ⟨-, hrange, -⟩
  · rw [hmult]
    exact hp (htranche ▸ hp')
  · exact ⟨UInt16.le_iff_toNat_le.mp hrange.1, UInt16.le_iff_toNat_le.mp hrange.2⟩

theorem TrancheStep.locked (h : TrancheStep p p') (hlp : 0 < p.juniorTotalLp) :
    p'.juniorFeeMultBps = p.juniorFeeMultBps := by
  rcases h with h | h
  · exact h.2
  · exact h.2.2 hlp

theorem Kept.of_step (hcharter : p'.charter = p.charter) (ht : TrancheStep p p')
    (hr : p.marketResolved = true → p'.marketResolved = true)
    (hb : p.assetAdminBurned = true → p'.assetAdminBurned = true) : Kept p p' where
  tranche := ht.tranche
  resolved := hr
  burned := hb
  pool_mode := congrArg Charter.poolMode hcharter
  slab := congrArg Charter.slab hcharter
  vault := vault_of_charter hcharter
  lp_mint := lpMint_of_charter hcharter
  collateral_mint := collateralMint_of_charter hcharter
  percolator_program := congrArg Charter.percolatorProgram hcharter

theorem Standing.identity (h : Standing ctx π w p t m) :
    p.validateDiscriminator = true ∧ p.version = StakePool.currentVersion :=
  ⟨beq_iff_eq.mpr h.chartered.discriminator, h.chartered.version⟩

/-- One event keeps a valid configuration valid and leaves the rest as it is. -/
theorem Standing.configured_step (h : Standing ctx π w p t m) (hp : WellConfigured p)
    (hs : ctx.Step π w e w') : ∃ p', w'.pool ctx.programId π = some p' ∧ WellConfigured p' ∧
      Kept p p' ∧ TrancheStep p p' := by
  obtain ⟨ms, -, p', t', m', h', hcharter, -⟩ := h.step hs
  have ht := h.tranche_step hs h'.pool_eq
  have hsettings : (p'.hwmEnabled = p.hwmEnabled ∧ p'.hwmFloorBps = p.hwmFloorBps ∨
      (p'.hwmEnabled = true → p'.hwmFloorBps ≠ 0 ∧ p'.hwmFloorBps ≤ maxHwmFloorBps)) ∧
      (p.marketResolved = true → p'.marketResolved = true) ∧
      (p.assetAdminBurned = true → p'.assetAdminBurned = true) := by
    rcases h.settings_next hs h'.pool_eq with ⟨ix, accounts, -, hstep⟩ | ⟨-, rfl⟩
    · exact hstep.keeps
    · exact ⟨Or.inl ⟨rfl, rfl⟩, id, id⟩
  obtain ⟨hfloor, hresolved, hburned⟩ := hsettings
  refine ⟨p', h'.pool_eq, ⟨?_, ht.multiplier hp.multiplier, h'.identity.1, h'.identity.2⟩,
    Kept.of_step hcharter ht hresolved hburned, ht⟩
  intro henabled
  rcases hfloor with ⟨hflag, hbps⟩ | hvalid
  · rw [hbps]
    exact hp.floor (hflag ▸ henabled)
  · obtain ⟨hne, hle⟩ := hvalid henabled
    have hpos : p'.hwmFloorBps.toNat ≠ 0 := fun e => hne (UInt16.toNat_inj.mp e)
    exact ⟨Nat.pos_of_ne_zero hpos, UInt16.le_iff_toNat_le.mp hle⟩

/-! ## Runs -/

theorem Context.Genesis.wellConfigured (h : ctx.Genesis π w) :
    ∃ p, w.pool ctx.programId π = some p ∧ WellConfigured p := by
  obtain ⟨p, t, m, hvalid, hempty⟩ := h.valid
  obtain ⟨_, q, hc⟩ := h.creates
  obtain rfl : q = p := Option.some_inj.mp (hc.after.symm.trans hvalid.standing.pool_eq)
  obtain ⟨admin, slots, cap, -, hsettings⟩ := hc.settings_eq
  have hbook : q.book = Book.empty := congrArg Ledger.book hempty
  refine ⟨q, hc.after, ?_, ?_, hvalid.standing.identity.1, hvalid.standing.identity.2⟩
  · intro henabled
    have hoff : q.hwmEnabled = false := congrArg Settings.hwmEnabled hsettings
    rw [hoff] at henabled
    cases henabled
  · intro htranche
    have hoff : q.trancheEnabled = false := congrArg Book.tranches hbook
    rw [hoff] at htranche
    cases htranche

theorem Context.Reached.wellConfigured (h : ctx.Reached π es w) :
    ∃ p, w.pool ctx.programId π = some p ∧ WellConfigured p := by
  apply h.history (P := fun _ w => ∃ p, w.pool ctx.programId π = some p ∧ WellConfigured p)
  · intro w hgenesis
    exact hgenesis.wellConfigured
  · intro es w e w' hreached hP hs
    obtain ⟨p, hp, hconfigured⟩ := hP
    obtain ⟨q, t, m, hvalid⟩ := hreached.stands
    obtain rfl : p = q := Option.some_inj.mp (hp.symm.trans hvalid.standing.pool_eq)
    obtain ⟨p', hp', hconfigured', -⟩ := hvalid.standing.configured_step hconfigured hs
    exact ⟨p', hp', hconfigured'⟩

theorem Context.Reached.append {es' : List Event} (h : ctx.Reached π es w)
    (hrun : Transition.Run (ctx.Step π) w es' w') : ctx.Reached π (es ++ es') w' := by
  obtain ⟨w₀, hgenesis, hrun₀⟩ := h
  exact ⟨w₀, hgenesis, Transition.run_append.mpr ⟨w, hrun₀, hrun⟩⟩

/-- An event that comes while there is junior LP. -/
def Context.JuniorStep (ctx : Context) (π : Pubkey) (w : World) (e : Event) (w' : World) : Prop :=
  ctx.Step π w e w' ∧ ∃ p, w.pool ctx.programId π = some p ∧ 0 < p.juniorTotalLp

/-- What holds of the pool before and after an event holds of it along a run, when it is
reflexive and transitive. -/
theorem Context.Reached.kept_along {step : World → Event → World → Prop}
    {R : StakePool → StakePool → Prop} (hrefl : ∀ p, R p p)
    (htrans : ∀ p p' p'', R p p' → R p' p'' → R p p'')
    (hsub : ∀ w e w', step w e w' → ctx.Step π w e w')
    (hstep : ∀ w e w' p p', step w e w' → w.pool ctx.programId π = some p →
      w'.pool ctx.programId π = some p' → Kept p p' → TrancheStep p p' → R p p')
    {es' : List Event} (h : ctx.Reached π es w) (hp : w.pool ctx.programId π = some p)
    (hrun : Transition.Run step w es' w') :
    ∃ p', w'.pool ctx.programId π = some p' ∧ R p p' := by
  apply hrun.history (P := fun _ w' => ∃ p', w'.pool ctx.programId π = some p' ∧ R p p')
  · exact ⟨p, hp, hrefl p⟩
  · intro fs u e u' hpre hP hs
    obtain ⟨q, hq, hR⟩ := hP
    have hreached := h.append (hpre.mono fun e _ u u' => hsub u e u')
    obtain ⟨r, t, m, hvalid⟩ := hreached.stands
    obtain ⟨r', hr', hconfigured⟩ := hreached.wellConfigured
    have hst := hvalid.standing
    obtain rfl : q = r := Option.some_inj.mp (hq.symm.trans hst.pool_eq)
    obtain rfl : q = r' := Option.some_inj.mp (hq.symm.trans hr')
    obtain ⟨q', hq', -, hkept, ht⟩ := hst.configured_step hconfigured (hsub u e u' hs)
    exact ⟨q', hq', htrans _ _ _ hR (hstep u e u' q q' hs hq hq' hkept ht)⟩

/-- The configuration of a reachable pool is valid, and a run from there keeps what the
pool was set up as and its flags, and the multiplier as long as there is junior LP. -/
theorem configuration_valid (h : ctx.Reached π es w) :
    ∃ p, w.pool ctx.programId π = some p ∧ WellConfigured p ∧
      (∀ es' w', Transition.Run (ctx.Step π) w es' w' →
        ∃ p', w'.pool ctx.programId π = some p' ∧ WellConfigured p' ∧ Kept p p') ∧
      ∀ es' w', Transition.Run (ctx.JuniorStep π) w es' w' →
        ∃ p', w'.pool ctx.programId π = some p' ∧ p'.juniorFeeMultBps = p.juniorFeeMultBps := by
  obtain ⟨p, hp, hconfigured⟩ := h.wellConfigured
  refine ⟨p, hp, hconfigured, ?_, ?_⟩
  · intro es' w' hrun
    obtain ⟨p', hp', hkept⟩ := h.kept_along Kept.refl (fun _ _ _ => Kept.trans)
      (fun _ _ _ => id) (fun _ _ _ _ _ _ _ _ hkept _ => hkept) hp hrun
    obtain ⟨q, hq, hconfigured'⟩ := (h.append hrun).wellConfigured
    obtain rfl : q = p' := Option.some_inj.mp (hq.symm.trans hp')
    exact ⟨q, hq, hconfigured', hkept⟩
  · intro es' w' hrun
    apply h.kept_along (R := fun p p' => p'.juniorFeeMultBps = p.juniorFeeMultBps)
      (fun _ => rfl) (fun _ _ _ h h' => h'.trans h) (fun _ _ _ hs => hs.1) _ hp hrun
    intro w e w' p p' hs hp hp' hkept ht
    obtain ⟨q, hq, hlp⟩ := hs.2
    obtain rfl : q = p := Option.some_inj.mp (hq.symm.trans hp)
    exact ht.locked hlp

end

namespace Sample

/-- The mark is switched on and off again, the second time with a floor out of range. -/
def reconfigured : List Action :=
  [deposit alice 100000, .call (.adminSetHwmConfig true 9000) adminAccounts, enableTranches,
    depositJunior bob 50000, .call (.adminSetHwmConfig false 65535) adminAccounts]

theorem configuration_valid_reconfigured :
    ∃ p, (after reconfigured).pool Sample.ctx.programId pool = some p ∧ WellConfigured p ∧
      (∀ es w, Transition.Run (Sample.ctx.Step pool) (after reconfigured) es w →
        ∃ p', w.pool Sample.ctx.programId pool = some p' ∧ WellConfigured p' ∧ Kept p p') ∧
      ∀ es w, Transition.Run (Sample.ctx.JuniorStep pool) (after reconfigured) es w →
        ∃ p', w.pool Sample.ctx.programId pool = some p' ∧
          p'.juniorFeeMultBps = p.juniorFeeMultBps :=
  configuration_valid (after_reached (by decide +kernel))

end Sample

end PercolatorStake
