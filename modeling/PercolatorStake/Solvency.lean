import PercolatorStake.Execution

/-!
# Solvency and the LP ledger

What the books say is in the vault is in the vault, and what the LP counters say
is held is held by the records.
-/

namespace PercolatorStake

open Word

section

variable {ctx : Context} {π : Pubkey} {es : List Event} {w : World}

/-- In every reachable state the vault holds exactly what the counters say, and
the pool value is defined and covered by it. -/
theorem vault_eq_counters (h : ctx.Reached π es w) :
    ∃ p t v, w.pool ctx.programId π = some p ∧ w.token p.vault = some t ∧
      (t.amount.toNat : Int) = p.totalDeposited.toNat - p.totalWithdrawn.toNat -
        p.totalFlushed.toNat + p.totalReturned.toNat - p.realizedJuniorLoss.toNat +
        (es.map Event.inflow).sum ∧
      p.totalFeesEarned.toNat ≤ (es.map Event.inflow).sum ∧
      p.totalPoolValue = some v ∧ v ≤ t.amount := by
  obtain ⟨p, t, m, hstanding, hsound⟩ := h.stands
  have hle : p.book.value ≤ t.amount.toNat := hsound.toBalanced.value_le
  have hlt := t.amount.toNat_lt
  obtain ⟨v, hv, e⟩ := StakePool.totalPoolValue_isSome (p := p) hsound.value_nonneg (by omega)
  refine ⟨p, t, v, hstanding.pool_eq, hstanding.vault_eq, hsound.vault_eq, hsound.fees_le, hv, ?_⟩
  rw [UInt64.le_iff_toNat_le]
  omega

/-- A deposit, a donation, its accrual and a withdrawal. -/
def Sample.donated : List Action :=
  [deposit alice 100000, .send 500, accrue, .tick ⟨200, 1⟩, withdraw alice 5000]

theorem Sample.donated_reached :
    Sample.ctx.Reached pool (donated.map Action.event) (after donated) :=
  after_reached (by decide +kernel)

theorem Sample.vault_eq_counters_donated :
    ∃ p t v, (after donated).pool Sample.ctx.programId pool = some p ∧
      (after donated).token p.vault = some t ∧
      (t.amount.toNat : Int) = p.totalDeposited.toNat - p.totalWithdrawn.toNat -
        p.totalFlushed.toNat + p.totalReturned.toNat - p.realizedJuniorLoss.toNat +
        ((donated.map Action.event).map Event.inflow).sum ∧
      p.totalFeesEarned.toNat ≤ ((donated.map Action.event).map Event.inflow).sum ∧
      p.totalPoolValue = some v ∧ v ≤ t.amount :=
  vault_eq_counters donated_reached

/-! ## LP -/

/-- The records of a pool and its LP counters. -/
structure LpLedger (ctx : Context) (π : Pubkey) (w : World) (p : StakePool) : Prop where
  supply_eq : p.totalLpSupply.toNat = ∑ k, (w.positions ctx.programId π k).lp
  junior_eq : p.juniorTotalLp.toNat = ∑ k, (w.positions ctx.programId π k).juniorLp
  initialized_iff : ∀ k d, w.record ctx.programId k = some d → d.pool = π →
    (d.isInitialized = 1 ↔ 0 < d.lpAmount)
  junior_only : ∀ k d, w.record ctx.programId k = some d → d.pool = π →
    d.isJuniorDeposit = true → p.trancheEnabled = true ∧ d.isInitialized = 1
  junior_empty : p.juniorTotalLp = 0 → p.juniorBalance = 0
  junior_le : p.juniorTotalLp ≤ p.totalLpSupply
  senior_eq : p.seniorTotalLp.toNat + p.juniorTotalLp.toNat = p.totalLpSupply.toNat

/-- No step moves LP between the tranches of a record: a record keeps its flag while
it holds LP, a senior deposit ends in an unflagged record and a junior deposit in a
flagged one. -/
structure KeepsTranche (ctx : Context) (π : Pubkey) (w : World) (e : Event) (w' : World) :
    Prop where
  flag_eq : ∀ k d d', w.record ctx.programId k = some d → w'.record ctx.programId k = some d' →
    d.pool = π → d'.pool = π → 0 < d.lpAmount → 0 < d'.lpAmount →
    d'.isJuniorDeposit = d.isJuniorDeposit
  senior_credit : ∀ amount accounts, e = .instruction (.deposit amount) accounts →
    ∃ user d, accounts[0]? = some user ∧
      w'.record ctx.programId (ctx.depositPda π user.key) = some d ∧ d.pool = π ∧
      d.isJuniorDeposit = false
  junior_credit : ∀ amount accounts, e = .instruction (.depositJunior amount) accounts →
    ∃ user d, accounts[0]? = some user ∧
      w'.record ctx.programId (ctx.depositPda π user.key) = some d ∧ d.pool = π ∧
      d.isJuniorDeposit = true

theorem Valid.lpLedger {X : Nat} {p : StakePool} {t : TokenAccount} {m : Mint}
    (h : Valid ctx π X w p t m) : LpLedger ctx π w p := by
  obtain ⟨-, hsound⟩ := h
  obtain ⟨hle, -⟩ := hsound.seniorLp_eq
  have hsenior : p.seniorTotalLp.toNat = p.totalLpSupply.toNat - p.juniorTotalLp.toNat :=
    toNat_saturatingSub ..
  have hle' : p.juniorTotalLp.toNat ≤ p.totalLpSupply.toNat := hle
  refine ⟨hsound.supply_eq, hsound.juniorLp_eq, ?_, ?_, ?_, UInt64.le_iff_toNat_le.mpr hle,
    by omega⟩
  · intro k d hr hd
    have hlive : (w.positions ctx.programId π k).live = true ↔
        0 < (w.positions ctx.programId π k).lp := hsound.live_iff k
    rw [positions_of_record hr hd, beq_iff_eq] at hlive
    rw [hlive, pos_iff]
  · intro k d hr hd hj
    have hjunior : (w.positions ctx.programId π k).junior = true →
        p.trancheEnabled = true ∧ (w.positions ctx.programId π k).live = true :=
      hsound.junior_live k
    rw [positions_of_record hr hd, beq_iff_eq] at hjunior
    exact hjunior hj
  · intro h0
    rw [eq_zero_iff] at h0 ⊢
    exact hsound.junior_empty h0

theorem Valid.keepsTranche {X : Nat} {w' : World} {e : Event} {p : StakePool} {t : TokenAccount}
    {m : Mint} (h : Valid ctx π X w p t m) (hs : ctx.Step π w e w') :
    KeepsTranche ctx π w e w' := by
  obtain ⟨p', t', m', ms, -, hreal, hrun⟩ := h.step hs
  refine ⟨?_, ?_, ?_⟩
  · intro k d d' hr hr' hd hd' h0 h1
    obtain ⟨acc, rest, hacc, rfl, hrest⟩ := hreal.split
    obtain ⟨l₁, hrun₁, hrun₂⟩ := Transition.run_append.mp hrun
    have hpos₁ : l₁.position = w.positions ctx.programId π := hacc.position_eq hrun₁
    have hmatched := (h.sound.run hrun₁).toMatched
    rw [pos_iff] at h0 h1
    have hold := positions_of_record hr hd
    have hnew := positions_of_record hr' hd'
    suffices hj : (w'.positions ctx.programId π k).junior = (l₁.position k).junior by
      rwa [hnew, hpos₁, hold] at hj
    rcases hrest with rfl | ⟨mv, rfl⟩
    · cases hrun₂
      rfl
    · obtain ⟨l₂, hm, rfl⟩ := hrun₂
      refine hmatched.junior_eq hm ?_ ?_
      · rw [hpos₁, hold]
        exact h0
      · show 0 < (w'.positions ctx.programId π k).lp
        rw [hnew]
        exact h1
  · rintro amount accounts rfl
    obtain ⟨user, acc, lp, huser, hacc, rfl⟩ := hreal
    obtain ⟨l₁, -, l₂, hm, rfl⟩ := Transition.run_append.mp hrun
    have hq : ∃ n, w'.positions ctx.programId π (ctx.depositPda π user.key) = ⟨n, false, true⟩ := by
      generalize hl : ledgerOf ctx π w' p' t' = l₂ at hm
      have hpos : w'.positions ctx.programId π = l₂.position := by rw [← hl]; rfl
      cases hm
      exact ⟨_, by rw [hpos]; exact Function.update_self ..⟩
    obtain ⟨n, hq⟩ := hq
    have hlive : (w'.positions ctx.programId π (ctx.depositPda π user.key)).live = true := by
      rw [hq]
    obtain ⟨d, hr, hd⟩ := record_of_live hlive
    rw [positions_of_record hr hd] at hq
    exact ⟨user, d, huser, hr, hd, congrArg Position.junior hq⟩
  · rintro amount accounts rfl
    obtain ⟨user, acc, lp, huser, hacc, rfl⟩ := hreal
    obtain ⟨l₁, -, l₂, hm, rfl⟩ := Transition.run_append.mp hrun
    have hq : ∃ n, w'.positions ctx.programId π (ctx.depositPda π user.key) = ⟨n, true, true⟩ := by
      generalize hl : ledgerOf ctx π w' p' t' = l₂ at hm
      have hpos : w'.positions ctx.programId π = l₂.position := by rw [← hl]; rfl
      cases hm
      exact ⟨_, by rw [hpos]; exact Function.update_self ..⟩
    obtain ⟨n, hq⟩ := hq
    have hlive : (w'.positions ctx.programId π (ctx.depositPda π user.key)).live = true := by
      rw [hq]
    obtain ⟨d, hr, hd⟩ := record_of_live hlive
    rw [positions_of_record hr hd] at hq
    exact ⟨user, d, huser, hr, hd, congrArg Position.junior hq⟩

/-- The records and the counters agree in every reachable state, and no step from
there mixes the tranches. -/
theorem lp_ledger (h : ctx.Reached π es w) :
    ∃ p, w.pool ctx.programId π = some p ∧ LpLedger ctx π w p ∧
      ∀ e w', ctx.Step π w e w' → KeepsTranche ctx π w e w' := by
  obtain ⟨p, t, m, hvalid⟩ := h.stands
  exact ⟨p, hvalid.standing.pool_eq, hvalid.lpLedger, fun e w' hs => hvalid.keepsTranche hs⟩

/-- Bob enters as a junior after tranches are switched on, leaves, and comes back as
a senior. -/
def Sample.switched : List Action :=
  [deposit alice 100000, enableTranches, depositJunior bob 50000, .tick ⟨200, 1⟩,
    withdraw bob 50000, deposit bob 2000]

theorem Sample.switched_reached :
    Sample.ctx.Reached pool (switched.map Action.event) (after switched) :=
  after_reached (by decide +kernel)

theorem Sample.lp_ledger_switched :
    ∃ p, (after switched).pool Sample.ctx.programId pool = some p ∧
      LpLedger Sample.ctx pool (after switched) p ∧
      ∀ e w', Sample.ctx.Step pool (after switched) e w' →
        KeepsTranche Sample.ctx pool (after switched) e w' :=
  lp_ledger switched_reached

end

end PercolatorStake
