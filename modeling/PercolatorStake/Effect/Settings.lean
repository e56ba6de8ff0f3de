import PercolatorStake.Settings
import PercolatorStake.Effect.Init
import PercolatorStake.Effect.Withdraw
import PercolatorStake.Effect.Admin

/-!
# What an instruction does to the settings

Every instruction but the two that create a pool rewrites one pool and leaves all
other pools as they were.  The charter of the pool stays, and its settings move by
one step that depends on the instruction and on the clock.

Nothing here asks for the pool to stand: the statements hold in every world.
-/

namespace PercolatorStake

open Bytes Result Word

/-! ## Rewriting one pool -/

/-- The pool at `k` goes from `p` to `p'` within its charter, and every other pool
is as it was. -/
structure Context.Rewrites (ctx : Context) (w : World) (k : Pubkey) (p p' : StakePool)
    (w' : World) : Prop where
  before : w.pool ctx.programId k = some p
  after : w'.pool ctx.programId k = some p'
  charter_eq : p'.charter = p.charter
  others : ∀ k', k' ≠ k → w'.pool ctx.programId k' = w.pool ctx.programId k'

section

variable {ctx : Context} {w w₁ w' : World} {k : Pubkey} {p p' : StakePool}
  {accounts : List AccountInfo} {amount lp : UInt64} {junior : Bool}

theorem rewrites_set (hp : w.pool ctx.programId k = some p) (hc : p'.charter = p.charter) :
    ctx.Rewrites w k p p' (w.set k ⟨ctx.programId, .pool p'⟩) := by
  refine ⟨hp, ?_, hc, ?_⟩
  · rw [World.pool_eq_some, World.account_set_self]
  · intro k' hk
    rw [World.pool, World.account_set_of_ne hk, World.pool]

/-- Storing the pool where it is, in a world with the same pools. -/
theorem rewrites_store {a : AccountInfo}
    (hsame : ∀ k, w₁.pool ctx.programId k = w.pool ctx.programId k)
    (hp : w.pool ctx.programId a.key = some p) (hc : p'.charter = p.charter)
    (hstore : w₁.store a (.pool p') = .ok w') : ctx.Rewrites w a.key p p' w' := by
  have hp₁ : w₁.pool ctx.programId a.key = some p := (hsame a.key).trans hp
  obtain ⟨-, hw'⟩ := (store_pool_eq_ok rfl hp₁).mp hstore
  have h := rewrites_set hp₁ hc
  rw [← hw'] at h
  exact ⟨hp, h.after, hc, fun k' hk => (h.others k' hk).trans (hsame k')⟩

/-- Writing a record where a record or nothing was changes no pool. -/
theorem pool_setRecord {d : StakeDeposit} {id k' : Pubkey}
    (hk : (∃ d₀, w.account k = ⟨id, .deposit d₀⟩) ∨ w.account k = ⟨systemProgramId, .empty⟩) :
    (w.set k ⟨id, .deposit d⟩).pool id k' = w.pool id k' := by
  by_cases he : k' = k
  · rw [he, World.pool, World.account_set_self]
    rcases hk with ⟨d₀, hd⟩ | hd
    · rw [World.pool, hd]
    · rw [World.pool, hd]
  · rw [World.pool, World.account_set_of_ne he, World.pool]

theorem Context.Configured.rewrites {R : StakePool → StakePool → Prop}
    (h : ctx.Configured w accounts R w') (hR : ∀ p p', R p p' → p'.charter = p.charter) :
    ∃ a p p', accounts[1]? = some a ∧ ctx.Rewrites w a.key p p' w' ∧ R p p' := by
  obtain ⟨a, p, p', ha, hp, hpp', hw'⟩ := h
  rw [hw']
  exact ⟨a, p, p', ha, rewrites_set hp (hR p p' hpp'), hpp'⟩

/-! ## Stages -/

theorem accrueFeesInner_settings {b : UInt64} (h : accrueFeesInner p b = .ok p') :
    p'.settings = p.settings ∧ p'.mark = p.mark := by
  obtain ⟨v, -, h⟩ := accrueFeesInner_eq_ok.mp h
  split at h
  · obtain ⟨fees, -, h⟩ := h
    split at h
    · obtain ⟨s, -, h⟩ := h
      obtain ⟨jb, pv, -, -, -, rfl⟩ := accrueJuniorFee_eq_ok.mp h
      rw [StakePool.settings_setJuniorBalance, StakePool.mark_setJuniorBalance]
      exact ⟨rfl, rfl⟩
    · rw [h]
      exact ⟨rfl, rfl⟩
  · rw [h]
    exact ⟨rfl, rfl⟩

theorem preAccrueFeeModes_keeps {vault : AccountInfo} (h : preAccrueFeeModes w p vault = .ok p') :
    p'.charter = p.charter ∧ p'.settings = p.settings ∧ p'.mark = p.mark := by
  unfold preAccrueFeeModes at h
  split at h
  · rw [bind_eq_ok] at h
    obtain ⟨b, -, h⟩ := h
    exact ⟨(accrueFeesInner_book h).1, accrueFeesInner_settings h⟩
  · cases h
    exact ⟨rfl, rfl, rfl⟩

theorem bookDeposit_settings (h : bookDeposit p amount lp = .ok p') :
    p'.settings = p.settings ∧ p'.mark = p.mark := by
  obtain ⟨d, s, -, -, rfl⟩ := bookDeposit_eq_ok.mp h
  exact ⟨rfl, rfl⟩

theorem depositBook_settings (h : depositBook junior p amount lp = .ok p') :
    p'.settings = p.settings ∧ p'.mark = p.mark := by
  cases junior with
  | false => exact bookDeposit_settings h
  | true =>
    unfold depositBook bookDepositJunior at h
    simp only [bind_eq_ok, ok_eq_ok] at h
    obtain ⟨p₁, hp₁, jl, -, jb, -, rfl⟩ := h
    rw [StakePool.settings_setJuniorBalance, StakePool.settings_setJuniorTotalLp,
      StakePool.mark_setJuniorBalance, StakePool.mark_setJuniorTotalLp]
    exact bookDeposit_settings hp₁

theorem refreshHwmAfterDeposit_settings {c : Clock} (h : refreshHwmAfterDeposit p c = .ok p') :
    p'.settings = p.settings := by
  unfold refreshHwmAfterDeposit at h
  split at h
  · simp only [bind_eq_ok, ok_eq_ok] at h
    obtain ⟨v, -, rfl⟩ := h
    exact StakePool.settings_refreshHwm ..
  · cases h
    rfl

theorem enforceHwmFloor_settings {c : Clock} {x : UInt64} (h : enforceHwmFloor p c x = .ok p') :
    p'.settings = p.settings := by
  unfold enforceHwmFloor at h
  simp only [bind_eq_ok, ok_eq_ok] at h
  obtain ⟨v, -, _, -, _, -, rfl⟩ := h
  exact StakePool.settings_refreshHwm ..

theorem settleForfeitedLoss_settings (h : settleForfeitedLoss p = .ok p') :
    p'.settings = p.settings ∧ p'.mark = p.mark := by
  unfold settleForfeitedLoss at h
  simp only at h
  split at h
  · split at h
    · simp only [bind_eq_ok, ok_eq_ok] at h
      obtain ⟨r, -, l, -, rfl⟩ := h
      rw [StakePool.settings_setRealizedJuniorLoss, StakePool.mark_setRealizedJuniorLoss]
      exact ⟨rfl, rfl⟩
    · cases h
      exact ⟨rfl, rfl⟩
  · cases h
    exact ⟨rfl, rfl⟩

theorem bookWithdraw_settings {x : UInt64} (h : bookWithdraw p junior lp x = .ok p') :
    p'.settings = p.settings ∧ p'.mark = p.mark := by
  unfold bookWithdraw bookJuniorWithdraw at h
  simp only [bind_eq_ok] at h
  obtain ⟨wd, -, s, -, h⟩ := h
  split at h
  · simp only [bind_eq_ok] at h
    obtain ⟨jl, -, h⟩ := h
    split at h
    · simp only [bind_eq_ok, ok_eq_ok] at h
      obtain ⟨p₁, hp₁, rfl⟩ := h
      obtain ⟨hs, hm⟩ := settleForfeitedLoss_settings hp₁
      rw [StakePool.settings_setJuniorBalance, StakePool.mark_setJuniorBalance, hs, hm,
        StakePool.settings_setJuniorTotalLp, StakePool.mark_setJuniorTotalLp]
      exact ⟨rfl, rfl⟩
    · simp only [bind_eq_ok, ok_eq_ok] at h
      obtain ⟨jb, -, rfl⟩ := h
      rw [StakePool.settings_setJuniorBalance, StakePool.mark_setJuniorBalance,
        StakePool.settings_setJuniorTotalLp, StakePool.mark_setJuniorTotalLp]
      exact ⟨rfl, rfl⟩
  · cases h
    exact ⟨rfl, rfl⟩

/-! ## The instructions that move tokens -/

theorem collectDeposit_changes {a : DepositAccounts} {mintAmount : UInt64}
    (h : collectDeposit ctx w a amount mintAmount = .ok w') : World.TokensOnly w w' := by
  unfold collectDeposit Context.invoke at h
  simp only [bind_eq_ok] at h
  obtain ⟨w₁, h₁, h₂⟩ := h
  exact (SplToken.processTransfer_changes (Context.transfer_of_invokeSigned h₁)).trans
    (SplToken.processMintTo_changes (Context.mintTo_of_invokeSigned h₂))

theorem payOut_changes {a : WithdrawAccounts} {x : UInt64}
    (h : payOut ctx w a p lp x = .ok w') : World.TokensOnly w w' := by
  unfold payOut Context.invoke at h
  simp only [bind_eq_ok] at h
  obtain ⟨w₁, h₁, _, -, h₂⟩ := h
  have hburned := SplToken.processBurn_changes (Context.burn_of_invokeSigned h₁)
  split at h₂
  · exact hburned.trans (SplToken.processTransfer_changes (Context.transfer_of_invokeSigned h₂))
  · cases h₂
    exact hburned

theorem DepositRun.rewrites (r : DepositRun ctx w accounts junior amount w') :
    ctx.Rewrites w r.a.poolPda.key r.pool r.final w' := by
  obtain ⟨d, -, -, hacc, ⟨l, hrecorded⟩, -⟩ := r.credited.writes
  have hsame : ∀ k, r.recorded.pool ctx.programId k = w.pool ctx.programId k := by
    intro k
    rw [hrecorded, pool_setRecord (w := r.paid.withLamports l) hacc, World.pool_withLamports,
      (collectDeposit_changes r.collect_eq).pool_eq]
  have hcharter := r.charter_final.1.trans (preAccrueFeeModes_keeps r.accrue_eq).1
  exact rewrites_store hsame r.pool_eq hcharter r.store_eq

theorem DepositRun.settings_eq (r : DepositRun ctx w accounts junior amount w') :
    r.pool.settings.marketResolved = false ∧ r.final.settings = r.pool.settings := by
  obtain ⟨-, hacc, -⟩ := preAccrueFeeModes_keeps r.accrue_eq
  obtain ⟨hbook, -⟩ := depositBook_settings r.book_eq
  refine ⟨(validateDeposit_eq_ok r.valid).2.2.1, ?_⟩
  rw [refreshHwmAfterDeposit_settings r.refresh_eq, hbook, hacc]

theorem WithdrawRun.rewrites (r : WithdrawRun ctx w accounts lp w') :
    ctx.Rewrites w r.a.poolPda.key r.pool r.final w' := by
  have hpaid := payOut_changes r.pay_eq
  obtain ⟨-, hrec⟩ := r.record_eq
  have hrec₁ : r.paid.account r.a.depositPda.key = ⟨ctx.programId, .deposit r.deposit⟩ :=
    (hpaid.account_iff (fun _ e => by cases e) (fun _ e => by cases e)).mpr hrec
  obtain ⟨-, hrecorded⟩ := (store_record_eq_ok hrec₁).mp r.store_record
  have hsame : ∀ k, r.recorded.pool ctx.programId k = w.pool ctx.programId k := by
    intro k
    rw [hrecorded, pool_setRecord (.inl ⟨_, hrec₁⟩), hpaid.pool_eq]
  have hcharter := r.charter_final.trans (preAccrueFeeModes_keeps r.accrue_eq).1
  exact rewrites_store hsame r.pool_eq hcharter r.store_eq

theorem WithdrawRun.settings_eq (r : WithdrawRun ctx w accounts lp w') :
    r.final.settings = r.pool.settings := by
  obtain ⟨-, hacc, -⟩ := preAccrueFeeModes_keeps r.accrue_eq
  obtain ⟨hbook, -⟩ := bookWithdraw_settings r.book_eq
  have hfloor : r.floored.settings = r.accrued.settings := by
    have h := r.floor_eq
    split at h
    · exact enforceHwmFloor_settings h
    · rw [Except.ok.inj h]
  rw [hbook, hfloor, hacc]

theorem bookFlush_settings (h : bookFlush p amount = .ok p') :
    p'.settings = p.settings ∧
      p'.mark = { p.mark with tvl := saturatingSub p.mark.tvl amount } := by
  unfold bookFlush at h
  simp only [bind_eq_ok, ok_eq_ok] at h
  obtain ⟨f, -, rfl⟩ := h
  rw [StakePool.settings_setEpochHighWaterTvl, StakePool.mark_setEpochHighWaterTvl]
  exact ⟨rfl, rfl⟩

theorem bookReturn_settings (h : bookReturn p amount = .ok p') :
    p'.settings = p.settings ∧ p'.mark = p.mark := by
  unfold bookReturn at h
  simp only [bind_eq_ok, ok_eq_ok] at h
  obtain ⟨r, -, rfl⟩ := h
  exact ⟨rfl, rfl⟩

theorem bookRecover_settings (h : bookRecover p amount = .ok p') :
    p'.settings = p.settings ∧ p'.mark = p.mark := by
  unfold bookRecover at h
  simp only [bind_eq_ok, ok_eq_ok] at h
  obtain ⟨r, -, c, -, rfl⟩ := h
  exact ⟨rfl, rfl⟩

theorem FlushRun.rewrites (r : FlushRun ctx w accounts amount w') :
    ctx.Rewrites w r.a.poolPda.key r.pool r.final w' :=
  rewrites_store (fun k => (moveTokens_tokensOnly r.move_eq.2).1.pool_eq _ k) r.pool_eq
    (bookFlush_book r.book_eq).1 r.store_eq

theorem ReturnRun.rewrites (r : ReturnRun ctx w accounts amount w') :
    ctx.Rewrites w r.a.poolPda.key r.pool r.final w' := by
  obtain ⟨-, hmove⟩ := SplToken.processTransfer_eq_ok.mp r.transfer_eq
  exact rewrites_store (fun k => (moveTokens_tokensOnly hmove).1.pool_eq _ k) r.pool_eq
    (bookReturn_book r.book_eq).1 r.store_eq

theorem RecoverRun.rewrites (r : RecoverRun ctx w accounts amount w') :
    ctx.Rewrites w r.a.poolPda.key r.pool r.final w' :=
  rewrites_store (fun k => (moveTokens_tokensOnly r.move_eq.2).1.pool_eq _ k) r.pool_eq
    (bookRecover_book r.book_eq).1 r.store_eq

end

/-! ## The step of the settings -/

/-- What an instruction makes of the settings of its pool, with the clock as it
stands.  The two that create a pool find no settings to step from. -/
def Settings.Step (clock : Option Clock) (s : Settings) : StakeInstruction → Settings → Prop
  | .initPool .., _ | .initTradingPool .., _ => False
  | .deposit _, s' | .depositJunior _, s' | .flushToInsurance _, s' =>
    s.marketResolved = false ∧ s' = s
  | .updateConfig cooldown cap, s' =>
    (∀ c, cooldown = some c → (c ≠ 0 ∧ c ≤ maxCooldownSlots) ∧ c ≤ s.cooldownSlots) ∧
      s' = { s with
        cooldownSlots := cooldown.getD s.cooldownSlots, depositCap := cap.getD s.depositCap }
  | .proposeAdmin newAdmin, s' => s' = { s with pendingAdmin := newAdmin }
  | .acceptAdmin, s' =>
    s' = { s with admin := s.pendingAdmin, pendingAdmin := Vector.replicate 32 0 }
  | .proposeCooldownIncrease slots, s' =>
    ∃ c, clock = some c ∧ (slots ≠ 0 ∧ slots ≤ maxCooldownSlots) ∧ s.cooldownSlots < slots ∧
      s' = { s with pendingCooldownSlots := slots, cooldownProposedAtSlot := c.slot }
  | .commitCooldownIncrease, s' =>
    ∃ c, clock = some c ∧ s.cooldownProposedAtSlot ≠ 0 ∧
      s.cooldownProposedAtSlot.toNat + timelockSlots.toNat ≤ c.slot.toNat ∧
      (s.pendingCooldownSlots ≠ 0 ∧ s.pendingCooldownSlots ≤ maxCooldownSlots) ∧
      s' = { s with
        cooldownSlots := s.pendingCooldownSlots
        pendingCooldownSlots := 0
        cooldownProposedAtSlot := 0 }
  | .cancelCooldownIncrease, s' =>
    s.cooldownProposedAtSlot ≠ 0 ∧
      s' = { s with pendingCooldownSlots := 0, cooldownProposedAtSlot := 0 }
  | .adminSetHwmConfig enabled bps, s' =>
    (enabled = true → bps ≠ 0 ∧ bps ≤ maxHwmFloorBps) ∧
      s' = { s with
        hwmEnabled := enabled
        hwmFloorBps := if enabled = true then bps else s.hwmFloorBps }
  | .setMarketResolved, s' => s.marketResolved = false ∧ s' = { s with marketResolved := true }
  | .burnAssetAdmin, s' => s.assetAdminBurned = false ∧ s' = { s with assetAdminBurned := true }
  | .rotateInsuranceAuthority, s' | .rotateInsuranceOperator, s' =>
    s.assetAdminBurned = false ∧ s' = s
  | _, s' => s' = s

/-- A step keeps the floor of the mark or sets a valid one, and unsets no flag. -/
theorem Settings.Step.keeps {clock : Option Clock} {s s' : Settings} {ix : StakeInstruction}
    (h : Settings.Step clock s ix s') :
    (s'.hwmEnabled = s.hwmEnabled ∧ s'.hwmFloorBps = s.hwmFloorBps ∨
      (s'.hwmEnabled = true → s'.hwmFloorBps ≠ 0 ∧ s'.hwmFloorBps ≤ maxHwmFloorBps)) ∧
      (s.marketResolved = true → s'.marketResolved = true) ∧
      (s.assetAdminBurned = true → s'.assetAdminBurned = true) := by
  cases ix with
  | initPool | initTradingPool => exact h.elim
  | adminSetHwmConfig enabled bps =>
    obtain ⟨hbps, rfl⟩ := h
    refine ⟨.inr ?_, id, id⟩
    intro henabled
    have henabled : enabled = true := henabled
    show (if enabled = true then bps else _) ≠ 0 ∧ (if enabled = true then bps else _) ≤ _
    rw [if_pos henabled]
    exact hbps henabled
  | proposeCooldownIncrease =>
    obtain ⟨c, -, -, -, rfl⟩ := h
    exact ⟨.inl ⟨rfl, rfl⟩, id, id⟩
  | commitCooldownIncrease =>
    obtain ⟨c, -, -, -, -, rfl⟩ := h
    exact ⟨.inl ⟨rfl, rfl⟩, id, id⟩
  | setMarketResolved =>
    obtain ⟨-, rfl⟩ := h
    exact ⟨.inl ⟨rfl, rfl⟩, fun _ => rfl, id⟩
  | burnAssetAdmin =>
    obtain ⟨-, rfl⟩ := h
    exact ⟨.inl ⟨rfl, rfl⟩, id, fun _ => rfl⟩
  | updateConfig | deposit | depositJunior | flushToInsurance | cancelCooldownIncrease
  | rotateInsuranceAuthority | rotateInsuranceOperator =>
    obtain ⟨-, rfl⟩ := h
    exact ⟨.inl ⟨rfl, rfl⟩, id, id⟩
  | _ =>
    cases h
    exact ⟨.inl ⟨rfl, rfl⟩, id, id⟩

/-- The instructions that read or move the high-water mark. -/
def StakeInstruction.marks : StakeInstruction → Bool
  | .deposit _ | .depositJunior _ | .withdraw _ | .flushToInsurance _ => true
  | _ => false

def StakeInstruction.creates : StakeInstruction → Bool
  | .initPool .. | .initTradingPool .. => true
  | _ => false

theorem applyHwmConfig_settings (p : StakePool) (enabled : Bool) (bps : UInt16) :
    (applyHwmConfig p enabled bps).settings = { p.settings with
      hwmEnabled := enabled
      hwmFloorBps := if enabled = true then bps else p.settings.hwmFloorBps } ∧
      (applyHwmConfig p enabled bps).mark = p.mark := by
  unfold applyHwmConfig
  cases enabled with
  | false => exact ⟨StakePool.settings_setHwmEnabled .., StakePool.mark_setHwmEnabled ..⟩
  | true =>
    rw [if_pos rfl, StakePool.settings_setHwmFloorBps, StakePool.settings_setHwmEnabled,
      StakePool.mark_setHwmFloorBps, StakePool.mark_setHwmEnabled]
    exact ⟨rfl, rfl⟩

section

variable {ctx : Context} {π : Pubkey} {w w' : World} {accounts : List AccountInfo}
  {ix : StakeInstruction}

/-- An instruction on an existing pool rewrites that pool and no other. -/
theorem process_rewrites (h : process ctx w accounts ix = .ok w') (hix : ix.creates = false) :
    ∃ a p p', accounts[1]? = some a ∧ ctx.Rewrites w a.key p p' w' ∧
      Settings.Step w.clock p.settings ix p'.settings ∧ (ix.marks = false → p'.mark = p.mark) := by
  have hsame : ∀ {R : StakePool → StakePool → Prop}, ctx.Configured w accounts R w' →
      (∀ p p', R p p' → p'.charter = p.charter ∧ Settings.Step w.clock p.settings ix p'.settings ∧
        p'.mark = p.mark) →
      ∃ a p p', accounts[1]? = some a ∧ ctx.Rewrites w a.key p p' w' ∧
        Settings.Step w.clock p.settings ix p'.settings ∧
        (ix.marks = false → p'.mark = p.mark) := by
    intro R hc hR
    obtain ⟨a, p, p', ha, hrw, hpp'⟩ := hc.rewrites fun p p' e => (hR p p' e).1
    obtain ⟨-, hs, hm⟩ := hR p p' hpp'
    exact ⟨a, p, p', ha, hrw, hs, fun _ => hm⟩
  -- what only talks to the wrapper
  have hkept : (∀ p : StakePool, Settings.Step w.clock p.settings ix p.settings) →
      ctx.Configured w accounts (fun p p' => p' = p) w' →
      ∃ a p p', accounts[1]? = some a ∧ ctx.Rewrites w a.key p p' w' ∧
        Settings.Step w.clock p.settings ix p'.settings ∧
        (ix.marks = false → p'.mark = p.mark) := by
    intro hstep hc
    apply hsame hc
    rintro p p' rfl
    exact ⟨rfl, hstep _, rfl⟩
  cases ix with
  | initPool | initTradingPool => cases hix
  | deposit =>
    obtain ⟨r⟩ := processDeposit_eq_ok.mp h
    exact ⟨_, _, _, (DepositAccounts.next_eq_ok r.next_eq).2, r.rewrites, r.settings_eq,
      fun e => (by cases e)⟩
  | depositJunior =>
    obtain ⟨r⟩ := processDepositJunior_eq_ok.mp h
    exact ⟨_, _, _, (DepositAccounts.next_eq_ok r.next_eq).2, r.rewrites, r.settings_eq,
      fun e => (by cases e)⟩
  | withdraw =>
    obtain ⟨r⟩ := processWithdraw_eq_ok.mp h
    exact ⟨_, _, _, (WithdrawAccounts.next_eq_ok r.next_eq).2, r.rewrites, r.settings_eq,
      fun e => (by cases e)⟩
  | flushToInsurance =>
    obtain ⟨r⟩ := processFlushToInsurance_run h
    exact ⟨_, _, _, FlushAccounts.next_eq_ok r.next_eq, r.rewrites,
      ⟨r.unresolved, (bookFlush_settings r.book_eq).1⟩, fun e => (by cases e)⟩
  | returnInsurance =>
    obtain ⟨r⟩ := processReturnInsurance_run h
    obtain ⟨hs, hm⟩ := bookReturn_settings r.book_eq
    exact ⟨_, _, _, (ReturnAccounts.next_eq_ok r.next_eq).2, r.rewrites, hs, fun _ => hm⟩
  | recoverFlushedInsurance =>
    obtain ⟨r⟩ := processRecoverFlushedInsurance_run h
    obtain ⟨hs, hm⟩ := bookRecover_settings r.book_eq
    exact ⟨_, _, _, RecoverAccounts.next_eq_ok r.next_eq, r.rewrites, hs, fun _ => hm⟩
  | accrueFees =>
    apply hsame (processAccrueFees_configured h)
    rintro p p' ⟨vault, b, c, p₁, -, -, -, hacc, rfl⟩
    obtain ⟨hs, hm⟩ := accrueFeesInner_settings hacc
    exact ⟨(accrueFeesInner_book hacc).1, hs, hm⟩
  | adminSetTrancheConfig =>
    apply hsame (processAdminSetTrancheConfig_configured h)
    rintro p p' ⟨-, -, rfl⟩
    refine ⟨?_, ?_, ?_⟩
    · exact (StakePool.charter_setJuniorFeeMultBps ..).trans
        (StakePool.charter_setTrancheEnabled ..)
    · exact (StakePool.settings_setJuniorFeeMultBps ..).trans
        (StakePool.settings_setTrancheEnabled ..)
    · exact (StakePool.mark_setJuniorFeeMultBps ..).trans (StakePool.mark_setTrancheEnabled ..)
  | updateConfig =>
    apply hsame (processUpdateConfig_configured h)
    rintro p p' ⟨hvalid, rfl⟩
    exact ⟨rfl, ⟨hvalid, rfl⟩, rfl⟩
  | proposeAdmin =>
    apply hsame (processProposeAdmin_configured h)
    rintro p p' rfl
    exact ⟨rfl, rfl, rfl⟩
  | acceptAdmin =>
    apply hsame (processAcceptAdmin_configured h)
    rintro p p' rfl
    exact ⟨rfl, rfl, rfl⟩
  | proposeCooldownIncrease =>
    apply hsame (processProposeCooldownIncrease_configured h)
    rintro p p' ⟨c, hc, hvalid, hlt, rfl⟩
    exact ⟨rfl, ⟨c, hc, hvalid, hlt, rfl⟩, rfl⟩
  | commitCooldownIncrease =>
    apply hsame (processCommitCooldownIncrease_configured h)
    rintro p p' ⟨c, hc, hne, hwindow, hvalid, rfl⟩
    exact ⟨rfl, ⟨c, hc, hne, hwindow, hvalid, rfl⟩, rfl⟩
  | cancelCooldownIncrease =>
    apply hsame (processCancelCooldownIncrease_configured h)
    rintro p p' ⟨hne, rfl⟩
    exact ⟨rfl, ⟨hne, rfl⟩, rfl⟩
  | adminSetHwmConfig =>
    apply hsame (processAdminSetHwmConfig_configured h)
    rintro p p' ⟨hbps, rfl⟩
    obtain ⟨hs, hm⟩ := applyHwmConfig_settings p _ _
    exact ⟨(applyHwmConfig_book p _ _).1, ⟨hbps, hs⟩, hm⟩
  | setMarketResolved =>
    apply hsame (processSetMarketResolved_configured h)
    rintro p p' ⟨-, hopen, rfl⟩
    exact ⟨StakePool.charter_setMarketResolved .., ⟨hopen, StakePool.settings_setMarketResolved ..⟩,
      StakePool.mark_setMarketResolved ..⟩
  | burnAssetAdmin =>
    apply hsame (processBurnAssetAdmin_configured h)
    rintro p p' ⟨hopen, rfl⟩
    exact ⟨StakePool.charter_setAssetAdminBurned ..,
      ⟨hopen, StakePool.settings_setAssetAdminBurned ..⟩, StakePool.mark_setAssetAdminBurned ..⟩
  | rotateInsuranceOperator | rotateInsuranceAuthority =>
    apply hsame (rotateRole_configured (fun _ _ _ _ => rfl) h)
    rintro p p' ⟨hopen, rfl⟩
    exact ⟨rfl, ⟨hopen, rfl⟩, rfl⟩
  | adminResolveMarket => exact hkept (fun _ => rfl) (processAdminResolveMarket_configured h)
  | bindInsuranceAuthority =>
    exact hkept (fun _ => rfl) (processBindInsuranceAuthority_configured h)
  | adminUpdateFeeSplit => exact hkept (fun _ => rfl) (processAdminUpdateFeeSplit_configured h)
  | adminUpdateMaintenanceFeePerSlot =>
    exact hkept (fun _ => rfl) (processAdminUpdateMaintenanceFeePerSlot_configured h)
  | adminUpdateBackingFeePolicy =>
    exact hkept (fun _ => rfl) (processAdminUpdateBackingFeePolicy_configured h)
  | adminUpdateTradeFeePolicy =>
    exact hkept (fun _ => rfl) (processAdminUpdateTradeFeePolicy_configured h)

/-! ## Instructions that write their pool only -/

theorem mint_setPool {k k' id : Pubkey} {p p' : StakePool} (h : w.pool id k = some p) :
    (w.set k ⟨id, .pool p'⟩).mint k' = w.mint k' := by
  by_cases hk : k' = k
  · rw [hk, World.mint, World.mint, World.account_set_self, World.pool_eq_some.mp h]
  · rw [World.mint, World.account_set_of_ne hk, World.mint]

theorem record_setPool {k k' id : Pubkey} {p p' : StakePool} (h : w.pool id k = some p) :
    (w.set k ⟨id, .pool p'⟩).record id k' = w.record id k' := by
  by_cases hk : k' = k
  · rw [hk, World.record, World.record, World.account_set_self, World.pool_eq_some.mp h]
  · rw [World.record, World.account_set_of_ne hk, World.record]

/-- The instructions that mint or burn LP, and those that create the mint. -/
def StakeInstruction.mints : StakeInstruction → Bool
  | .initPool .. | .initTradingPool .. | .deposit _ | .depositJunior _ | .withdraw _ => true
  | _ => false

theorem plain_of_configured {R : StakePool → StakePool → Prop}
    (h : ctx.Configured w accounts R w') :
    ∃ w₁ k p p', World.TokensOnly w w₁ ∧ (∀ k, w₁.mint k = w.mint k) ∧
      w₁.pool ctx.programId k = some p ∧ w' = w₁.set k ⟨ctx.programId, .pool p'⟩ := by
  obtain ⟨a, q, q', -, hq, -, hw'⟩ := h
  exact ⟨w, a.key, q, q', .refl w, fun _ => rfl, hq, hw'⟩

theorem plain_of_move {source dest : Pubkey} {amount : UInt64} {w₁ : World} {a : AccountInfo}
    {p p' : StakePool} (hmove : SplToken.moveTokens w source dest amount = .ok w₁)
    (hp : w.pool ctx.programId a.key = some p) (hstore : w₁.store a (.pool p') = .ok w') :
    ∃ w₁ k p p', World.TokensOnly w w₁ ∧ (∀ k, w₁.mint k = w.mint k) ∧
      w₁.pool ctx.programId k = some p ∧ w' = w₁.set k ⟨ctx.programId, .pool p'⟩ := by
  obtain ⟨htokens, hmint⟩ := moveTokens_tokensOnly hmove
  have hp₁ := (htokens.pool_eq ctx.programId a.key).trans hp
  exact ⟨w₁, a.key, p, p', htokens, hmint, hp₁, ((store_pool_eq_ok rfl hp₁).mp hstore).2⟩

/-- Every other instruction moves tokens, if anything, and then writes one pool.  It
touches neither a mint nor a record. -/
theorem process_plain (h : process ctx w accounts ix = .ok w') (hix : ix.mints = false) :
    ∃ w₁ k p p', World.TokensOnly w w₁ ∧ (∀ k, w₁.mint k = w.mint k) ∧
      w₁.pool ctx.programId k = some p ∧ w' = w₁.set k ⟨ctx.programId, .pool p'⟩ := by
  cases ix with
  | initPool | initTradingPool | deposit | depositJunior | withdraw => cases hix
  | flushToInsurance =>
    obtain ⟨r⟩ := processFlushToInsurance_run h
    exact plain_of_move r.move_eq.2 r.pool_eq r.store_eq
  | returnInsurance =>
    obtain ⟨r⟩ := processReturnInsurance_run h
    exact plain_of_move (SplToken.processTransfer_eq_ok.mp r.transfer_eq).2 r.pool_eq r.store_eq
  | recoverFlushedInsurance =>
    obtain ⟨r⟩ := processRecoverFlushedInsurance_run h
    exact plain_of_move r.move_eq.2 r.pool_eq r.store_eq
  | updateConfig => exact plain_of_configured (processUpdateConfig_configured h)
  | proposeAdmin => exact plain_of_configured (processProposeAdmin_configured h)
  | acceptAdmin => exact plain_of_configured (processAcceptAdmin_configured h)
  | proposeCooldownIncrease =>
    exact plain_of_configured (processProposeCooldownIncrease_configured h)
  | commitCooldownIncrease =>
    exact plain_of_configured (processCommitCooldownIncrease_configured h)
  | cancelCooldownIncrease =>
    exact plain_of_configured (processCancelCooldownIncrease_configured h)
  | accrueFees => exact plain_of_configured (processAccrueFees_configured h)
  | adminSetHwmConfig => exact plain_of_configured (processAdminSetHwmConfig_configured h)
  | adminSetTrancheConfig => exact plain_of_configured (processAdminSetTrancheConfig_configured h)
  | setMarketResolved => exact plain_of_configured (processSetMarketResolved_configured h)
  | burnAssetAdmin => exact plain_of_configured (processBurnAssetAdmin_configured h)
  | rotateInsuranceOperator | rotateInsuranceAuthority =>
    exact plain_of_configured (rotateRole_configured (fun _ _ _ _ => rfl) h)
  | adminResolveMarket => exact plain_of_configured (processAdminResolveMarket_configured h)
  | bindInsuranceAuthority =>
    exact plain_of_configured (processBindInsuranceAuthority_configured h)
  | adminUpdateFeeSplit => exact plain_of_configured (processAdminUpdateFeeSplit_configured h)
  | adminUpdateMaintenanceFeePerSlot =>
    exact plain_of_configured (processAdminUpdateMaintenanceFeePerSlot_configured h)
  | adminUpdateBackingFeePolicy =>
    exact plain_of_configured (processAdminUpdateBackingFeePolicy_configured h)
  | adminUpdateTradeFeePolicy =>
    exact plain_of_configured (processAdminUpdateTradeFeePolicy_configured h)

/-! ## New pools -/

def Settings.initial (admin : Pubkey) (cooldownSlots depositCap : UInt64) : Settings where
  admin := admin
  pendingAdmin := Vector.replicate 32 0
  depositCap := depositCap
  cooldownSlots := cooldownSlots
  pendingCooldownSlots := 0
  cooldownProposedAtSlot := 0
  marketResolved := false
  assetAdminBurned := false
  hwmEnabled := false
  hwmFloorBps := 0

theorem blankReserved_settings :
    byteAt blankReserved 9 = 0 ∧ byteAt blankReserved 10 = 0 ∧ readLe blankReserved 11 2 = 0 ∧
      readLe blankReserved 16 8 = 0 ∧ readLe blankReserved 24 8 = 0 ∧
      byteAt blankReserved 59 = 0 := by
  decide +kernel

theorem settings_initialPool (a : InitAccounts) (slots cap : UInt64) :
    (initialPool ctx a .zeroed slots cap).settings = Settings.initial a.admin.key slots cap ∧
      (initialPool ctx a .zeroed slots cap).mark = ⟨0, 0⟩ := by
  obtain ⟨h1, h2, h3, h4, h5, h6⟩ := blankReserved_settings
  unfold StakePool.settings StakePool.mark StakePool.marketResolved StakePool.hwmEnabled
    StakePool.hwmFloorBps StakePool.epochHighWaterTvl StakePool.hwmLastEpoch
    StakePool.assetAdminBurned StakePool.word StakePool.half
  rw [reserved_initialPool, h1, h2, h3, h4, h5, h6]
  exact ⟨rfl, rfl⟩

/-- A pool comes into being at `k`, and every other pool is as it was. -/
structure Context.Creates (ctx : Context) (w : World) (k : Pubkey) (p : StakePool) (w' : World) :
    Prop where
  before : w.pool ctx.programId k = none
  after : w'.pool ctx.programId k = some p
  chartered : Chartered ctx k p.charter
  others : ∀ k', k' ≠ k → w'.pool ctx.programId k' = w.pool ctx.programId k'
  settings_eq : ∃ admin slots cap, (slots ≠ 0 ∧ slots ≤ maxCooldownSlots) ∧
    p.settings = Settings.initial admin slots cap
  mark_eq : p.mark = ⟨0, 0⟩

theorem processInitPool_creates {slots cap : UInt64}
    (h : processInitPool ctx w accounts slots cap = .ok w') :
    ∃ a, InitAccounts.next accounts = .ok a ∧
      ctx.Creates w a.poolPda.key (initialPool ctx a .zeroed slots cap) w' := by
  obtain ⟨a, w₁, l, ha, hval, hcreate, rfl⟩ := processInitPool_stages h
  have htokens := (createTokenAccounts_eq_ok hcreate).1
  obtain ⟨hsettings, hmark⟩ := @settings_initialPool ctx a slots cap
  have hslots : slots ≠ 0 ∧ slots ≤ maxCooldownSlots := by
    unfold validateInit at hval
    simp only [bind_eq_ok, validateCooldownSlots_eq_ok] at hval
    obtain ⟨_, -, _, -, _, hslots, -⟩ := hval
    exact hslots
  refine ⟨a, ha, ⟨?_, ?_, charter_initialPool hval, ?_, ⟨_, slots, cap, hslots, hsettings⟩, hmark⟩⟩
  · have hempty := (validateInit_eq_ok hval).2.2.1
    rw [World.data] at hempty
    unfold World.pool
    split
    · rename_i o q hq
      rw [hq] at hempty
      cases hempty
    · rfl
  · rw [World.pool_eq_some, World.account_set_self]
  · intro k' hk
    rw [World.pool, World.account_set_of_ne hk, ← World.pool, htokens.pool_eq, World.pool,
      World.account_set_of_ne hk, World.account_withLamports, World.pool]

theorem process_creates (h : process ctx w accounts ix = .ok w') (hix : ix.creates = true) :
    ∃ a p, InitAccounts.next accounts = .ok a ∧ ctx.Creates w a.poolPda.key p w' ∧
      p.slab = a.slab.key ∧ p.percolatorProgram = a.percolatorProgram.key := by
  cases ix with
  | initPool slots cap =>
    obtain ⟨a, ha, hc⟩ := processInitPool_creates h
    exact ⟨a, _, ha, hc, rfl, rfl⟩
  | initTradingPool slots cap =>
    unfold process processInitTradingPool at h
    simp only [bind_eq_ok, poolFromData_eq_ok] at h
    obtain ⟨w₁, hinit, a', ha', _, -, q, hq, _, -, hstore⟩ := h
    obtain ⟨a, ha, hc⟩ := processInitPool_creates hinit
    obtain rfl : a = a' := Except.ok.inj (ha.symm.trans ha')
    have hpool : w₁.data a.poolPda = .pool (initialPool ctx a .zeroed slots cap) :=
      congrArg Account.data (World.pool_eq_some.mp hc.after)
    obtain rfl : initialPool ctx a .zeroed slots cap = q :=
      AccountData.pool.inj (hpool.symm.trans hq)
    obtain ⟨-, rfl⟩ := (store_pool_eq_ok rfl hc.after).mp hstore
    have hch := hc.chartered
    refine ⟨a, { initialPool ctx a .zeroed slots cap with poolMode := 1 }, ha,
      ⟨hc.before, ?_, ?_, ?_, hc.settings_eq, hc.mark_eq⟩, rfl, rfl⟩
    · rw [World.pool_eq_some, World.account_set_self]
    · exact ⟨hch.initialized, hch.discriminator, hch.version, hch.authority_bump, hch.pool_eq,
        hch.program, (show (1 : UInt8) ≤ 1 by decide), hch.mints⟩
    · intro k' hk
      rw [World.pool, World.account_set_of_ne hk, ← World.pool]
      exact hc.others k' hk
  | _ => cases hix

theorem Context.Genesis.creates (h : ctx.Genesis π w) :
    ∃ w₀ p, ctx.Creates w₀ π p w := by
  obtain ⟨w₀, ix, accounts, -, ⟨slots, cap, hix⟩, ⟨b, hb, rfl⟩, hprocess⟩ := h
  have hcreates : ix.creates = true := by
    rcases hix with rfl | rfl <;> rfl
  have hsecond : ix.poolAccount accounts = accounts[2]? := by
    rcases hix with rfl | rfl <;> rfl
  obtain ⟨a, p, ha, hc, -⟩ := process_creates hprocess hcreates
  obtain rfl : a.poolPda = b :=
    Option.some_inj.mp ((InitAccounts.next_eq_ok ha).symm.trans (hsecond.symm.trans hb))
  exact ⟨w₀, p, hc⟩

/-! ## At a standing pool -/

/-- An instruction of a run steps the settings of the pool. -/
theorem Standing.settings_step {p : StakePool} {t : TokenAccount} {m : Mint}
    (h : Standing ctx π w p t m) (hs : ctx.Step π w (.instruction ix accounts) w') :
    ∃ p', ctx.Rewrites w π p p' w' ∧ Settings.Step w.clock p.settings ix p'.settings ∧
      (ix.marks = false → p'.mark = p.mark) := by
  obtain ⟨hpool, -, hd⟩ := hs
  cases hix : ix.creates with
  | false =>
    obtain ⟨a, q, p', ha, hrw, hstep, hmark⟩ := process_rewrites hd hix
    have hsecond : ix.poolAccount accounts = accounts[1]? := by
      cases ix <;> first | rfl | cases hix
    obtain ⟨hk, rfl⟩ := h.pool_read (hsecond ▸ hpool) ha hrw.before
    rw [hk] at hrw
    exact ⟨p', hrw, hstep, hmark⟩
  | true =>
    obtain ⟨a, p', ha, hc, -⟩ := process_creates hd hix
    have hthird : ix.poolAccount accounts = accounts[2]? := by
      cases ix <;> first | rfl | cases hix
    obtain ⟨b, hb, hk⟩ := hpool
    obtain rfl : a.poolPda = b :=
      Option.some_inj.mp ((InitAccounts.next_eq_ok ha).symm.trans (hthird.symm.trans hb))
    have hbefore := hc.before
    rw [hk, h.pool_eq] at hbefore
    cases hbefore

/-- The settings after an event: a step of theirs, or the same after an outside
event. -/
theorem Standing.settings_next {p p' : StakePool} {t : TokenAccount} {m : Mint} {e : Event}
    (h : Standing ctx π w p t m) (hs : ctx.Step π w e w')
    (hp' : w'.pool ctx.programId π = some p') :
    (∃ ix accounts, e = .instruction ix accounts ∧
      Settings.Step w.clock p.settings ix p'.settings) ∨
      ((∃ x, e = .outside x) ∧ p' = p) := by
  cases e with
  | outside x =>
    have hout : ctx.Outside π x w w' := hs
    have hpool := hout.pool_eq.trans h.pool_eq
    exact .inr ⟨⟨x, rfl⟩, Option.some_inj.mp (hp'.symm.trans hpool)⟩
  | instruction ix accounts =>
    obtain ⟨q, hrw, hstep, -⟩ := h.settings_step hs
    obtain rfl : p' = q := Option.some_inj.mp (hp'.symm.trans hrw.after)
    exact .inl ⟨ix, accounts, rfl, hstep⟩

end

end PercolatorStake
