import PercolatorStake.Effect.Insurance

/-!
# What the other instructions do

Configuration writes the pool and leaves its books alone, except that tranches can
be switched on.  The instructions that only talk to the wrapper change nothing
here.
-/

namespace PercolatorStake

open Result Word

section

variable {ctx : Context} {π : Pubkey} {w w' : World} {p p' : StakePool} {t : TokenAccount}
  {m : Mint} {accounts : List AccountInfo} {ms : List (Move Pubkey)}

/-- An instruction that writes its pool and nothing else.  The new pool is related
to the old one by `R`. -/
def Context.Configured (ctx : Context) (w : World) (accounts : List AccountInfo)
    (R : StakePool → StakePool → Prop) (w' : World) : Prop :=
  ∃ a p p', accounts[1]? = some a ∧ w.pool ctx.programId a.key = some p ∧ R p p' ∧
    w' = w.set a.key ⟨ctx.programId, .pool p'⟩

section

variable {a : AccountInfo} {R : StakePool → StakePool → Prop}

theorem configured_of_store (ha : accounts[1]? = some a)
    (hp : w.pool ctx.programId a.key = some p) (hR : R p p')
    (hstore : w.store a (.pool p') = .ok w') : ctx.Configured w accounts R w' :=
  ⟨a, p, p', ha, hp, hR, ((store_pool_eq_ok rfl hp).mp hstore).2⟩

theorem configured_of_eq (ha : accounts[1]? = some a)
    (hp : w.pool ctx.programId a.key = some p) (hR : R p p) (hw : w' = w) :
    ctx.Configured w accounts R w' := by
  refine ⟨a, p, p, ha, hp, hR, ?_⟩
  rw [hw, ← World.pool_eq_some.mp hp, World.set_account]

/-- The pool is written, and the ledger moves with its books. -/
theorem Standing.configured (h : Standing ctx π w p t m)
    (hpool : ∃ a, accounts[1]? = some a ∧ a.key = π) (hc : ctx.Configured w accounts R w')
    (hR : ∀ p', R p p' → p'.charter = p.charter ∧ Transition.Run Ledger.Step
      (ledgerOf ctx π w p t) ms ⟨p'.book, t.amount.toNat, w.positions ctx.programId π⟩) :
    Simulated ctx π w p t ms w' := by
  obtain ⟨b, q, p', hb, hq, hR', rfl⟩ := hc
  obtain ⟨hk, rfl⟩ := h.pool_read hpool hb hq
  obtain ⟨hcharter, hrun⟩ := hR p' hR'
  rw [hk]
  refine ⟨p', t, m, h.setPool hcharter, hcharter, ?_⟩
  rwa [ledgerOf, ledgerOf, h.positions_setPool]

/-- The books stay as they are. -/
theorem Standing.keeps (h : Standing ctx π w p t m)
    (hpool : ∃ a, accounts[1]? = some a ∧ a.key = π) (hc : ctx.Configured w accounts R w')
    (hR : ∀ p', R p p' → p'.charter = p.charter ∧ p'.book = p.book) :
    Simulated ctx π w p t [] w' := by
  refine h.configured hpool hc fun p' hp' => ?_
  obtain ⟨hcharter, hbook⟩ := hR p' hp'
  refine ⟨hcharter, ?_⟩
  rw [hbook]
  rfl

end

/-! ## Accounts -/

theorem AdminPoolAccounts.next_eq_ok {a : AdminPoolAccounts}
    (h : AdminPoolAccounts.next accounts = .ok a) : accounts[1]? = some a.poolPda := by
  unfold AdminPoolAccounts.next at h
  split at h <;> cases h
  rfl

theorem TimelockAccounts.next_eq_ok {a : TimelockAccounts}
    (h : TimelockAccounts.next accounts = .ok a) : accounts[1]? = some a.poolPda := by
  unfold TimelockAccounts.next at h
  split at h <;> cases h
  rfl

theorem MarketAccounts.next_eq_ok {a : MarketAccounts}
    (h : MarketAccounts.next accounts = .ok a) : accounts[1]? = some a.poolPda := by
  unfold MarketAccounts.next at h
  split at h <;> cases h
  rfl

theorem AuthorityAccounts.next_eq_ok {a : AuthorityAccounts}
    (h : AuthorityAccounts.next accounts = .ok a) : accounts[1]? = some a.poolPda := by
  unfold AuthorityAccounts.next at h
  split at h <;> cases h
  rfl

theorem RotateAccounts.next_eq_ok {a : RotateAccounts}
    (h : RotateAccounts.next accounts = .ok a) : accounts[1]? = some a.poolPda := by
  unfold RotateAccounts.next at h
  split at h <;> cases h
  rfl

theorem AccrueAccounts.next_eq_ok {a : AccrueAccounts}
    (h : AccrueAccounts.next accounts = .ok a) : accounts[1]? = some a.pool := by
  unfold AccrueAccounts.next at h
  split at h
  · cases h
  · rw [bind_eq_ok] at h
    obtain ⟨_, -, h⟩ := h
    split at h <;> cases h
    rfl

/-! ## Reading the pool -/

theorem readAdminPool_eq_ok {admin poolPda : AccountInfo} {q : StakePool}
    (h : readAdminPool ctx w admin poolPda = .ok q) :
    w.pool ctx.programId poolPda.key = some q ∧ q.admin = admin.key := by
  unfold readAdminPool at h
  simp only [bind_eq_ok, rejectIf_eq_ok, ok_eq_ok, validateAccountOwner_eq_ok, readPool_eq_ok,
    not_not] at h
  obtain ⟨_, -, _, howner, _, -, _, -, q', ⟨hq, -⟩, _, hadmin, rfl⟩ := h
  exact ⟨pool_of_read howner hq, hadmin⟩

theorem readTimelockPool_eq_ok {a : TimelockAccounts} {q : StakePool} {c : Clock}
    (h : readTimelockPool ctx w a = .ok (q, c)) :
    w.pool ctx.programId a.poolPda.key = some q ∧ w.clock = some c := by
  unfold readTimelockPool at h
  simp only [bind_eq_ok, ok_eq_ok, validateAccountOwner_eq_ok, readPool_eq_ok,
    Prod.mk.injEq] at h
  obtain ⟨_, -, _, howner, _, -, _, -, c', hc, q', ⟨hq, -⟩, _, -, rfl, rfl⟩ := h
  exact ⟨pool_of_read howner hq, clock_of_read hc⟩

theorem validateCooldownSlots_eq_ok {slots : UInt64} {u : Unit} :
    validateCooldownSlots slots = .ok u ↔ slots ≠ 0 ∧ slots ≤ maxCooldownSlots := by
  unfold validateCooldownSlots
  simp only [bind_eq_ok, rejectIf_eq_ok, gt_iff_lt, UInt64.not_lt]
  constructor
  · rintro ⟨-, h⟩
    exact h
  · intro h
    exact ⟨(), h⟩

theorem timelockWindowElapsed_eq_ok {proposedAt slots now : UInt64} :
    timelockWindowElapsed proposedAt slots now = .ok true ↔
      proposedAt.toNat + slots.toNat ≤ now.toNat := by
  have hnow := now.toNat_lt
  unfold timelockWindowElapsed
  simp only [bind_eq_ok, okOr_eq_ok, checkedAdd_eq_some, ok_eq_ok, decide_eq_true_eq,
    UInt64.le_iff_toNat_le]
  constructor
  · rintro ⟨s, hs, hle⟩
    omega
  · intro hle
    have hs : (UInt64.ofNat (proposedAt.toNat + slots.toNat)).toNat =
        proposedAt.toNat + slots.toNat := toNat_ofNat (by omega)
    exact ⟨UInt64.ofNat (proposedAt.toNat + slots.toNat), hs, by omega⟩

/-! ## Configuration -/

theorem processUpdateConfig_configured {cooldown cap : Option UInt64}
    (hd : processUpdateConfig ctx w accounts cooldown cap = .ok w') :
    ctx.Configured w accounts (fun p p' =>
      (∀ c, cooldown = some c → (c ≠ 0 ∧ c ≤ maxCooldownSlots) ∧ c ≤ p.cooldownSlots) ∧
      p' = { p with
        cooldownSlots := cooldown.getD p.cooldownSlots
        depositCap := cap.getD p.depositCap }) w' := by
  unfold processUpdateConfig at hd
  simp only [bind_eq_ok] at hd
  obtain ⟨a, ha, q, hq, q₁, hq₁, hstore⟩ := hd
  refine configured_of_store (AdminPoolAccounts.next_eq_ok ha) (readAdminPool_eq_ok hq).1 ?_ hstore
  have hcool : (∀ c, cooldown = some c → (c ≠ 0 ∧ c ≤ maxCooldownSlots) ∧ c ≤ q.cooldownSlots) ∧
      q₁ = { q with cooldownSlots := cooldown.getD q.cooldownSlots } := by
    cases cooldown with
    | none =>
      cases hq₁
      exact ⟨fun c e => (by cases e), rfl⟩
    | some c =>
      unfold updateCooldown at hq₁
      simp only [bind_eq_ok, ok_eq_ok, rejectIf_eq_ok, validateCooldownSlots_eq_ok, gt_iff_lt,
        UInt64.not_lt] at hq₁
      obtain ⟨_, hvalid, _, hle, rfl⟩ := hq₁
      refine ⟨fun c' e => ?_, rfl⟩
      cases e
      exact ⟨hvalid, hle⟩
  obtain ⟨hvalid, rfl⟩ := hcool
  refine ⟨hvalid, ?_⟩
  cases cap <;> rfl

theorem processProposeAdmin_configured {newAdmin : Pubkey}
    (hd : processProposeAdmin ctx w accounts newAdmin = .ok w') :
    ctx.Configured w accounts (fun p p' => p' = { p with pendingAdmin := newAdmin }) w' := by
  unfold processProposeAdmin at hd
  simp only [bind_eq_ok] at hd
  obtain ⟨a, ha, q, hq, hstore⟩ := hd
  exact configured_of_store (AdminPoolAccounts.next_eq_ok ha) (readAdminPool_eq_ok hq).1 rfl hstore

theorem processAcceptAdmin_configured (hd : processAcceptAdmin ctx w accounts = .ok w') :
    ctx.Configured w accounts (fun p p' =>
      p' = { p with admin := p.pendingAdmin, pendingAdmin := Vector.replicate 32 0 }) w' := by
  unfold processAcceptAdmin at hd
  simp only [bind_eq_ok, validateAccountOwner_eq_ok, readPool_eq_ok] at hd
  obtain ⟨a, ha, _, -, _, howner, _, -, _, -, q, ⟨hq, -⟩, _, -, _, -, hstore⟩ := hd
  exact configured_of_store (AdminPoolAccounts.next_eq_ok ha) (pool_of_read howner hq) rfl hstore

theorem processProposeCooldownIncrease_configured {slots : UInt64}
    (hd : processProposeCooldownIncrease ctx w accounts slots = .ok w') :
    ctx.Configured w accounts (fun p p' => ∃ c, w.clock = some c ∧
      (slots ≠ 0 ∧ slots ≤ maxCooldownSlots) ∧ p.cooldownSlots < slots ∧
      p' = { p with pendingCooldownSlots := slots, cooldownProposedAtSlot := c.slot }) w' := by
  unfold processProposeCooldownIncrease at hd
  simp only [bind_eq_ok, Prod.exists, rejectIf_eq_ok, validateCooldownSlots_eq_ok,
    UInt64.not_le] at hd
  obtain ⟨a, ha, q, c, hq, _, hvalid, _, hlt, hstore⟩ := hd
  obtain ⟨hpool, hclock⟩ := readTimelockPool_eq_ok hq
  exact configured_of_store (TimelockAccounts.next_eq_ok ha) hpool
    ⟨c, hclock, hvalid, hlt, rfl⟩ hstore

theorem processCommitCooldownIncrease_configured
    (hd : processCommitCooldownIncrease ctx w accounts = .ok w') :
    ctx.Configured w accounts (fun p p' => ∃ c, w.clock = some c ∧
      p.cooldownProposedAtSlot ≠ 0 ∧
      p.cooldownProposedAtSlot.toNat + timelockSlots.toNat ≤ c.slot.toNat ∧
      (p.pendingCooldownSlots ≠ 0 ∧ p.pendingCooldownSlots ≤ maxCooldownSlots) ∧
      p' = { p with
        cooldownSlots := p.pendingCooldownSlots
        pendingCooldownSlots := 0
        cooldownProposedAtSlot := 0 }) w' := by
  unfold processCommitCooldownIncrease at hd
  simp only [bind_eq_ok, Prod.exists, rejectIf_eq_ok, validateCooldownSlots_eq_ok,
    Bool.not_eq_false] at hd
  obtain ⟨a, ha, q, c, hq, _, hne, e, helapsed, _, rfl, _, hvalid, hstore⟩ := hd
  obtain ⟨hpool, hclock⟩ := readTimelockPool_eq_ok hq
  exact configured_of_store (TimelockAccounts.next_eq_ok ha) hpool
    ⟨c, hclock, hne, timelockWindowElapsed_eq_ok.mp helapsed, hvalid, rfl⟩ hstore

theorem processCancelCooldownIncrease_configured
    (hd : processCancelCooldownIncrease ctx w accounts = .ok w') :
    ctx.Configured w accounts (fun p p' => p.cooldownProposedAtSlot ≠ 0 ∧
      p' = { p with pendingCooldownSlots := 0, cooldownProposedAtSlot := 0 }) w' := by
  unfold processCancelCooldownIncrease at hd
  simp only [bind_eq_ok, rejectIf_eq_ok] at hd
  obtain ⟨a, ha, q, hq, _, hne, hstore⟩ := hd
  exact configured_of_store (AdminPoolAccounts.next_eq_ok ha) (readAdminPool_eq_ok hq).1
    ⟨hne, rfl⟩ hstore

theorem processAdminSetHwmConfig_configured {enabled : Bool} {bps : UInt16}
    (hd : processAdminSetHwmConfig ctx w accounts enabled bps = .ok w') :
    ctx.Configured w accounts (fun p p' =>
      (enabled = true → bps ≠ 0 ∧ bps ≤ maxHwmFloorBps) ∧
      p' = applyHwmConfig p enabled bps) w' := by
  unfold processAdminSetHwmConfig at hd
  simp only [bind_eq_ok] at hd
  obtain ⟨a, ha, q, hq, hd⟩ := hd
  split at hd
  · unfold validateHwmFloorBps at hd
    simp only [bind_eq_ok, rejectIf_eq_ok, not_or, gt_iff_lt, UInt16.not_lt] at hd
    obtain ⟨_, hbps, hstore⟩ := hd
    exact configured_of_store (AdminPoolAccounts.next_eq_ok ha) (readAdminPool_eq_ok hq).1
      ⟨fun _ => hbps, rfl⟩ hstore
  · rename_i henabled
    exact configured_of_store (AdminPoolAccounts.next_eq_ok ha) (readAdminPool_eq_ok hq).1
      ⟨fun e => (henabled e).elim, rfl⟩ hd

theorem processSetMarketResolved_configured
    (hd : processSetMarketResolved ctx w accounts = .ok w') :
    ctx.Configured w accounts (fun p p' => p.wrapperFullyRecovered = true ∧
      p.marketResolved = false ∧ p' = p.setMarketResolved true) w' := by
  unfold processSetMarketResolved resolveGate at hd
  simp only [bind_eq_ok, validateAccountOwner_eq_ok, readPool_eq_ok, rejectIf_eq_ok,
    Bool.not_eq_false, Bool.not_eq_true] at hd
  obtain ⟨a, ha, _, -, _, howner, _, -, _, -, q, ⟨hq, -⟩, _, -, _, hopen, _, hgate, hstore⟩ := hd
  exact configured_of_store (AdminPoolAccounts.next_eq_ok ha) (pool_of_read howner hq)
    ⟨hgate, hopen, rfl⟩ hstore

theorem processAdminSetTrancheConfig_configured {mult : UInt16}
    (hd : processAdminSetTrancheConfig ctx w accounts mult = .ok w') :
    ctx.Configured w accounts (fun p p' => (10000 ≤ mult ∧ mult ≤ 50000) ∧
      (p.juniorTotalLp > 0 → p.juniorFeeMultBps = mult) ∧
      p' = (p.setTrancheEnabled true).setJuniorFeeMultBps mult) w' := by
  unfold processAdminSetTrancheConfig at hd
  simp only [bind_eq_ok, rejectIf_eq_ok] at hd
  obtain ⟨a, ha, q, hq, _, hrange, _, hmult, hstore⟩ := hd
  have hkeep : q.juniorTotalLp > 0 → q.juniorFeeMultBps = mult := by
    intro hlp
    by_contra hne
    exact hmult ⟨hlp, hne⟩
  exact configured_of_store (AdminPoolAccounts.next_eq_ok ha) (readAdminPool_eq_ok hq).1
    ⟨not_not.mp hrange, hkeep, rfl⟩ hstore

theorem processAccrueFees_configured (hd : processAccrueFees ctx w accounts = .ok w') :
    ctx.Configured w accounts (fun p p' => ∃ vault b c p₁, vault.key = p.vault ∧
      vaultBalance w vault = .ok b ∧ w.clock = some c ∧ accrueFeesInner p b = .ok p₁ ∧
      p' = { p₁ with lastFeeAccrualSlot := c.slot, lastVaultSnapshot := b }) w' := by
  unfold processAccrueFees at hd
  simp only [bind_eq_ok, rejectIf_eq_ok, validateAccountOwner_eq_ok, readPool_eq_ok, not_not] at hd
  obtain ⟨a, ha, _, -, _, howner, _, -, q, ⟨hq, -⟩, _, -, _, -, _, hvault, b, hb, c, hc, q₁, hacc,
    hstore⟩ := hd
  exact configured_of_store (AccrueAccounts.next_eq_ok ha) (pool_of_read howner hq)
    ⟨a.vault, b, c, q₁, hvault, hb, clock_of_read hc, hacc, rfl⟩ hstore

/-! ## Instructions that only talk to the wrapper -/

theorem processAdminResolveMarket_configured
    (hd : processAdminResolveMarket ctx w accounts = .ok w') :
    ctx.Configured w accounts (fun p p' => p' = p) w' := by
  unfold processAdminResolveMarket at hd
  simp only [bind_eq_ok, validateAccountOwner_eq_ok, readPool_eq_ok] at hd
  obtain ⟨a, ha, _, -, _, howner, _, -, q, ⟨hq, -⟩, _, -, _, -, _, -, _, -, hcpi⟩ := hd
  exact configured_of_eq (MarketAccounts.next_eq_ok ha) (pool_of_read howner hq) rfl
    (Context.world_of_invokeSigned (.resolveMarket ..) hcpi)

theorem groupAProxy_configured {build : Pubkey → Pubkey → Pubkey → Instruction}
    (hbuild : ∀ program signer slab, Cpi.Administrative (build program signer slab))
    (hd : groupAProxy ctx w accounts build = .ok w') :
    ctx.Configured w accounts (fun p p' => p' = p) w' := by
  unfold groupAProxy validateGroupAProxy at hd
  simp only [bind_eq_ok, validateAccountOwner_eq_ok, readPool_eq_ok] at hd
  obtain ⟨a, ha, bump, ⟨_, -, _, howner, _, -, q, ⟨hq, -⟩, -⟩, hcpi⟩ := hd
  exact configured_of_eq (MarketAccounts.next_eq_ok ha) (pool_of_read howner hq) rfl
    (Context.world_of_invokeSigned (hbuild ..) hcpi)

theorem groupBProxy_configured {build : Pubkey → Pubkey → Pubkey → Instruction}
    (hbuild : ∀ program signer slab, Cpi.Administrative (build program signer slab))
    (hd : groupBProxy ctx w accounts build = .ok w') :
    ctx.Configured w accounts (fun p p' => p' = p) w' := by
  unfold groupBProxy validateGroupBProxy validateGroupAProxy at hd
  simp only [bind_eq_ok, validateAccountOwner_eq_ok, readPool_eq_ok] at hd
  obtain ⟨a, ha, bump, ⟨_, ⟨_, -, _, howner, _, -, q, ⟨hq, -⟩, -⟩, -⟩, hcpi⟩ := hd
  exact configured_of_eq (AuthorityAccounts.next_eq_ok ha) (pool_of_read howner hq) rfl
    (Context.world_of_invokeSigned (hbuild ..) hcpi)

theorem processAdminUpdateFeeSplit_configured {creator lp insurance : UInt16}
    (hd : processAdminUpdateFeeSplit ctx w accounts creator lp insurance = .ok w') :
    ctx.Configured w accounts (fun p p' => p' = p) w' :=
  groupAProxy_configured (fun _ _ _ => .updateFeeSplit ..) hd

theorem processAdminUpdateMaintenanceFeePerSlot_configured {fee : BitVec 128}
    (hd : processAdminUpdateMaintenanceFeePerSlot ctx w accounts fee = .ok w') :
    ctx.Configured w accounts (fun p p' => p' = p) w' :=
  groupAProxy_configured (fun _ _ _ => .updateMaintenanceFeePerSlot ..) hd

theorem processAdminUpdateBackingFeePolicy_configured {domain fee insurance : UInt16}
    (hd : processAdminUpdateBackingFeePolicy ctx w accounts domain fee insurance = .ok w') :
    ctx.Configured w accounts (fun p p' => p' = p) w' :=
  groupBProxy_configured (fun _ _ _ => .updateBackingFeePolicy ..) hd

theorem processAdminUpdateTradeFeePolicy_configured {fee : UInt64}
    (hd : processAdminUpdateTradeFeePolicy ctx w accounts fee = .ok w') :
    ctx.Configured w accounts (fun p p' => p' = p) w' :=
  groupBProxy_configured (fun _ _ _ => .updateTradeFeePolicy ..) hd

theorem processBindInsuranceAuthority_configured
    (hd : processBindInsuranceAuthority ctx w accounts = .ok w') :
    ctx.Configured w accounts (fun p p' => p' = p) w' := by
  unfold processBindInsuranceAuthority at hd
  simp only [bind_eq_ok, validateAccountOwner_eq_ok, readPool_eq_ok] at hd
  obtain ⟨a, ha, _, -, _, howner, _, -, q, ⟨hq, -⟩, _, -, bump, -, w₁, hcpi₁, hcpi₂⟩ := hd
  have hw₁ := Context.world_of_invokeSigned (.updateAssetAuthority ..) hcpi₁
  have hw₂ := Context.world_of_invokeSigned (.updateAssetAuthority ..) hcpi₂
  exact configured_of_eq (AuthorityAccounts.next_eq_ok ha) (pool_of_read howner hq) rfl
    (hw₂.trans hw₁)

theorem processBurnAssetAdmin_configured (hd : processBurnAssetAdmin ctx w accounts = .ok w') :
    ctx.Configured w accounts (fun p p' => p.assetAdminBurned = false ∧
      p' = p.setAssetAdminBurned true) w' := by
  unfold processBurnAssetAdmin Context.invoke at hd
  simp only [bind_eq_ok, rejectIf_eq_ok, validateAccountOwner_eq_ok, readPool_eq_ok,
    Bool.not_eq_true] at hd
  obtain ⟨a, ha, _, -, _, -, _, howner, _, -, q, ⟨hq, -⟩, _, -, _, hburned, bump, -, w₁, hcpi, q₁,
    hq₁, hstore⟩ := hd
  obtain rfl := Context.world_of_invokeSigned (.updateAssetAuthority ..) hcpi
  obtain rfl : q = q₁ := by
    rw [poolFromData_eq_ok, hq] at hq₁
    cases hq₁
    rfl
  exact configured_of_store (AuthorityAccounts.next_eq_ok ha) (pool_of_read howner hq)
    ⟨hburned, rfl⟩ hstore

theorem rotateRole_configured {build : Pubkey → Pubkey → Pubkey → Pubkey → Instruction}
    {kind : UInt8}
    (hbuild : ∀ program current new market, build program current new market =
      Cpi.updateAssetAuthority program current new market true kind new)
    (hd : rotateRole ctx w accounts build = .ok w') :
    ctx.Configured w accounts (fun p p' => p.assetAdminBurned = false ∧ p' = p) w' := by
  unfold rotateRole at hd
  simp only [bind_eq_ok, rejectIf_eq_ok, validateAccountOwner_eq_ok, readPool_eq_ok, hbuild,
    Bool.not_eq_true] at hd
  obtain ⟨a, ha, _, -, _, -, _, howner, _, -, q, ⟨hq, -⟩, _, -, _, hburned, bump, -, hcpi⟩ := hd
  exact configured_of_eq (RotateAccounts.next_eq_ok ha) (pool_of_read howner hq) ⟨hburned, rfl⟩
    (Context.world_of_invokeSigned (.updateAssetAuthority ..) hcpi)

/-! ## Books -/

theorem applyHwmConfig_book (p : StakePool) (enabled : Bool) (bps : UInt16) :
    (applyHwmConfig p enabled bps).charter = p.charter ∧
      (applyHwmConfig p enabled bps).book = p.book := by
  unfold applyHwmConfig
  cases enabled <;> simp

section

variable (h : Standing ctx π w p t m) (hpool : ∃ a, accounts[1]? = some a ∧ a.key = π)

include h hpool

theorem Standing.adminSetTrancheConfig {mult : UInt16}
    (hd : processAdminSetTrancheConfig ctx w accounts mult = .ok w') :
    Simulated ctx π w p t [.setTranches mult.toNat] w' := by
  refine h.configured hpool (processAdminSetTrancheConfig_configured hd) ?_
  rintro p' ⟨-, hmult, rfl⟩
  refine ⟨by simp, _, .setTranches ?_, ?_⟩
  · intro hj
    rw [← hmult (pos_iff.mpr hj)]
    rfl
  · rw [StakePool.book_setJuniorFeeMultBps, StakePool.book_setTrancheEnabled]
    rfl

theorem Standing.accrueFees (hd : processAccrueFees ctx w accounts = .ok w') :
    ∃ acc, Accrual acc ∧ Simulated ctx π w p t acc w' := by
  obtain ⟨b, q, p', hb, hq, ⟨vault, v, c, p₁, hvault, hbal, hclock, hacc, rfl⟩, rfl⟩ :=
    processAccrueFees_configured hd
  obtain ⟨hk, rfl⟩ := h.pool_read hpool hb hq
  have htoken := h.vault_eq
  rw [← hvault] at htoken
  obtain rfl := (vaultBalance_eq_ok htoken h.vault_live).mp hbal
  obtain ⟨-, acc, hacc', hrun⟩ := accrueFeesInner_run (f := w.positions ctx.programId π) hacc
  obtain ⟨hcharter, -⟩ := accrueFeesInner_book hacc
  rw [hk]
  refine ⟨acc, hacc', _, t, m, h.setPool hcharter, hcharter, ?_⟩
  rwa [ledgerOf, ledgerOf, h.positions_setPool]

end

end

end PercolatorStake
