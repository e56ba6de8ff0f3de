import PercolatorStake.Processor

/-!
# What is sent to the wrapper

A handler that sends instructions to the wrapper first goes through its checks, then
sends them, then books the outcome.  Here the three parts of every handler are taken
apart, and put together they are the handler again.
-/

namespace PercolatorStake

open Result Word

/-- An invocation: the instruction, the accounts passed on, and the seeds signed with. -/
structure Call where
  ix : Instruction
  infos : List AccountInfo
  seeds : List (List (List UInt8))

/-- A handler that is through with its checks. -/
structure Dispatch where
  world : World
  calls : List Call
  finish : World → Except ProgramError World

namespace Context

variable (ctx : Context)

def issue (w : World) (c : Call) : Except ProgramError World :=
  ctx.invokeSigned w c.ix c.infos c.seeds

def issueAll : World → List Call → Except ProgramError World
  | w, [] => .ok w
  | w, c :: cs => do
    let w ← ctx.issue w c
    issueAll w cs

def run (d : Dispatch) : Except ProgramError World := do
  let w ← ctx.issueAll d.world d.calls
  d.finish w

end Context

/-! ## The checks of each handler -/

section

variable (ctx : Context) (w : World) (accounts : List AccountInfo)

def dispatchInitPool (cooldownSlots depositCap : UInt64) : Except ProgramError Dispatch := do
  let a ← InitAccounts.next accounts
  validateInit ctx w a cooldownSlots
  let poolSeeds := Derivation.poolSeeds a.slab.key
    (ctx.derivation.derivePoolPda ctx.programId a.slab.key).2
  let w ← ctx.createOrAdoptPda w accounts a.poolPda a.admin (.pool StakePool.zeroed) poolSeeds
  .ok {
    world := w
    calls := [⟨Cpi.updateAuthority a.percolatorProgram.key a.admin.key a.poolPda.key a.slab.key,
      [a.admin, a.poolPda, a.slab], [poolSeeds]⟩]
    finish := fun w => do
      let w ← createTokenAccounts ctx w a
      let pool ← poolFromData (w.data a.poolPda)
      w.store a.poolPda (.pool (initialPool ctx a pool cooldownSlots depositCap)) }

def dispatchInitTradingPool (cooldownSlots depositCap : UInt64) :
    Except ProgramError Dispatch := do
  let d ← dispatchInitPool ctx w accounts cooldownSlots depositCap
  .ok { d with
    finish := fun w => do
      let w ← d.finish w
      let a ← InitAccounts.next accounts
      validateAccountOwner w a.poolPda ctx.programId
      let pool ← poolFromData (w.data a.poolPda)
      rejectIf (pool.validateDiscriminator = false) ↑StakeError.invalidAccount
      w.store a.poolPda (.pool { pool with poolMode := 1 }) }

def dispatchFlushToInsurance (amount : UInt64) : Except ProgramError Dispatch := do
  rejectIf (amount = 0) ↑StakeError.zeroAmount
  let a ← FlushAccounts.next accounts
  requireSigner a.caller
  validateAccountOwner w a.poolPda ctx.programId
  validateAccountNotEmpty w a.poolPda
  validateAccountWritable a.poolPda
  verifyTokenProgram a.tokenProgram
  let pool ← readPool w a.poolPda
  rejectIf (pool.admin ≠ a.caller.key) ↑StakeError.unauthorized
  rejectIf (pool.slab ≠ a.slab.key) ↑StakeError.invalidPda
  rejectIf (pool.vault ≠ a.vault.key) ↑StakeError.invalidPda
  rejectIf (pool.percolatorProgram ≠ a.percolatorProgram.key) ↑StakeError.invalidPercolatorProgram
  rejectIf (pool.poolMode ≠ 0) ↑StakeError.invalidPoolMode
  rejectIf (pool.marketResolved = true) ↑StakeError.marketResolved
  validateTokenMint w a.wrapperVault pool.collateralMint .invalidMint
  let available ← okOr pool.totalPoolValue ↑StakeError.overflow
  rejectIf (amount > available) ↑StakeError.insufficientVaultBalance
  let (expected, bump) := ctx.derivation.deriveVaultAuthority ctx.programId a.poolPda.key
  rejectIf (a.vaultAuth.key ≠ expected) ↑StakeError.invalidPda
  .ok {
    world := w
    calls := [⟨Cpi.topUpInsurance a.percolatorProgram.key a.vaultAuth.key a.slab.key a.vault.key
        a.wrapperVault.key a.tokenProgram.key amount,
      [a.vaultAuth, a.slab, a.vault, a.wrapperVault, a.tokenProgram],
      [Derivation.vaultAuthSeeds a.poolPda.key bump]⟩]
    finish := fun w => do
      let pool ← bookFlush pool amount
      w.store a.poolPda (.pool pool) }

def dispatchRecoverFlushedInsurance (amount : UInt64) : Except ProgramError Dispatch := do
  let a ← RecoverAccounts.next accounts
  verifyTokenProgram a.tokenProgram
  validateAccountOwner w a.poolPda ctx.programId
  validateAccountNotEmpty w a.poolPda
  validateAccountWritable a.poolPda
  let pool ← readPool w a.poolPda
  rejectIf (pool.poolMode ≠ 0) ↑StakeError.invalidPoolMode
  rejectIf (amount = 0) ↑StakeError.zeroAmount
  checkRecoverCap pool amount
  rejectIf (pool.percolatorProgram ≠ a.percolatorProgram.key) ↑StakeError.invalidPercolatorProgram
  rejectIf (pool.vault ≠ a.vault.key) ↑StakeError.invalidPda
  let (expected, bump) := ctx.derivation.deriveVaultAuthority ctx.programId a.poolPda.key
  rejectIf (a.vaultAuth.key ≠ expected) ↑StakeError.invalidPda
  .ok {
    world := w
    calls := [⟨Cpi.withdrawInsuranceAsset a.percolatorProgram.key a.vaultAuth.key a.market.key
        a.vault.key a.wrapperVault.key a.wrapperVaultAuth.key a.tokenProgram.key amount,
      [a.vaultAuth, a.market, a.vault, a.wrapperVault, a.wrapperVaultAuth, a.tokenProgram],
      [Derivation.vaultAuthSeeds a.poolPda.key bump]⟩]
    finish := fun w => do
      let pool ← bookRecover pool amount
      w.store a.poolPda (.pool pool) }

def dispatchAdminResolveMarket : Except ProgramError Dispatch := do
  let a ← MarketAccounts.next accounts
  requireSigner a.admin
  validateAccountOwner w a.poolPda ctx.programId
  validateAccountNotEmpty w a.poolPda
  let pool ← readPool w a.poolPda
  rejectIf (pool.admin ≠ a.admin.key) ↑StakeError.unauthorized
  rejectIf (pool.slab ≠ a.slab.key) ↑StakeError.invalidPda
  rejectIf (pool.percolatorProgram ≠ a.percolatorProgram.key) ↑StakeError.invalidPercolatorProgram
  resolveGate pool
  .ok {
    world := w
    calls := [⟨Cpi.resolveMarket a.percolatorProgram.key a.poolPda.key a.slab.key,
      [a.poolPda, a.slab], [Derivation.poolSeeds a.slab.key pool.bump]⟩]
    finish := .ok }

def dispatchBindInsuranceAuthority : Except ProgramError Dispatch := do
  let a ← AuthorityAccounts.next accounts
  requireSigner a.admin
  validateAccountOwner w a.poolPda ctx.programId
  validateAccountNotEmpty w a.poolPda
  let pool ← readPool w a.poolPda
  rejectIf (pool.admin ≠ a.admin.key) ↑StakeError.unauthorized
  let bump ← bindMarket ctx pool a.poolPda a.vaultAuth a.slab a.percolatorProgram
  let infos := [a.admin, a.vaultAuth, a.slab]
  let seeds := [Derivation.vaultAuthSeeds a.poolPda.key bump]
  .ok {
    world := w
    calls := [
      ⟨Cpi.bindInsuranceAuthority a.percolatorProgram.key a.admin.key a.vaultAuth.key a.slab.key,
        infos, seeds⟩,
      ⟨Cpi.bindInsuranceOperator a.percolatorProgram.key a.admin.key a.vaultAuth.key a.slab.key,
        infos, seeds⟩]
    finish := .ok }

def dispatchBurnAssetAdmin : Except ProgramError Dispatch := do
  let a ← AuthorityAccounts.next accounts
  requireSigner a.admin
  validateAccountWritable a.poolPda
  validateAccountOwner w a.poolPda ctx.programId
  validateAccountNotEmpty w a.poolPda
  let pool ← readPool w a.poolPda
  rejectIf (pool.admin ≠ a.admin.key) ↑StakeError.unauthorized
  rejectIf (pool.assetAdminBurned = true) ↑StakeError.unauthorized
  let _bump ← bindMarket ctx pool a.poolPda a.vaultAuth a.slab a.percolatorProgram
  .ok {
    world := w
    calls := [⟨Cpi.burnAssetAdmin a.percolatorProgram.key a.admin.key a.vaultAuth.key a.slab.key,
      [a.admin, a.vaultAuth, a.slab], []⟩]
    finish := fun w => do
      let pool ← poolFromData (w.data a.poolPda)
      w.store a.poolPda (.pool (pool.setAssetAdminBurned true)) }

def dispatchRotateRole (build : Pubkey → Pubkey → Pubkey → Pubkey → Instruction) :
    Except ProgramError Dispatch := do
  let a ← RotateAccounts.next accounts
  requireSigner a.admin
  requireSigner a.newTarget
  validateAccountOwner w a.poolPda ctx.programId
  validateAccountNotEmpty w a.poolPda
  let pool ← readPool w a.poolPda
  rejectIf (pool.admin ≠ a.admin.key) ↑StakeError.unauthorized
  rejectIf (pool.assetAdminBurned = true) ↑StakeError.unauthorized
  let bump ← bindMarket ctx pool a.poolPda a.vaultAuth a.slab a.percolatorProgram
  .ok {
    world := w
    calls := [⟨build a.percolatorProgram.key a.vaultAuth.key a.newTarget.key a.slab.key,
      [a.vaultAuth, a.newTarget, a.slab], [Derivation.vaultAuthSeeds a.poolPda.key bump]⟩]
    finish := .ok }

def dispatchGroupAProxy (build : Pubkey → Pubkey → Pubkey → Instruction) :
    Except ProgramError Dispatch := do
  let a ← MarketAccounts.next accounts
  let bump ← validateGroupAProxy ctx w a.admin a.poolPda a.slab a.percolatorProgram
  .ok {
    world := w
    calls := [⟨build a.percolatorProgram.key a.poolPda.key a.slab.key,
      [a.poolPda, a.slab], [Derivation.poolSeeds a.slab.key bump]⟩]
    finish := .ok }

def dispatchGroupBProxy (build : Pubkey → Pubkey → Pubkey → Instruction) :
    Except ProgramError Dispatch := do
  let a ← AuthorityAccounts.next accounts
  let bump ← validateGroupBProxy ctx w a.admin a.poolPda a.vaultAuth a.slab a.percolatorProgram
  .ok {
    world := w
    calls := [⟨build a.percolatorProgram.key a.vaultAuth.key a.slab.key,
      [a.vaultAuth, a.slab], [Derivation.vaultAuthSeeds a.poolPda.key bump]⟩]
    finish := .ok }

/-- The handler of an instruction up to what it sends to the wrapper.  The others send
nothing. -/
def dispatch : StakeInstruction → Except ProgramError Dispatch
  | .initPool cooldownSlots depositCap => dispatchInitPool ctx w accounts cooldownSlots depositCap
  | .initTradingPool cooldownSlots depositCap =>
    dispatchInitTradingPool ctx w accounts cooldownSlots depositCap
  | .flushToInsurance amount => dispatchFlushToInsurance ctx w accounts amount
  | .recoverFlushedInsurance amount => dispatchRecoverFlushedInsurance ctx w accounts amount
  | .adminResolveMarket => dispatchAdminResolveMarket ctx w accounts
  | .bindInsuranceAuthority => dispatchBindInsuranceAuthority ctx w accounts
  | .burnAssetAdmin => dispatchBurnAssetAdmin ctx w accounts
  | .rotateInsuranceAuthority => dispatchRotateRole ctx w accounts Cpi.rotateInsuranceAuthority
  | .rotateInsuranceOperator => dispatchRotateRole ctx w accounts Cpi.rotateInsuranceOperator
  | .adminUpdateFeeSplit creatorShareBps lpShareBps insuranceShareBps =>
    dispatchGroupAProxy ctx w accounts fun program poolPda slab =>
      Cpi.updateFeeSplit program poolPda slab creatorShareBps lpShareBps insuranceShareBps
  | .adminUpdateMaintenanceFeePerSlot maintenanceFeePerSlot =>
    dispatchGroupAProxy ctx w accounts fun program poolPda slab =>
      Cpi.updateMaintenanceFeePerSlot program poolPda slab maintenanceFeePerSlot
  | .adminUpdateBackingFeePolicy domain feeBps insuranceShareBps =>
    dispatchGroupBProxy ctx w accounts fun program vaultAuth slab =>
      Cpi.updateBackingFeePolicy program vaultAuth slab domain feeBps insuranceShareBps
  | .adminUpdateTradeFeePolicy tradeFeeBaseBps =>
    dispatchGroupBProxy ctx w accounts fun program vaultAuth slab =>
      Cpi.updateTradeFeePolicy program vaultAuth slab tradeFeeBaseBps
  | ix => .ok ⟨w, [], fun w => process ctx w accounts ix⟩

end

/-! ## Together they are the handler -/

section

variable {ctx : Context} {w : World} {accounts : List AccountInfo}

theorem run_nil {finish : World → Except ProgramError World} : ctx.run ⟨w, [], finish⟩ = finish w :=
  rfl

theorem run_cons {c : Call} {cs : List Call} {finish : World → Except ProgramError World} :
    ctx.run ⟨w, c :: cs, finish⟩ = ctx.issue w c >>= fun w => ctx.run ⟨w, cs, finish⟩ := by
  unfold Context.run
  simp only [Context.issueAll, bind_assoc]

/-- Nothing left to do. -/
theorem run_ok : ctx.run ⟨w, [], .ok⟩ = .ok w := rfl

theorem bind_ok (x : Except ProgramError World) : x >>= (fun w => .ok w) = x := by
  cases x <;> rfl

theorem processInitPool_eq {slots cap : UInt64} : processInitPool ctx w accounts slots cap =
    dispatchInitPool ctx w accounts slots cap >>= ctx.run := by
  unfold processInitPool dispatchInitPool
  simp only [bind_assoc, ok_bind, run_cons, run_nil]
  rfl

theorem processInitTradingPool_eq {slots cap : UInt64} :
    processInitTradingPool ctx w accounts slots cap =
      dispatchInitTradingPool ctx w accounts slots cap >>= ctx.run := by
  unfold processInitTradingPool dispatchInitTradingPool
  rw [processInitPool_eq]
  simp only [bind_assoc, ok_bind, Context.run]

theorem processFlushToInsurance_eq {amount : UInt64} :
    processFlushToInsurance ctx w accounts amount =
      dispatchFlushToInsurance ctx w accounts amount >>= ctx.run := by
  unfold processFlushToInsurance dispatchFlushToInsurance
  simp only [bind_assoc, ok_bind, run_cons, run_nil]
  rfl

theorem processRecoverFlushedInsurance_eq {amount : UInt64} :
    processRecoverFlushedInsurance ctx w accounts amount =
      dispatchRecoverFlushedInsurance ctx w accounts amount >>= ctx.run := by
  unfold processRecoverFlushedInsurance dispatchRecoverFlushedInsurance
  simp only [bind_assoc, ok_bind, run_cons, run_nil]
  rfl

theorem processAdminResolveMarket_eq : processAdminResolveMarket ctx w accounts =
    dispatchAdminResolveMarket ctx w accounts >>= ctx.run := by
  unfold processAdminResolveMarket dispatchAdminResolveMarket
  simp only [bind_assoc, ok_bind, run_cons, run_ok, bind_ok]
  rfl

theorem processBindInsuranceAuthority_eq : processBindInsuranceAuthority ctx w accounts =
    dispatchBindInsuranceAuthority ctx w accounts >>= ctx.run := by
  unfold processBindInsuranceAuthority dispatchBindInsuranceAuthority
  simp only [bind_assoc, ok_bind, run_cons, run_ok, bind_ok]
  rfl

theorem processBurnAssetAdmin_eq : processBurnAssetAdmin ctx w accounts =
    dispatchBurnAssetAdmin ctx w accounts >>= ctx.run := by
  unfold processBurnAssetAdmin dispatchBurnAssetAdmin
  simp only [bind_assoc, ok_bind, run_cons, run_nil]
  rfl

theorem rotateRole_eq {build : Pubkey → Pubkey → Pubkey → Pubkey → Instruction} :
    rotateRole ctx w accounts build = dispatchRotateRole ctx w accounts build >>= ctx.run := by
  unfold rotateRole dispatchRotateRole
  simp only [bind_assoc, ok_bind, run_cons, run_ok, bind_ok]
  rfl

theorem groupAProxy_eq {build : Pubkey → Pubkey → Pubkey → Instruction} :
    groupAProxy ctx w accounts build = dispatchGroupAProxy ctx w accounts build >>= ctx.run := by
  unfold groupAProxy dispatchGroupAProxy
  simp only [bind_assoc, ok_bind, run_cons, run_ok, bind_ok]
  rfl

theorem groupBProxy_eq {build : Pubkey → Pubkey → Pubkey → Instruction} :
    groupBProxy ctx w accounts build = dispatchGroupBProxy ctx w accounts build >>= ctx.run := by
  unfold groupBProxy dispatchGroupBProxy
  simp only [bind_assoc, ok_bind, run_cons, run_ok, bind_ok]
  rfl

theorem process_eq_dispatch {ix : StakeInstruction} :
    process ctx w accounts ix = dispatch ctx w accounts ix >>= ctx.run := by
  cases ix with
  | initPool => exact processInitPool_eq
  | initTradingPool => exact processInitTradingPool_eq
  | flushToInsurance => exact processFlushToInsurance_eq
  | recoverFlushedInsurance => exact processRecoverFlushedInsurance_eq
  | adminResolveMarket => exact processAdminResolveMarket_eq
  | bindInsuranceAuthority => exact processBindInsuranceAuthority_eq
  | burnAssetAdmin => exact processBurnAssetAdmin_eq
  | rotateInsuranceAuthority | rotateInsuranceOperator => exact rotateRole_eq
  | adminUpdateFeeSplit =>
    unfold process dispatch processAdminUpdateFeeSplit
    exact groupAProxy_eq
  | adminUpdateMaintenanceFeePerSlot =>
    unfold process dispatch processAdminUpdateMaintenanceFeePerSlot
    exact groupAProxy_eq
  | adminUpdateBackingFeePolicy =>
    unfold process dispatch processAdminUpdateBackingFeePolicy
    exact groupBProxy_eq
  | adminUpdateTradeFeePolicy =>
    unfold process dispatch processAdminUpdateTradeFeePolicy
    exact groupBProxy_eq
  | _ => rfl

end

/-! ## What each handler sends -/

/-- The tag of the instructions a handler sends. -/
def StakeInstruction.wrapperTag : StakeInstruction → Option UInt8
  | .initPool .. | .initTradingPool .. => some Cpi.tagUpdateAuthority
  | .flushToInsurance _ => some Cpi.tagTopUpInsurance
  | .recoverFlushedInsurance _ => some Cpi.tagWithdrawInsuranceAsset
  | .bindInsuranceAuthority | .burnAssetAdmin | .rotateInsuranceAuthority
  | .rotateInsuranceOperator => some Cpi.tagUpdateAssetAuthority
  | .adminResolveMarket => some Cpi.tagResolveMarket
  | .adminUpdateFeeSplit .. => some Cpi.tagUpdateFeeSplit
  | .adminUpdateMaintenanceFeePerSlot _ => some Cpi.tagUpdateMaintenanceFeePerSlot
  | .adminUpdateBackingFeePolicy .. => some Cpi.tagUpdateBackingFeePolicy
  | .adminUpdateTradeFeePolicy _ => some Cpi.tagUpdateTradeFeePolicy
  | _ => none

section

variable {ctx : Context} {w : World} {accounts : List AccountInfo} {d : Dispatch}

theorem dispatchInitPool_created {slots cap : UInt64}
    (h : dispatchInitPool ctx w accounts slots cap = .ok d) :
    ∃ a bump, InitAccounts.next accounts = .ok a ∧ validateInit ctx w a slots = .ok () ∧
      d.calls = [⟨Cpi.updateAuthority a.percolatorProgram.key a.admin.key a.poolPda.key a.slab.key,
        [a.admin, a.poolPda, a.slab], [Derivation.poolSeeds a.slab.key bump]⟩] := by
  unfold dispatchInitPool at h
  simp only [bind_eq_ok, ok_eq_ok] at h
  obtain ⟨a, ha, u, hval, w₁, -, rfl⟩ := h
  exact ⟨a, _, ha, hval, rfl⟩

/-- A trading pool is created as any other pool. -/
theorem calls_dispatchInitTradingPool {slots cap : UInt64}
    (h : dispatchInitTradingPool ctx w accounts slots cap = .ok d) :
    ∃ d', dispatchInitPool ctx w accounts slots cap = .ok d' ∧ d.calls = d'.calls := by
  unfold dispatchInitTradingPool at h
  simp only [bind_eq_ok, ok_eq_ok] at h
  obtain ⟨d', hd', rfl⟩ := h
  exact ⟨d', hd', rfl⟩

theorem calls_dispatchGroupAProxy {build : Pubkey → Pubkey → Pubkey → Instruction}
    {data : List UInt8} (hbuild : ∀ program signer slab, (build program signer slab).data = data)
    (h : dispatchGroupAProxy ctx w accounts build = .ok d) :
    ∃ c, d.calls = [c] ∧ c.ix.data = data := by
  unfold dispatchGroupAProxy at h
  simp only [bind_eq_ok, ok_eq_ok] at h
  obtain ⟨a, _, bump, _, rfl⟩ := h
  exact ⟨_, rfl, hbuild _ _ _⟩

theorem calls_dispatchGroupBProxy {build : Pubkey → Pubkey → Pubkey → Instruction}
    {data : List UInt8} (hbuild : ∀ program signer slab, (build program signer slab).data = data)
    (h : dispatchGroupBProxy ctx w accounts build = .ok d) :
    ∃ c, d.calls = [c] ∧ c.ix.data = data := by
  unfold dispatchGroupBProxy at h
  simp only [bind_eq_ok, ok_eq_ok] at h
  obtain ⟨a, _, bump, _, rfl⟩ := h
  exact ⟨_, rfl, hbuild _ _ _⟩

theorem calls_dispatchFlushToInsurance {amount : UInt64}
    (h : dispatchFlushToInsurance ctx w accounts amount = .ok d) :
    ∃ c, d.calls = [c] ∧ c.ix.data = Cpi.tagTopUpInsurance :: Bytes.encodeLe 16 amount.toNat := by
  unfold dispatchFlushToInsurance at h
  simp only [bind_eq_ok, ok_eq_ok] at h
  obtain ⟨_, -, a, -, _, -, _, -, _, -, _, -, _, -, q, -, _, -, _, -, _, -, _, -, _, -, _, -, _, -,
    v, -, _, -, _, -, rfl⟩ := h
  exact ⟨_, rfl, rfl⟩

theorem calls_dispatchRecoverFlushedInsurance {amount : UInt64}
    (h : dispatchRecoverFlushedInsurance ctx w accounts amount = .ok d) :
    ∃ c, d.calls = [c] ∧ c.ix.data =
      Cpi.tagWithdrawInsuranceAsset :: (Bytes.encodeLe 2 0 ++ Bytes.encodeLe 16 amount.toNat) := by
  unfold dispatchRecoverFlushedInsurance at h
  simp only [bind_eq_ok, ok_eq_ok] at h
  obtain ⟨a, -, _, -, _, -, _, -, _, -, q, -, _, -, _, -, _, -, _, -, _, -, _, -, rfl⟩ := h
  exact ⟨_, rfl, rfl⟩

/-- Every call of a handler is one of its tag. -/
theorem dispatch_tag {ix : StakeInstruction} {c : Call} (h : dispatch ctx w accounts ix = .ok d)
    (hc : c ∈ d.calls) : ∃ t, ix.wrapperTag = some t ∧ c.ix.data.head? = some t := by
  have hone : ∀ {t : UInt8} {data : List UInt8}, (∃ c, d.calls = [c] ∧ c.ix.data = t :: data) →
      c.ix.data.head? = some t := by
    rintro t data ⟨c', hcalls, hdata⟩
    rw [hcalls, List.mem_singleton] at hc
    rw [hc, hdata]
    rfl
  cases ix with
  | initPool =>
    obtain ⟨a, bump, -, -, hcalls⟩ := dispatchInitPool_created h
    exact ⟨_, rfl, hone ⟨_, hcalls, rfl⟩⟩
  | initTradingPool =>
    obtain ⟨d', hd', hsame⟩ := calls_dispatchInitTradingPool h
    obtain ⟨a, bump, -, -, hcalls⟩ := dispatchInitPool_created hd'
    exact ⟨_, rfl, hone ⟨_, hsame.trans hcalls, rfl⟩⟩
  | flushToInsurance => exact ⟨_, rfl, hone (calls_dispatchFlushToInsurance h)⟩
  | recoverFlushedInsurance => exact ⟨_, rfl, hone (calls_dispatchRecoverFlushedInsurance h)⟩
  | adminResolveMarket =>
    unfold dispatch dispatchAdminResolveMarket at h
    simp only [bind_eq_ok, ok_eq_ok] at h
    obtain ⟨a, -, _, -, _, -, _, -, p, -, _, -, _, -, _, -, _, -, rfl⟩ := h
    exact ⟨_, rfl, hone ⟨_, rfl, rfl⟩⟩
  | bindInsuranceAuthority =>
    unfold dispatch dispatchBindInsuranceAuthority at h
    simp only [bind_eq_ok, ok_eq_ok] at h
    obtain ⟨a, -, _, -, _, -, _, -, p, -, _, -, bump, -, rfl⟩ := h
    refine ⟨_, rfl, ?_⟩
    rcases List.mem_cons.mp hc with rfl | hc
    · rfl
    · rw [List.mem_singleton.mp hc]
      rfl
  | burnAssetAdmin =>
    unfold dispatch dispatchBurnAssetAdmin at h
    simp only [bind_eq_ok, ok_eq_ok] at h
    obtain ⟨a, -, _, -, _, -, _, -, _, -, p, -, _, -, _, -, bump, -, rfl⟩ := h
    exact ⟨_, rfl, hone ⟨_, rfl, rfl⟩⟩
  | rotateInsuranceAuthority | rotateInsuranceOperator =>
    unfold dispatch dispatchRotateRole at h
    simp only [bind_eq_ok, ok_eq_ok] at h
    obtain ⟨a, -, _, -, _, -, _, -, _, -, p, -, _, -, _, -, bump, -, rfl⟩ := h
    exact ⟨_, rfl, hone ⟨_, rfl, rfl⟩⟩
  | adminUpdateFeeSplit | adminUpdateMaintenanceFeePerSlot =>
    unfold dispatch at h
    exact ⟨_, rfl, hone (calls_dispatchGroupAProxy (fun _ _ _ => rfl) h)⟩
  | adminUpdateBackingFeePolicy | adminUpdateTradeFeePolicy =>
    unfold dispatch at h
    exact ⟨_, rfl, hone (calls_dispatchGroupBProxy (fun _ _ _ => rfl) h)⟩
  | _ =>
    cases h
    cases hc

end

/-! ## A stricter wrapper -/

/-- The same deployment with one more condition for what the wrapper accepts. -/
def Context.gated (ctx : Context) (gate : World → Instruction → Bool) : Context :=
  { ctx with wrapper := ctx.wrapper.gated gate }

/-- A call that goes through with the condition goes through without it. -/
theorem Context.issue_of_gated {ctx : Context} {gate : World → Instruction → Bool} {w w' : World}
    {c : Call} (h : (ctx.gated gate).issue w c = .ok w') : ctx.issue w c = .ok w' := by
  unfold Context.issue at h ⊢
  rw [Context.invokeSigned_eq_ok] at h ⊢
  obtain ⟨hprivileged, hprocess⟩ := h
  refine ⟨hprivileged, ?_⟩
  split at hprocess
  · rename_i hid
    rwa [if_pos hid]
  · rename_i hid
    rw [if_neg hid]
    exact Wrapper.process_of_gated hprocess

end PercolatorStake
