import PercolatorStake.Processor.Insurance

/-!
# Configuration and custody

Everything that moves no collateral: configuration of the pool, rotation of its
admin, the cooldown timelock, the crank that accrues fees, and the instructions
that hand the pool's authority over to the wrapper.
-/

namespace PercolatorStake

open Result Word

/-- The checks of a handler that only the admin may run and that writes the pool. -/
def readAdminPool (ctx : Context) (w : World) (admin poolPda : AccountInfo) :
    Except ProgramError StakePool := do
  requireSigner admin
  validateAccountOwner w poolPda ctx.programId
  validateAccountNotEmpty w poolPda
  validateAccountWritable poolPda
  let pool ← readPool w poolPda
  rejectIf (pool.admin ≠ admin.key) ↑StakeError.unauthorized
  .ok pool

/-! ## UpdateConfig -/

def updateCooldown (pool : StakePool) : Option UInt64 → Except ProgramError StakePool
  | none => .ok pool
  | some cooldown => do
    validateCooldownSlots cooldown
    rejectIf (cooldown > pool.cooldownSlots) ↑StakeError.cooldownIncreaseRequiresTimelock
    .ok { pool with cooldownSlots := cooldown }

def processUpdateConfig (ctx : Context) (w : World) (accounts : List AccountInfo)
    (newCooldownSlots newDepositCap : Option UInt64) : Except ProgramError World := do
  let a ← AdminPoolAccounts.next accounts
  let pool ← readAdminPool ctx w a.admin a.poolPda
  let pool ← updateCooldown pool newCooldownSlots
  let pool := match newDepositCap with
    | none => pool
    | some cap => { pool with depositCap := cap }
  w.store a.poolPda (.pool pool)

/-! ## Admin rotation -/

def processProposeAdmin (ctx : Context) (w : World) (accounts : List AccountInfo)
    (newAdmin : Pubkey) : Except ProgramError World := do
  let a ← AdminPoolAccounts.next accounts
  let pool ← readAdminPool ctx w a.admin a.poolPda
  w.store a.poolPda (.pool { pool with pendingAdmin := newAdmin })

def processAcceptAdmin (ctx : Context) (w : World) (accounts : List AccountInfo) :
    Except ProgramError World := do
  -- the first account is the proposed admin here
  let a ← AdminPoolAccounts.next accounts
  requireSigner a.admin
  validateAccountOwner w a.poolPda ctx.programId
  validateAccountNotEmpty w a.poolPda
  validateAccountWritable a.poolPda
  let pool ← readPool w a.poolPda
  rejectIf (pool.pendingAdmin = Vector.replicate 32 0) ↑StakeError.noPendingAdmin
  rejectIf (pool.pendingAdmin ≠ a.admin.key) ↑StakeError.unauthorized
  w.store a.poolPda
    (.pool { pool with admin := pool.pendingAdmin, pendingAdmin := Vector.replicate 32 0 })

/-! ## Cooldown timelock -/

structure TimelockAccounts where
  admin : AccountInfo
  poolPda : AccountInfo
  clockSysvar : AccountInfo

def TimelockAccounts.next : List AccountInfo → Except ProgramError TimelockAccounts
  | admin :: poolPda :: clockSysvar :: _ => .ok ⟨admin, poolPda, clockSysvar⟩
  | _ => .error .notEnoughAccountKeys

/-- As `readAdminPool`, with the clock read before the pool. -/
def readTimelockPool (ctx : Context) (w : World) (a : TimelockAccounts) :
    Except ProgramError (StakePool × Clock) := do
  requireSigner a.admin
  validateAccountOwner w a.poolPda ctx.programId
  validateAccountNotEmpty w a.poolPda
  validateAccountWritable a.poolPda
  let clock ← readClock w a.clockSysvar
  let pool ← readPool w a.poolPda
  rejectIf (pool.admin ≠ a.admin.key) ↑StakeError.unauthorized
  .ok (pool, clock)

def processProposeCooldownIncrease (ctx : Context) (w : World) (accounts : List AccountInfo)
    (newCooldownSlots : UInt64) : Except ProgramError World := do
  let a ← TimelockAccounts.next accounts
  let (pool, clock) ← readTimelockPool ctx w a
  validateCooldownSlots newCooldownSlots
  rejectIf (newCooldownSlots ≤ pool.cooldownSlots) ↑StakeError.cooldownIncreaseRequiresTimelock
  w.store a.poolPda (.pool { pool with
    pendingCooldownSlots := newCooldownSlots
    cooldownProposedAtSlot := clock.slot })

def processCommitCooldownIncrease (ctx : Context) (w : World) (accounts : List AccountInfo) :
    Except ProgramError World := do
  let a ← TimelockAccounts.next accounts
  let (pool, clock) ← readTimelockPool ctx w a
  let proposedAt := pool.cooldownProposedAtSlot
  rejectIf (proposedAt = 0) ↑StakeError.noPendingCooldownProposal
  let elapsed ← timelockWindowElapsed proposedAt timelockSlots clock.slot
  rejectIf (elapsed = false) ↑StakeError.timelockNotElapsed
  validateCooldownSlots pool.pendingCooldownSlots
  w.store a.poolPda (.pool { pool with
    cooldownSlots := pool.pendingCooldownSlots
    pendingCooldownSlots := 0
    cooldownProposedAtSlot := 0 })

def processCancelCooldownIncrease (ctx : Context) (w : World) (accounts : List AccountInfo) :
    Except ProgramError World := do
  let a ← AdminPoolAccounts.next accounts
  let pool ← readAdminPool ctx w a.admin a.poolPda
  rejectIf (pool.cooldownProposedAtSlot = 0) ↑StakeError.noPendingCooldownProposal
  w.store a.poolPda
    (.pool { pool with pendingCooldownSlots := 0, cooldownProposedAtSlot := 0 })

/-! ## High-water mark and tranches -/

/-- The floor is written only when the mark is switched on. -/
def applyHwmConfig (pool : StakePool) (enabled : Bool) (hwmFloorBps : UInt16) : StakePool :=
  let pool := pool.setHwmEnabled enabled
  if enabled = true then pool.setHwmFloorBps hwmFloorBps else pool

def processAdminSetHwmConfig (ctx : Context) (w : World) (accounts : List AccountInfo)
    (enabled : Bool) (hwmFloorBps : UInt16) : Except ProgramError World := do
  let a ← AdminPoolAccounts.next accounts
  let pool ← readAdminPool ctx w a.admin a.poolPda
  if enabled = true then validateHwmFloorBps hwmFloorBps else .ok ()
  w.store a.poolPda (.pool (applyHwmConfig pool enabled hwmFloorBps))

/-- Tranches are only ever switched on, and the multiplier is fixed while junior
LP exists. -/
def processAdminSetTrancheConfig (ctx : Context) (w : World) (accounts : List AccountInfo)
    (juniorFeeMultBps : UInt16) : Except ProgramError World := do
  let a ← AdminPoolAccounts.next accounts
  let pool ← readAdminPool ctx w a.admin a.poolPda
  rejectIf (¬(10000 ≤ juniorFeeMultBps ∧ juniorFeeMultBps ≤ 50000)) ProgramError.invalidArgument
  rejectIf (pool.juniorTotalLp > 0 ∧ pool.juniorFeeMultBps ≠ juniorFeeMultBps)
    ↑StakeError.unauthorized
  let pool := pool.setTrancheEnabled true
  w.store a.poolPda (.pool (pool.setJuniorFeeMultBps juniorFeeMultBps))

/-! ## AccrueFees -/

structure AccrueAccounts where
  caller : AccountInfo
  pool : AccountInfo
  vault : AccountInfo
  clock : AccountInfo

/-- The caller is checked to sign before the other accounts are taken. -/
def AccrueAccounts.next : List AccountInfo → Except ProgramError AccrueAccounts
  | [] => .error .notEnoughAccountKeys
  | caller :: rest => do
    requireSigner caller
    match rest with
    | pool :: vault :: clock :: _ => .ok ⟨caller, pool, vault, clock⟩
    | _ => .error .notEnoughAccountKeys

def processAccrueFees (ctx : Context) (w : World) (accounts : List AccountInfo) :
    Except ProgramError World := do
  let a ← AccrueAccounts.next accounts
  validateAccountNotEmpty w a.pool
  validateAccountOwner w a.pool ctx.programId
  validateAccountWritable a.pool
  let pool ← readPool w a.pool
  rejectIf (a.pool.key ≠ (ctx.derivation.derivePoolPda ctx.programId pool.slab).1)
    ↑StakeError.invalidPda
  rejectIf (pool.poolMode > 1) ↑StakeError.invalidPoolMode
  rejectIf (a.vault.key ≠ pool.vault) ProgramError.invalidAccountData
  let currentBalance ← vaultBalance w a.vault
  let clock ← readClock w a.clock
  let pool ← accrueFeesInner pool currentBalance
  w.store a.pool (.pool { pool with
    lastFeeAccrualSlot := clock.slot
    lastVaultSnapshot := currentBalance })

/-! ## Custody of the wrapper roles -/

structure AuthorityAccounts where
  admin : AccountInfo
  poolPda : AccountInfo
  vaultAuth : AccountInfo
  slab : AccountInfo
  percolatorProgram : AccountInfo

def AuthorityAccounts.next : List AccountInfo → Except ProgramError AuthorityAccounts
  | admin :: poolPda :: vaultAuth :: slab :: percolatorProgram :: _ =>
    .ok ⟨admin, poolPda, vaultAuth, slab, percolatorProgram⟩
  | _ => .error .notEnoughAccountKeys

/-- The market and the wrapper program must be the pool's own, and the vault
authority the derived one. -/
def bindMarket (ctx : Context) (pool : StakePool)
    (poolPda vaultAuth slab percolatorProgram : AccountInfo) : Except ProgramError UInt8 := do
  rejectIf (pool.slab ≠ slab.key) ↑StakeError.invalidPda
  rejectIf (pool.percolatorProgram ≠ percolatorProgram.key) ↑StakeError.invalidPercolatorProgram
  let (expected, bump) := ctx.derivation.deriveVaultAuthority ctx.programId poolPda.key
  rejectIf (vaultAuth.key ≠ expected) ↑StakeError.invalidPda
  .ok bump

def processBindInsuranceAuthority (ctx : Context) (w : World) (accounts : List AccountInfo) :
    Except ProgramError World := do
  let a ← AuthorityAccounts.next accounts
  requireSigner a.admin
  validateAccountOwner w a.poolPda ctx.programId
  validateAccountNotEmpty w a.poolPda
  let pool ← readPool w a.poolPda
  rejectIf (pool.admin ≠ a.admin.key) ↑StakeError.unauthorized
  let bump ← bindMarket ctx pool a.poolPda a.vaultAuth a.slab a.percolatorProgram
  let seeds := [Derivation.vaultAuthSeeds a.poolPda.key bump]
  let w ← ctx.invokeSigned w
    (Cpi.bindInsuranceAuthority a.percolatorProgram.key a.admin.key a.vaultAuth.key a.slab.key)
    [a.admin, a.vaultAuth, a.slab] seeds
  ctx.invokeSigned w
    (Cpi.bindInsuranceOperator a.percolatorProgram.key a.admin.key a.vaultAuth.key a.slab.key)
    [a.admin, a.vaultAuth, a.slab] seeds

def processBurnAssetAdmin (ctx : Context) (w : World) (accounts : List AccountInfo) :
    Except ProgramError World := do
  let a ← AuthorityAccounts.next accounts
  requireSigner a.admin
  validateAccountWritable a.poolPda
  validateAccountOwner w a.poolPda ctx.programId
  validateAccountNotEmpty w a.poolPda
  let pool ← readPool w a.poolPda
  rejectIf (pool.admin ≠ a.admin.key) ↑StakeError.unauthorized
  rejectIf (pool.assetAdminBurned = true) ↑StakeError.unauthorized
  let _bump ← bindMarket ctx pool a.poolPda a.vaultAuth a.slab a.percolatorProgram
  let w ← ctx.invoke w
    (Cpi.burnAssetAdmin a.percolatorProgram.key a.admin.key a.vaultAuth.key a.slab.key)
    [a.admin, a.vaultAuth, a.slab]
  -- the pool is read again after the invocation
  let pool ← poolFromData (w.data a.poolPda)
  w.store a.poolPda (.pool (pool.setAssetAdminBurned true))

structure RotateAccounts where
  admin : AccountInfo
  poolPda : AccountInfo
  vaultAuth : AccountInfo
  newTarget : AccountInfo
  slab : AccountInfo
  percolatorProgram : AccountInfo

def RotateAccounts.next : List AccountInfo → Except ProgramError RotateAccounts
  | admin :: poolPda :: vaultAuth :: newTarget :: slab :: percolatorProgram :: _ =>
    .ok ⟨admin, poolPda, vaultAuth, newTarget, slab, percolatorProgram⟩
  | _ => .error .notEnoughAccountKeys

/-- Move one of the two insurance roles off the vault authority; `build` is the
instruction that does it. -/
def rotateRole (ctx : Context) (w : World) (accounts : List AccountInfo)
    (build : Pubkey → Pubkey → Pubkey → Pubkey → Instruction) : Except ProgramError World := do
  let a ← RotateAccounts.next accounts
  requireSigner a.admin
  requireSigner a.newTarget
  validateAccountOwner w a.poolPda ctx.programId
  validateAccountNotEmpty w a.poolPda
  let pool ← readPool w a.poolPda
  rejectIf (pool.admin ≠ a.admin.key) ↑StakeError.unauthorized
  rejectIf (pool.assetAdminBurned = true) ↑StakeError.unauthorized
  let bump ← bindMarket ctx pool a.poolPda a.vaultAuth a.slab a.percolatorProgram
  ctx.invokeSigned w
    (build a.percolatorProgram.key a.vaultAuth.key a.newTarget.key a.slab.key)
    [a.vaultAuth, a.newTarget, a.slab]
    [Derivation.vaultAuthSeeds a.poolPda.key bump]

def processRotateInsuranceOperator (ctx : Context) (w : World) (accounts : List AccountInfo) :
    Except ProgramError World :=
  rotateRole ctx w accounts Cpi.rotateInsuranceOperator

def processRotateInsuranceAuthority (ctx : Context) (w : World) (accounts : List AccountInfo) :
    Except ProgramError World :=
  rotateRole ctx w accounts Cpi.rotateInsuranceAuthority

/-! ## Fee policy proxies -/

def validateGroupAProxy (ctx : Context) (w : World)
    (admin poolPda slab percolatorProgram : AccountInfo) : Except ProgramError UInt8 := do
  requireSigner admin
  validateAccountOwner w poolPda ctx.programId
  validateAccountNotEmpty w poolPda
  let pool ← readPool w poolPda
  rejectIf (pool.admin ≠ admin.key) ↑StakeError.unauthorized
  rejectIf (pool.slab ≠ slab.key) ↑StakeError.invalidPda
  rejectIf (pool.percolatorProgram ≠ percolatorProgram.key) ↑StakeError.invalidPercolatorProgram
  .ok pool.bump

def validateGroupBProxy (ctx : Context) (w : World)
    (admin poolPda vaultAuth slab percolatorProgram : AccountInfo) : Except ProgramError UInt8 := do
  let _poolBump ← validateGroupAProxy ctx w admin poolPda slab percolatorProgram
  let (expected, bump) := ctx.derivation.deriveVaultAuthority ctx.programId poolPda.key
  rejectIf (vaultAuth.key ≠ expected) ↑StakeError.invalidPda
  .ok bump

/-- A proxy of group A: the pool address signs the setter. -/
def groupAProxy (ctx : Context) (w : World) (accounts : List AccountInfo)
    (build : Pubkey → Pubkey → Pubkey → Instruction) : Except ProgramError World := do
  let a ← MarketAccounts.next accounts
  let bump ← validateGroupAProxy ctx w a.admin a.poolPda a.slab a.percolatorProgram
  cpiPoolSetter ctx w a (build a.percolatorProgram.key a.poolPda.key a.slab.key) bump

/-- A proxy of group B: the vault authority signs the setter. -/
def groupBProxy (ctx : Context) (w : World) (accounts : List AccountInfo)
    (build : Pubkey → Pubkey → Pubkey → Instruction) : Except ProgramError World := do
  let a ← AuthorityAccounts.next accounts
  let bump ← validateGroupBProxy ctx w a.admin a.poolPda a.vaultAuth a.slab a.percolatorProgram
  ctx.invokeSigned w (build a.percolatorProgram.key a.vaultAuth.key a.slab.key)
    [a.vaultAuth, a.slab] [Derivation.vaultAuthSeeds a.poolPda.key bump]

def processAdminUpdateFeeSplit (ctx : Context) (w : World) (accounts : List AccountInfo)
    (creatorShareBps lpShareBps insuranceShareBps : UInt16) : Except ProgramError World :=
  groupAProxy ctx w accounts fun program poolPda slab =>
    Cpi.updateFeeSplit program poolPda slab creatorShareBps lpShareBps insuranceShareBps

def processAdminUpdateMaintenanceFeePerSlot (ctx : Context) (w : World)
    (accounts : List AccountInfo) (maintenanceFeePerSlot : BitVec 128) :
    Except ProgramError World :=
  groupAProxy ctx w accounts fun program poolPda slab =>
    Cpi.updateMaintenanceFeePerSlot program poolPda slab maintenanceFeePerSlot

def processAdminUpdateBackingFeePolicy (ctx : Context) (w : World) (accounts : List AccountInfo)
    (domain feeBps insuranceShareBps : UInt16) : Except ProgramError World :=
  groupBProxy ctx w accounts fun program vaultAuth slab =>
    Cpi.updateBackingFeePolicy program vaultAuth slab domain feeBps insuranceShareBps

def processAdminUpdateTradeFeePolicy (ctx : Context) (w : World) (accounts : List AccountInfo)
    (tradeFeeBaseBps : UInt64) : Except ProgramError World :=
  groupBProxy ctx w accounts fun program vaultAuth slab =>
    Cpi.updateTradeFeePolicy program vaultAuth slab tradeFeeBaseBps

end PercolatorStake
