import PercolatorStake.Processor.Common

/-!
# Insurance flows and resolution

Collateral leaves for the wrapper's insurance fund with a flush.  It comes back
through two channels, the admin's own wallet and the wrapper itself, each with a
cap of its own.  A market is resolved only once nothing is left to recover from
the wrapper.
-/

namespace PercolatorStake

open Result Word

/-! ## FlushToInsurance -/

structure FlushAccounts where
  caller : AccountInfo
  poolPda : AccountInfo
  vault : AccountInfo
  vaultAuth : AccountInfo
  slab : AccountInfo
  wrapperVault : AccountInfo
  percolatorProgram : AccountInfo
  tokenProgram : AccountInfo

def FlushAccounts.next : List AccountInfo → Except ProgramError FlushAccounts
  | caller :: poolPda :: vault :: vaultAuth :: slab :: wrapperVault :: percolatorProgram ::
      tokenProgram :: _ =>
    .ok ⟨caller, poolPda, vault, vaultAuth, slab, wrapperVault, percolatorProgram, tokenProgram⟩
  | _ => .error .notEnoughAccountKeys

def cpiTopUpInsurance (ctx : Context) (w : World) (a : FlushAccounts) (amount : UInt64)
    (bump : UInt8) : Except ProgramError World :=
  ctx.invokeSigned w
    (Cpi.topUpInsurance a.percolatorProgram.key a.vaultAuth.key a.slab.key a.vault.key
      a.wrapperVault.key a.tokenProgram.key amount)
    [a.vaultAuth, a.slab, a.vault, a.wrapperVault, a.tokenProgram]
    [Derivation.vaultAuthSeeds a.poolPda.key bump]

/-- A flush is a realized loss, so the high-water mark drops with it. -/
def bookFlush (pool : StakePool) (amount : UInt64) : Except ProgramError StakePool := do
  let flushed ← okOr (checkedAdd pool.totalFlushed amount) ↑StakeError.overflow
  let pool := { pool with totalFlushed := flushed }
  .ok (pool.setEpochHighWaterTvl (saturatingSub pool.epochHighWaterTvl amount))

def processFlushToInsurance (ctx : Context) (w : World) (accounts : List AccountInfo)
    (amount : UInt64) : Except ProgramError World := do
  rejectIf (amount = 0) ↑StakeError.zeroAmount
  let a ← FlushAccounts.next accounts
  requireSigner a.caller
  validateAccountOwner w a.poolPda ctx.programId
  validateAccountNotEmpty w a.poolPda
  validateAccountWritable a.poolPda
  verifyTokenProgram a.tokenProgram
  let pool ← readPool w a.poolPda
  rejectIf (pool.admin ≠ a.caller.key) ↑StakeError.unauthorized
  rejectIf (pool.slab ≠ a.slab.key) ↑StakeError.invalidPda
  rejectIf (pool.vault ≠ a.vault.key) ↑StakeError.invalidPda
  rejectIf (pool.percolatorProgram ≠ a.percolatorProgram.key) ↑StakeError.invalidPercolatorProgram
  rejectIf (pool.poolMode ≠ 0) ↑StakeError.invalidPoolMode
  rejectIf (pool.marketResolved = true) ↑StakeError.marketResolved
  validateTokenMint w a.wrapperVault pool.collateralMint .invalidMint
  let available ← okOr pool.totalPoolValue ↑StakeError.overflow
  rejectIf (amount > available) ↑StakeError.insufficientVaultBalance
  let (expected, bump) := ctx.derivation.deriveVaultAuthority ctx.programId a.poolPda.key
  rejectIf (a.vaultAuth.key ≠ expected) ↑StakeError.invalidPda
  let w ← cpiTopUpInsurance ctx w a amount bump
  let pool ← bookFlush pool amount
  w.store a.poolPda (.pool pool)

/-! ## ReturnInsurance -/

structure ReturnAccounts where
  admin : AccountInfo
  poolPda : AccountInfo
  adminAta : AccountInfo
  vault : AccountInfo
  tokenProgram : AccountInfo

def ReturnAccounts.next : List AccountInfo → Except ProgramError ReturnAccounts
  | admin :: poolPda :: adminAta :: vault :: tokenProgram :: _ =>
    .ok ⟨admin, poolPda, adminAta, vault, tokenProgram⟩
  | _ => .error .notEnoughAccountKeys

def bookReturn (pool : StakePool) (amount : UInt64) : Except ProgramError StakePool := do
  let returned ← okOr (checkedAdd pool.totalReturned amount) ↑StakeError.overflow
  .ok { pool with totalReturned := returned }

def processReturnInsurance (ctx : Context) (w : World) (accounts : List AccountInfo)
    (amount : UInt64) : Except ProgramError World := do
  rejectIf (amount = 0) ↑StakeError.zeroAmount
  let a ← ReturnAccounts.next accounts
  requireSigner a.admin
  verifyTokenProgram a.tokenProgram
  validateAccountOwner w a.poolPda ctx.programId
  validateAccountNotEmpty w a.poolPda
  validateAccountWritable a.poolPda
  validateAccountWritable a.vault
  let pool ← readPool w a.poolPda
  rejectIf (pool.admin ≠ a.admin.key) ↑StakeError.unauthorized
  rejectIf (pool.vault ≠ a.vault.key) ↑StakeError.invalidPda
  rejectIf (w.owner a.vault ≠ splTokenId) ProgramError.illegalOwner
  let outstanding := saturatingSub pool.totalFlushed pool.totalReturned
  rejectIf (amount > outstanding) ProgramError.invalidArgument
  validateTokenAccount w a.adminAta pool.collateralMint a.admin.key .invalidMint
  let w ← ctx.invoke w (SplToken.transfer a.adminAta.key a.vault.key a.admin.key amount)
    [a.adminAta, a.vault, a.admin]
  let pool ← bookReturn pool amount
  w.store a.poolPda (.pool pool)

/-! ## RecoverFlushedInsurance -/

structure RecoverAccounts where
  caller : AccountInfo
  poolPda : AccountInfo
  vault : AccountInfo
  vaultAuth : AccountInfo
  market : AccountInfo
  wrapperVault : AccountInfo
  wrapperVaultAuth : AccountInfo
  tokenProgram : AccountInfo
  percolatorProgram : AccountInfo

def RecoverAccounts.next : List AccountInfo → Except ProgramError RecoverAccounts
  | caller :: poolPda :: vault :: vaultAuth :: market :: wrapperVault :: wrapperVaultAuth ::
      tokenProgram :: percolatorProgram :: _ =>
    .ok ⟨caller, poolPda, vault, vaultAuth, market, wrapperVault, wrapperVaultAuth, tokenProgram,
      percolatorProgram⟩
  | _ => .error .notEnoughAccountKeys

def cpiWithdrawInsuranceAsset (ctx : Context) (w : World) (a : RecoverAccounts) (amount : UInt64)
    (bump : UInt8) : Except ProgramError World :=
  ctx.invokeSigned w
    (Cpi.withdrawInsuranceAsset a.percolatorProgram.key a.vaultAuth.key a.market.key a.vault.key
      a.wrapperVault.key a.wrapperVaultAuth.key a.tokenProgram.key amount)
    [a.vaultAuth, a.market, a.vault, a.wrapperVault, a.wrapperVaultAuth, a.tokenProgram]
    [Derivation.vaultAuthSeeds a.poolPda.key bump]

def bookRecover (pool : StakePool) (amount : UInt64) : Except ProgramError StakePool := do
  let returned ← okOr (checkedAdd pool.totalReturned amount) ↑StakeError.overflow
  let recovered ← okOr (checkedAdd pool.totalRecoveredFromWrapper amount) ↑StakeError.overflow
  .ok { pool with totalReturned := returned, totalRecoveredFromWrapper := recovered }

/-- The cap of a recovery: what is still recoverable from the wrapper. -/
def checkRecoverCap (pool : StakePool) (amount : UInt64) : Except ProgramError Unit := do
  let outstanding := pool.wrapperRecoverable
  rejectIf (outstanding = 0) ↑StakeError.insufficientVaultBalance
  rejectIf (widen amount > widen outstanding) ↑StakeError.insufficientVaultBalance

-- permissionless: the caller need not sign, and the market is not compared with the pool's slab
def processRecoverFlushedInsurance (ctx : Context) (w : World) (accounts : List AccountInfo)
    (amount : UInt64) : Except ProgramError World := do
  let a ← RecoverAccounts.next accounts
  verifyTokenProgram a.tokenProgram
  validateAccountOwner w a.poolPda ctx.programId
  validateAccountNotEmpty w a.poolPda
  validateAccountWritable a.poolPda
  let pool ← readPool w a.poolPda
  rejectIf (pool.poolMode ≠ 0) ↑StakeError.invalidPoolMode
  rejectIf (amount = 0) ↑StakeError.zeroAmount
  checkRecoverCap pool amount
  rejectIf (pool.percolatorProgram ≠ a.percolatorProgram.key) ↑StakeError.invalidPercolatorProgram
  rejectIf (pool.vault ≠ a.vault.key) ↑StakeError.invalidPda
  let (expected, bump) := ctx.derivation.deriveVaultAuthority ctx.programId a.poolPda.key
  rejectIf (a.vaultAuth.key ≠ expected) ↑StakeError.invalidPda
  let w ← cpiWithdrawInsuranceAsset ctx w a amount bump
  let pool ← bookRecover pool amount
  w.store a.poolPda (.pool pool)

/-! ## Resolution -/

structure AdminPoolAccounts where
  admin : AccountInfo
  poolPda : AccountInfo

def AdminPoolAccounts.next : List AccountInfo → Except ProgramError AdminPoolAccounts
  | admin :: poolPda :: _ => .ok ⟨admin, poolPda⟩
  | _ => .error .notEnoughAccountKeys

/-- The gate both resolutions share. -/
def resolveGate (pool : StakePool) : Except ProgramError Unit :=
  rejectIf (pool.wrapperFullyRecovered = false) ↑StakeError.insuranceLossOutstanding

def processSetMarketResolved (ctx : Context) (w : World) (accounts : List AccountInfo) :
    Except ProgramError World := do
  let a ← AdminPoolAccounts.next accounts
  requireSigner a.admin
  validateAccountOwner w a.poolPda ctx.programId
  validateAccountNotEmpty w a.poolPda
  validateAccountWritable a.poolPda
  let pool ← readPool w a.poolPda
  rejectIf (pool.admin ≠ a.admin.key) ↑StakeError.unauthorized
  rejectIf (pool.marketResolved = true) ↑StakeError.marketResolved
  resolveGate pool
  w.store a.poolPda (.pool (pool.setMarketResolved true))

structure MarketAccounts where
  admin : AccountInfo
  poolPda : AccountInfo
  slab : AccountInfo
  percolatorProgram : AccountInfo

def MarketAccounts.next : List AccountInfo → Except ProgramError MarketAccounts
  | admin :: poolPda :: slab :: percolatorProgram :: _ =>
    .ok ⟨admin, poolPda, slab, percolatorProgram⟩
  | _ => .error .notEnoughAccountKeys

/-- Send one of the setters that the pool address signs for. -/
def cpiPoolSetter (ctx : Context) (w : World) (a : MarketAccounts) (ix : Instruction)
    (bump : UInt8) : Except ProgramError World :=
  ctx.invokeSigned w ix [a.poolPda, a.slab] [Derivation.poolSeeds a.slab.key bump]

-- the stake-side flag is not touched here: that is what `SetMarketResolved` is for
def processAdminResolveMarket (ctx : Context) (w : World) (accounts : List AccountInfo) :
    Except ProgramError World := do
  let a ← MarketAccounts.next accounts
  requireSigner a.admin
  validateAccountOwner w a.poolPda ctx.programId
  validateAccountNotEmpty w a.poolPda
  let pool ← readPool w a.poolPda
  rejectIf (pool.admin ≠ a.admin.key) ↑StakeError.unauthorized
  rejectIf (pool.slab ≠ a.slab.key) ↑StakeError.invalidPda
  rejectIf (pool.percolatorProgram ≠ a.percolatorProgram.key) ↑StakeError.invalidPercolatorProgram
  resolveGate pool
  cpiPoolSetter ctx w a (Cpi.resolveMarket a.percolatorProgram.key a.poolPda.key a.slab.key)
    pool.bump

end PercolatorStake
