import PercolatorStake.Processor.Common

/-!
# Pool creation

A pool is created together with its LP mint and its vault, both under the derived
vault authority, and takes over the market authority of its slab.
-/

namespace PercolatorStake

open Result Word

structure InitAccounts where
  admin : AccountInfo
  slab : AccountInfo
  poolPda : AccountInfo
  lpMint : AccountInfo
  vault : AccountInfo
  vaultAuth : AccountInfo
  collateralMint : AccountInfo
  percolatorProgram : AccountInfo
  tokenProgram : AccountInfo
  systemProgram : AccountInfo
  rentSysvar : AccountInfo

def InitAccounts.next : List AccountInfo → Except ProgramError InitAccounts
  | admin :: slab :: poolPda :: lpMint :: vault :: vaultAuth :: collateralMint ::
      percolatorProgram :: tokenProgram :: systemProgram :: rentSysvar :: _ =>
    .ok ⟨admin, slab, poolPda, lpMint, vault, vaultAuth, collateralMint, percolatorProgram,
      tokenProgram, systemProgram, rentSysvar⟩
  | _ => .error .notEnoughAccountKeys

def validateInit (ctx : Context) (w : World) (a : InitAccounts) (cooldownSlots : UInt64) :
    Except ProgramError Unit := do
  requireSigner a.admin
  rejectIf (a.percolatorProgram.key ≠ percolatorMainnet) ↑StakeError.invalidPercolatorProgram
  validateCooldownSlots cooldownSlots
  rejectIf (a.poolPda.key ≠ (ctx.derivation.derivePoolPda ctx.programId a.slab.key).1)
    ↑StakeError.invalidPda
  rejectIf (w.data a.poolPda ≠ .empty) ↑StakeError.alreadyInitialized
  rejectIf (a.vaultAuth.key ≠ (ctx.derivation.deriveVaultAuthority ctx.programId a.poolPda.key).1)
    ↑StakeError.invalidPda
  rejectIf (a.lpMint.key = a.collateralMint.key) ↑StakeError.invalidMint
  verifyTokenProgram a.tokenProgram
  rejectIf (w.owner a.slab ≠ a.percolatorProgram.key) ↑StakeError.invalidPercolatorProgram
  rejectIf (a.slab.isWritable = false) ProgramError.invalidArgument
  rejectIf (a.rentSysvar.key ≠ rentSysvarId) ProgramError.invalidArgument

/-- The LP mint cannot be frozen, and the vault starts empty. -/
def createTokenAccounts (ctx : Context) (w : World) (a : InitAccounts) :
    Except ProgramError World := do
  rejectIf ((w.data a.collateralMint).len < mintLen) ↑StakeError.invalidAccount
  let decimals ← SplToken.unpackMintDecimals (w.data a.collateralMint)
  let bump := (ctx.derivation.deriveVaultAuthority ctx.programId a.poolPda.key).2
  let seeds := [Derivation.vaultAuthSeeds a.poolPda.key bump]
  let w ← ctx.invokeSigned w
    (SplToken.initializeMint a.lpMint.key a.vaultAuth.key none decimals)
    [a.lpMint, a.rentSysvar] seeds
  ctx.invokeSigned w
    (SplToken.initializeAccount a.vault.key a.collateralMint.key a.vaultAuth.key)
    [a.vault, a.collateralMint, a.vaultAuth, a.rentSysvar] seeds

def initialPool (ctx : Context) (a : InitAccounts) (pool : StakePool)
    (cooldownSlots depositCap : UInt64) : StakePool :=
  { pool with
    isInitialized := 1
    bump := (ctx.derivation.derivePoolPda ctx.programId a.slab.key).2
    vaultAuthorityBump := (ctx.derivation.deriveVaultAuthority ctx.programId a.poolPda.key).2
    adminTransferred := 0
    slab := a.slab.key
    admin := a.admin.key
    collateralMint := a.collateralMint.key
    lpMint := a.lpMint.key
    vault := a.vault.key
    totalDeposited := 0
    totalLpSupply := 0
    cooldownSlots := cooldownSlots
    depositCap := depositCap
    totalFlushed := 0
    totalReturned := 0
    totalWithdrawn := 0
    percolatorProgram := a.percolatorProgram.key
    totalFeesEarned := 0
    lastFeeAccrualSlot := 0
    lastVaultSnapshot := 0
    poolMode := 0
    pendingAdmin := Vector.replicate 32 0 }.setDiscriminator

def processInitPool (ctx : Context) (w : World) (accounts : List AccountInfo)
    (cooldownSlots depositCap : UInt64) : Except ProgramError World := do
  let a ← InitAccounts.next accounts
  validateInit ctx w a cooldownSlots
  let poolSeeds := Derivation.poolSeeds a.slab.key
    (ctx.derivation.derivePoolPda ctx.programId a.slab.key).2
  let w ← ctx.createOrAdoptPda w accounts a.poolPda a.admin (.pool StakePool.zeroed) poolSeeds
  let w ← ctx.invokeSigned w
    (Cpi.updateAuthority a.percolatorProgram.key a.admin.key a.poolPda.key a.slab.key)
    [a.admin, a.poolPda, a.slab] [poolSeeds]
  let w ← createTokenAccounts ctx w a
  let pool ← poolFromData (w.data a.poolPda)
  w.store a.poolPda (.pool (initialPool ctx a pool cooldownSlots depositCap))

def processInitTradingPool (ctx : Context) (w : World) (accounts : List AccountInfo)
    (cooldownSlots depositCap : UInt64) : Except ProgramError World := do
  let w ← processInitPool ctx w accounts cooldownSlots depositCap
  let a ← InitAccounts.next accounts
  validateAccountOwner w a.poolPda ctx.programId
  let pool ← poolFromData (w.data a.poolPda)
  rejectIf (pool.validateDiscriminator = false) ↑StakeError.invalidAccount
  w.store a.poolPda (.pool { pool with poolMode := 1 })

end PercolatorStake
