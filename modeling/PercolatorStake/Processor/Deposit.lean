import PercolatorStake.Processor.Common

/-!
# Deposits

Both deposit instructions take the same accounts and go through the same stages:
validate, accrue, gate, price, collect, book, record.  They differ in the gate, in
the sub-pool they price against, in the books and in the tranche flag of the
record.
-/

namespace PercolatorStake

open Result Word

structure DepositAccounts where
  user : AccountInfo
  poolPda : AccountInfo
  userAta : AccountInfo
  vault : AccountInfo
  lpMint : AccountInfo
  userLpAta : AccountInfo
  vaultAuth : AccountInfo
  depositPda : AccountInfo
  tokenProgram : AccountInfo
  clockSysvar : AccountInfo
  systemProgram : AccountInfo

def DepositAccounts.next : List AccountInfo → Except ProgramError DepositAccounts
  | user :: poolPda :: userAta :: vault :: lpMint :: userLpAta :: vaultAuth :: depositPda ::
      tokenProgram :: clockSysvar :: systemProgram :: _ =>
    .ok ⟨user, poolPda, userAta, vault, lpMint, userLpAta, vaultAuth, depositPda, tokenProgram,
      clockSysvar, systemProgram⟩
  | _ => .error .notEnoughAccountKeys

/-! ## Shared stages -/

/-- The cap is on principal, so that fees do not lock depositors out. -/
def checkDepositCap (pool : StakePool) (amount : UInt64) : Except ProgramError Unit := do
  if pool.depositCap > 0 then do
    let currentValue ← okOr pool.principalTvl ↑StakeError.overflow
    let newValue ← okOr (checkedAdd currentValue amount) ↑StakeError.overflow
    rejectIf (newValue > pool.depositCap) ↑StakeError.depositCapExceeded
  else .ok ()

/-- What comes before the pricing of either deposit: the pool, the vault and the
mints belong together, the market is live, the cap holds, and the depositor owns
both token accounts. -/
def validateDeposit (ctx : Context) (w : World) (a : DepositAccounts) (pool : StakePool)
    (amount : UInt64) (mintError : StakeError) : Except ProgramError Unit := do
  rejectIf (pool.lpMint ≠ a.lpMint.key) ↑StakeError.invalidMint
  rejectIf (pool.vault ≠ a.vault.key) ↑StakeError.invalidPda
  rejectIf (pool.marketResolved = true) ↑StakeError.marketResolved
  rejectIf (a.vaultAuth.key ≠ (ctx.derivation.deriveVaultAuthority ctx.programId a.poolPda.key).1)
    ↑StakeError.invalidAccount
  checkDepositCap pool amount
  verifyTokenProgram a.tokenProgram
  validateTokenAccount w a.userAta pool.collateralMint a.user.key mintError
  validateLpRecipientAccount w a.userLpAta pool.lpMint a.user.key

/-- Collateral in, LP out. -/
def collectDeposit (ctx : Context) (w : World) (a : DepositAccounts)
    (amount mintAmount : UInt64) : Except ProgramError World := do
  let w ← ctx.invoke w
    (SplToken.transfer a.userAta.key a.vault.key a.user.key amount)
    [a.userAta, a.vault, a.user, a.tokenProgram]
  let bump := (ctx.derivation.deriveVaultAuthority ctx.programId a.poolPda.key).2
  ctx.invokeSigned w
    (SplToken.mintTo a.lpMint.key a.userLpAta.key a.vaultAuth.key mintAmount)
    [a.lpMint, a.userLpAta, a.vaultAuth, a.tokenProgram]
    [Derivation.vaultAuthSeeds a.poolPda.key bump]

def bookDeposit (pool : StakePool) (amount lpToMint : UInt64) :
    Except ProgramError StakePool := do
  let deposited ← okOr (checkedAdd pool.totalDeposited amount) ↑StakeError.overflow
  let supply ← okOr (checkedAdd pool.totalLpSupply lpToMint) ↑StakeError.overflow
  .ok { pool with totalDeposited := deposited, totalLpSupply := supply }

/-- Raise the high-water mark to the value after the deposit. -/
def refreshHwmAfterDeposit (pool : StakePool) (clock : Clock) : Except ProgramError StakePool := do
  if pool.hwmEnabled = true then do
    let currentTvl ← okOr pool.totalPoolValue ↑StakeError.overflow
    .ok (pool.refreshHwm clock.epoch currentTvl).1
  else .ok pool

/-- The depositor's record at its derived address, created there if the address is
still empty, with a discriminator either fresh or checked. -/
def openRecord (ctx : Context) (w : World) (accounts : List AccountInfo) (a : DepositAccounts) :
    Except ProgramError (World × StakeDeposit) := do
  let (expected, bump) :=
    ctx.derivation.deriveDepositPda ctx.programId a.poolPda.key a.user.key
  rejectIf (a.depositPda.key ≠ expected) ↑StakeError.invalidPda
  rejectIf (w.data a.depositPda ≠ .empty ∧ w.owner a.depositPda ≠ ctx.programId)
    ↑StakeError.invalidAccount
  let w ←
    if w.data a.depositPda = .empty then
      ctx.createOrAdoptPda w accounts a.depositPda a.user (.deposit StakeDeposit.zeroed)
        [Derivation.stakeDepositSeed, a.poolPda.key.toList, a.user.key.toList, [bump]]
    else .ok w
  let deposit ← depositFromData (w.data a.depositPda)
  if deposit.isInitialized ≠ 1 then .ok (w, deposit.setDiscriminator)
  else do
    rejectIf (deposit.validateDiscriminator = false) ↑StakeError.invalidAccount
    .ok (w, deposit)

/-- Credit the record.  Every deposit restarts the cooldown of the whole
position. -/
def creditRecord (ctx : Context) (a : DepositAccounts) (deposit : StakeDeposit) (clock : Clock)
    (lpToMint : UInt64) : Except ProgramError StakeDeposit := do
  let lpAmount ← okOr (checkedAdd deposit.lpAmount lpToMint) ↑StakeError.overflow
  .ok { deposit with
    isInitialized := 1
    bump := (ctx.derivation.deriveDepositPda ctx.programId a.poolPda.key a.user.key).2
    pool := a.poolPda.key
    user := a.user.key
    lastDepositSlot := clock.slot
    lpAmount := lpAmount }

/-! ## Deposit -/

/-- Senior deposits are closed while a loss has spilled past the junior balance. -/
def seniorDepositGate (pool : StakePool) : Except ProgramError Unit :=
  rejectIf (pool.trancheEnabled = true ∧
    saturatingSub pool.totalFlushed pool.totalReturned > pool.juniorBalance)
    ↑StakeError.insuranceLossOutstanding

/-- LP for a deposit: priced against the senior sub-pool once tranches are on. -/
def priceDeposit (pool : StakePool) (amount : UInt64) : Except ProgramError UInt64 := do
  if pool.trancheEnabled = true then do
    let seniorBal ← okOr pool.seniorBalance ↑StakeError.overflow
    okOr (Math.calcSeniorLpForDeposit pool.seniorTotalLp seniorBal amount) ↑StakeError.overflow
  else okOr (pool.calcLpForDeposit amount) ↑StakeError.overflow

def recordDeposit (ctx : Context) (w : World) (accounts : List AccountInfo) (a : DepositAccounts)
    (clock : Clock) (lpToMint : UInt64) : Except ProgramError World := do
  let (w, deposit) ← openRecord ctx w accounts a
  rejectIf (deposit.isJuniorDeposit = true) ↑StakeError.wrongTranche
  let deposit ← creditRecord ctx a deposit clock lpToMint
  w.store a.depositPda (.deposit deposit)

def processDeposit (ctx : Context) (w : World) (accounts : List AccountInfo) (amount : UInt64) :
    Except ProgramError World := do
  rejectIf (amount = 0) ↑StakeError.zeroAmount
  let a ← DepositAccounts.next accounts
  requireSigner a.user
  validateAccountNotEmpty w a.poolPda
  validateAccountOwner w a.poolPda ctx.programId
  validateAccountWritable a.poolPda
  let pool ← readPool w a.poolPda
  validateDeposit ctx w a pool amount .invalidMint
  let pool ← preAccrueFeeModes w pool a.vault
  seniorDepositGate pool
  let lpToMint ← priceDeposit pool amount
  rejectIf (lpToMint = 0) ↑StakeError.zeroSharesMinted
  let mintAmount ← applyMinimumLiquidityLock pool.totalLpSupply lpToMint
  let w ← collectDeposit ctx w a amount mintAmount
  let pool ← bookDeposit pool amount lpToMint
  let clock ← readClock w a.clockSysvar
  let pool ← refreshHwmAfterDeposit pool clock
  let w ← recordDeposit ctx w accounts a clock lpToMint
  w.store a.poolPda (.pool pool)

/-! ## DepositJunior -/

/-- Junior deposits are closed while any flushed token has not physically come
back; loss settled on paper does not count as returned. -/
def juniorDepositGate (pool : StakePool) : Except ProgramError Unit :=
  let physicalNetLoss := saturatingSub pool.totalFlushed
    (saturatingSub pool.totalReturned pool.realizedJuniorLoss)
  rejectIf (physicalNetLoss > 0) ↑StakeError.insuranceLossOutstanding

def priceDepositJunior (pool : StakePool) (amount : UInt64) : Except ProgramError UInt64 :=
  okOr (Math.calcJuniorLpForDeposit pool.juniorTotalLp pool.effectiveJuniorBalance amount)
    ↑StakeError.overflow

def bookDepositJunior (pool : StakePool) (amount lpToMint : UInt64) :
    Except ProgramError StakePool := do
  let pool ← bookDeposit pool amount lpToMint
  let juniorTotalLp ← okOr (checkedAdd pool.juniorTotalLp lpToMint) ↑StakeError.overflow
  let pool := pool.setJuniorTotalLp juniorTotalLp
  let juniorBalance ← okOr (checkedAdd pool.juniorBalance amount) ↑StakeError.overflow
  .ok (pool.setJuniorBalance juniorBalance)

def recordDepositJunior (ctx : Context) (w : World) (accounts : List AccountInfo)
    (a : DepositAccounts) (clock : Clock) (lpToMint : UInt64) : Except ProgramError World := do
  let (w, deposit) ← openRecord ctx w accounts a
  rejectIf (deposit.isJuniorDeposit = false ∧ deposit.isInitialized = 1) ↑StakeError.wrongTranche
  let deposit ← creditRecord ctx a (deposit.setJuniorDeposit true) clock lpToMint
  w.store a.depositPda (.deposit deposit)

def processDepositJunior (ctx : Context) (w : World) (accounts : List AccountInfo)
    (amount : UInt64) : Except ProgramError World := do
  rejectIf (amount = 0) ↑StakeError.zeroAmount
  let a ← DepositAccounts.next accounts
  requireSigner a.user
  validateAccountNotEmpty w a.poolPda
  validateAccountOwner w a.poolPda ctx.programId
  validateAccountWritable a.poolPda
  let pool ← readPool w a.poolPda
  rejectIf (pool.trancheEnabled = false) ↑StakeError.trancheNotEnabled
  -- here a wrong mint is reported as an invalid account
  validateDeposit ctx w a pool amount .invalidAccount
  let pool ← preAccrueFeeModes w pool a.vault
  juniorDepositGate pool
  let lpToMint ← priceDepositJunior pool amount
  rejectIf (lpToMint = 0) ↑StakeError.zeroSharesMinted
  let mintAmount ← applyMinimumLiquidityLock pool.totalLpSupply lpToMint
  let w ← collectDeposit ctx w a amount mintAmount
  let pool ← bookDepositJunior pool amount lpToMint
  let clock ← readClock w a.clockSysvar
  let pool ← refreshHwmAfterDeposit pool clock
  let w ← recordDepositJunior ctx w accounts a clock lpToMint
  w.store a.poolPda (.pool pool)

end PercolatorStake
