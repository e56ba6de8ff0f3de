import PercolatorStake.Processor.Common

/-!
# Withdrawals

LP is burned against the record of the depositor and paid out at the price of the
sub-pool the record belongs to.  The exit of the last junior settles the loss it
leaves behind.
-/

namespace PercolatorStake

open Result Word

structure WithdrawAccounts where
  user : AccountInfo
  poolPda : AccountInfo
  userLpAta : AccountInfo
  lpMint : AccountInfo
  vault : AccountInfo
  userAta : AccountInfo
  vaultAuth : AccountInfo
  depositPda : AccountInfo
  tokenProgram : AccountInfo
  clockSysvar : AccountInfo

def WithdrawAccounts.next : List AccountInfo → Except ProgramError WithdrawAccounts
  | user :: poolPda :: userLpAta :: lpMint :: vault :: userAta :: vaultAuth :: depositPda ::
      tokenProgram :: clockSysvar :: _ =>
    .ok ⟨user, poolPda, userLpAta, lpMint, vault, userAta, vaultAuth, depositPda, tokenProgram,
      clockSysvar⟩
  | _ => .error .notEnoughAccountKeys

def validateWithdraw (ctx : Context) (w : World) (a : WithdrawAccounts) (pool : StakePool) :
    Except ProgramError Unit := do
  rejectIf (pool.lpMint ≠ a.lpMint.key) ↑StakeError.invalidMint
  rejectIf (pool.vault ≠ a.vault.key) ↑StakeError.invalidPda
  verifyTokenProgram a.tokenProgram
  -- the LP account is read without asking which program owns it
  let (lpMintBytes, lpOwnerBytes) ← SplToken.header (w.data a.userLpAta)
  rejectIf (lpMintBytes ≠ pool.lpMint.toList) ↑StakeError.invalidMint
  rejectIf (lpOwnerBytes ≠ a.user.key.toList) ↑StakeError.unauthorized
  rejectIf (a.userAta.key = a.vault.key) ↑StakeError.invalidAccount
  validateTokenMint w a.userAta pool.collateralMint .invalidMint
  rejectIf (a.vaultAuth.key ≠ (ctx.derivation.deriveVaultAuthority ctx.programId a.poolPda.key).1)
    ↑StakeError.invalidAccount
  rejectIf (a.depositPda.key ≠
    (ctx.derivation.deriveDepositPda ctx.programId a.poolPda.key a.user.key).1)
    ↑StakeError.invalidPda
  rejectIf (w.owner a.depositPda ≠ ctx.programId) ↑StakeError.invalidAccount
  rejectIf ((w.data a.depositPda).len < stakeDepositSize) ↑StakeError.invalidAccount
  validateAccountWritable a.depositPda

/-- The record must be the caller's, cooled down and large enough. -/
def checkRecord (w : World) (a : WithdrawAccounts) (pool : StakePool) (clock : Clock)
    (lpAmount : UInt64) : Except ProgramError StakeDeposit := do
  let deposit ← depositFromData (w.data a.depositPda)
  rejectIf (deposit.validateDiscriminator = false) ↑StakeError.invalidAccount
  rejectIf (deposit.isInitialized ≠ 1 ∨ deposit.user ≠ a.user.key ∨
    deposit.pool ≠ a.poolPda.key) ↑StakeError.unauthorized
  rejectIf (clock.slot < saturatingAdd deposit.lastDepositSlot pool.cooldownSlots)
    ↑StakeError.cooldownNotElapsed
  rejectIf (lpAmount > deposit.lpAmount) ↑StakeError.insufficientLpTokens
  .ok deposit

/-- Collateral for the LP, from the sub-pool the record belongs to. -/
def priceWithdraw (pool : StakePool) (isJunior : Bool) (lpAmount : UInt64) :
    Except ProgramError UInt64 := do
  if pool.trancheEnabled = true ∧ isJunior = true then
    okOr (Math.calcJuniorCollateralForWithdraw pool.juniorTotalLp pool.effectiveJuniorBalance
      lpAmount) ↑StakeError.overflow
  else if pool.trancheEnabled = true then do
    let seniorBal ← okOr pool.seniorBalance ↑StakeError.overflow
    okOr (Math.calcSeniorCollateralForWithdraw pool.seniorTotalLp seniorBal lpAmount)
      ↑StakeError.overflow
  else okOr (pool.calcCollateralForWithdraw lpAmount) ↑StakeError.overflow

def fullyWipedJuniorExit (pool : StakePool) (isJunior : Bool) (withdrawalAmount : UInt64) : Bool :=
  pool.trancheEnabled && isJunior && pool.effectiveJuniorBalance == 0 && withdrawalAmount == 0

/-- Hold the value after the payout above the high-water-mark floor. -/
def enforceHwmFloor (pool : StakePool) (clock : Clock) (withdrawalAmount : UInt64) :
    Except ProgramError StakePool := do
  let currentTvl ← okOr pool.totalPoolValue ↑StakeError.overflow
  let (pool, hwm) := pool.refreshHwm clock.epoch currentTvl
  let postTvl ← okOr (checkedSub currentTvl withdrawalAmount) ↑StakeError.overflow
  rejectIf (Math.hwmWithdrawalAllowed postTvl hwm pool.hwmFloorBps = false)
    ↑StakeError.withdrawalBelowHwmFloor
  .ok pool

/-- LP burned, collateral out.  The stored bump must still be the derived one. -/
def payOut (ctx : Context) (w : World) (a : WithdrawAccounts) (pool : StakePool)
    (lpAmount withdrawalAmount : UInt64) : Except ProgramError World := do
  let w ← ctx.invoke w
    (SplToken.burn a.userLpAta.key a.lpMint.key a.user.key lpAmount)
    [a.userLpAta, a.lpMint, a.user, a.tokenProgram]
  rejectIf (pool.vaultAuthorityBump ≠
    (ctx.derivation.deriveVaultAuthority ctx.programId a.poolPda.key).2) ↑StakeError.invalidPda
  if withdrawalAmount > 0 then
    ctx.invokeSigned w
      (SplToken.transfer a.vault.key a.userAta.key a.vaultAuth.key withdrawalAmount)
      [a.vault, a.userAta, a.vaultAuth, a.tokenProgram]
      [Derivation.vaultAuthSeeds a.poolPda.key pool.vaultAuthorityBump]
  else .ok w

/-- Settle the loss the exiting junior tranche absorbed: it counts as returned,
and as realized, which takes it out of the pool value again. -/
def settleForfeitedLoss (pool : StakePool) : Except ProgramError StakePool := do
  let netLoss := saturatingSub pool.totalFlushed pool.totalReturned
  if netLoss > 0 then do
    let forfeited := saturatingSub pool.juniorBalance pool.effectiveJuniorBalance
    let forfeited := lesser forfeited netLoss
    if forfeited > 0 then do
      let returned ← okOr (checkedAdd pool.totalReturned forfeited) ↑StakeError.overflow
      let pool := { pool with totalReturned := returned }
      let realized ← okOr (checkedAdd pool.realizedJuniorLoss forfeited) ↑StakeError.overflow
      .ok (pool.setRealizedJuniorLoss realized)
    else .ok pool
  else .ok pool

/-- The junior half of the books.  The last junior leaves nothing behind. -/
def bookJuniorWithdraw (pool : StakePool) (lpAmount withdrawalAmount : UInt64) :
    Except ProgramError StakePool := do
  let newJuniorLp ← okOr (checkedSub pool.juniorTotalLp lpAmount) ↑StakeError.overflow
  let pool := pool.setJuniorTotalLp newJuniorLp
  if newJuniorLp = 0 then do
    let pool ← settleForfeitedLoss pool
    .ok (pool.setJuniorBalance 0)
  else do
    let juniorBalance ← okOr (checkedSub pool.juniorBalance withdrawalAmount) ↑StakeError.overflow
    .ok (pool.setJuniorBalance juniorBalance)

def bookWithdraw (pool : StakePool) (isJunior : Bool) (lpAmount withdrawalAmount : UInt64) :
    Except ProgramError StakePool := do
  let withdrawn ← okOr (checkedAdd pool.totalWithdrawn withdrawalAmount) ↑StakeError.overflow
  let pool := { pool with totalWithdrawn := withdrawn }
  let supply ← okOr (checkedSub pool.totalLpSupply lpAmount) ↑StakeError.overflow
  let pool := { pool with totalLpSupply := supply }
  if pool.trancheEnabled = true ∧ isJunior = true then
    bookJuniorWithdraw pool lpAmount withdrawalAmount
  else .ok pool

/-- A record that is empty again can serve either tranche next. -/
def debitRecord (deposit : StakeDeposit) (lpAmount : UInt64) :
    Except ProgramError StakeDeposit := do
  let remaining ← okOr (checkedSub deposit.lpAmount lpAmount) ↑StakeError.insufficientLpTokens
  let deposit := { deposit with lpAmount := remaining }
  if remaining = 0 then .ok ({ deposit with isInitialized := 0 }.setJuniorDeposit false)
  else .ok deposit

def processWithdraw (ctx : Context) (w : World) (accounts : List AccountInfo)
    (lpAmount : UInt64) : Except ProgramError World := do
  rejectIf (lpAmount = 0) ↑StakeError.zeroAmount
  let a ← WithdrawAccounts.next accounts
  requireSigner a.user
  validateAccountNotEmpty w a.poolPda
  validateAccountOwner w a.poolPda ctx.programId
  validateAccountWritable a.poolPda
  let pool ← readPool w a.poolPda
  validateWithdraw ctx w a pool
  let clock ← readClock w a.clockSysvar
  let deposit ← checkRecord w a pool clock lpAmount
  let isJunior := deposit.isJuniorDeposit
  let pool ← preAccrueFeeModes w pool a.vault
  let withdrawalAmount ← priceWithdraw pool isJunior lpAmount
  let wiped := fullyWipedJuniorExit pool isJunior withdrawalAmount
  rejectIf (withdrawalAmount = 0 ∧ wiped = false) ↑StakeError.zeroAmount
  let pool ←
    if pool.hwmEnabled = true ∧ wiped = false then enforceHwmFloor pool clock withdrawalAmount
    else .ok pool
  let w ← payOut ctx w a pool lpAmount withdrawalAmount
  let pool ← bookWithdraw pool isJunior lpAmount withdrawalAmount
  let record ← depositFromData (w.data a.depositPda)
  let record ← debitRecord record lpAmount
  let w ← w.store a.depositPda (.deposit record)
  w.store a.poolPda (.pool pool)

end PercolatorStake
