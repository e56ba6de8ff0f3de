import PercolatorStake.Invoke
import PercolatorStake.FeeSplit
import PercolatorStake.Book

/-!
# Shared checks and fee accrual

The validation helpers every handler is built from, the dead-share lock of the
first deposit, and the accrual of fees that stands in front of every pricing.
-/

namespace PercolatorStake

open Result Word

/-! ## Validation -/

def verifyTokenProgram (tokenProgram : AccountInfo) : Except ProgramError Unit :=
  rejectIf (tokenProgram.key ≠ splTokenId) ProgramError.incorrectProgramId

/-- About a year of slots. -/
def maxCooldownSlots : UInt64 := 78840000

/-- About 48 hours of slots. -/
def timelockSlots : UInt64 := 432000

def maxHwmFloorBps : UInt16 := 9000

def timelockWindowElapsed (proposedAt timelockSlots now : UInt64) : Except ProgramError Bool := do
  let earliest ← okOr (checkedAdd proposedAt timelockSlots) ↑StakeError.overflow
  .ok (decide (earliest ≤ now))

def validateCooldownSlots (cooldownSlots : UInt64) : Except ProgramError Unit := do
  rejectIf (cooldownSlots = 0) ProgramError.invalidArgument
  rejectIf (cooldownSlots > maxCooldownSlots) ProgramError.invalidArgument

def validateHwmFloorBps (hwmFloorBps : UInt16) : Except ProgramError Unit :=
  rejectIf (hwmFloorBps = 0 ∨ hwmFloorBps > maxHwmFloorBps) ProgramError.invalidArgument

def requireSigner (a : AccountInfo) : Except ProgramError Unit :=
  rejectIf (a.isSigner = false) ProgramError.missingRequiredSignature

section

variable (w : World)

def validateAccountOwner (a : AccountInfo) (expected : Pubkey) : Except ProgramError Unit :=
  rejectIf (w.owner a ≠ expected) ↑StakeError.invalidAccount

def validateAccountNotEmpty (a : AccountInfo) : Except ProgramError Unit :=
  rejectIf (w.data a = .empty) ↑StakeError.invalidAccount

def validateAccountWritable (a : AccountInfo) : Except ProgramError Unit :=
  rejectIf (a.isWritable = false) ↑StakeError.invalidAccount

def validatePoolVersion (pool : StakePool) : Except ProgramError Unit :=
  rejectIf (pool.version ≠ StakePool.currentVersion) ↑StakeError.invalidAccount

/-- `pool_from_data`.  Data too short for a pool is rejected by its length. -/
def poolFromData : AccountData → Except ProgramError StakePool
  | .pool p => .ok p
  | x => if x.len < stakePoolSize then .error StakeError.invalidAccount
    else .error .invalidAccountData

/-- `deposit_from_data`. -/
def depositFromData : AccountData → Except ProgramError StakeDeposit
  | .deposit d => .ok d
  | x => if x.len < stakeDepositSize then .error StakeError.invalidAccount
    else .error .invalidAccountData

/-- Read a pool and check that it is initialized, marked as a pool and of the
current version, as every handler does before it looks at a field. -/
def readPool (a : AccountInfo) : Except ProgramError StakePool := do
  let pool ← poolFromData (w.data a)
  rejectIf (pool.isInitialized ≠ 1) ↑StakeError.notInitialized
  rejectIf (pool.validateDiscriminator = false) ↑StakeError.invalidAccount
  validatePoolVersion pool
  .ok pool

/-- `Clock::from_account_info`. -/
def readClock (a : AccountInfo) : Except ProgramError Clock := do
  rejectIf (a.key ≠ clockSysvarId) ProgramError.invalidArgument
  match w.data a with
  | .clock c => .ok c
  | _ => .error .invalidArgument

/-- The token account must be one of the token program, of mint `mint`.  The
error for a wrong mint differs between the handlers. -/
def validateTokenMint (a : AccountInfo) (mint : Pubkey) (mintError : StakeError) :
    Except ProgramError Unit := do
  rejectIf (w.owner a ≠ splTokenId) ↑StakeError.invalidAccount
  let (mintBytes, _) ← SplToken.header (w.data a)
  rejectIf (mintBytes ≠ mint.toList) ↑mintError

/-- The same, and the token account must belong to `owner`. -/
def validateTokenAccount (a : AccountInfo) (mint owner : Pubkey) (mintError : StakeError) :
    Except ProgramError Unit := do
  validateTokenMint w a mint mintError
  let (_, ownerBytes) ← SplToken.header (w.data a)
  rejectIf (ownerBytes ≠ owner.toList) ↑StakeError.unauthorized

def validateLpRecipientAccount (userLpAta : AccountInfo) (lpMint owner : Pubkey) :
    Except ProgramError Unit :=
  validateTokenAccount w userLpAta lpMint owner .invalidMint

end

/-! ## Dead shares -/

/-- LP actually minted: the first deposit of a pool leaves `minimumLiquidity` of
its LP unminted. -/
def applyMinimumLiquidityLock (totalLpSupplyBefore lpToMint : UInt64) :
    Except ProgramError UInt64 := do
  if totalLpSupplyBefore ≠ 0 then .ok lpToMint
  else do
    let mintAmount ← okOr (checkedSub lpToMint minimumLiquidity)
      ↑StakeError.depositBelowMinimumLiquidity
    rejectIf (mintAmount = 0) ↑StakeError.depositBelowMinimumLiquidity
    .ok mintAmount

/-! ## Fee accrual -/

/-- The junior part of an accrued fee, from the balances before the fee, with the
guard that holds the junior balance below the pool value. -/
def accrueJuniorFee (pool : StakePool) (snapshotJuniorBal snapshotSeniorBal feeDelta : UInt64) :
    Except ProgramError StakePool := do
  let (juniorFee, _) :=
    Math.distributeFees snapshotJuniorBal snapshotSeniorBal pool.juniorFeeMultBps feeDelta
  let juniorBalance ← okOr (checkedAdd pool.juniorBalance juniorFee) ↑StakeError.overflow
  let pool := pool.setJuniorBalance juniorBalance
  let pv ← okOr pool.totalPoolValue ↑StakeError.overflow
  rejectIf (pool.juniorBalance > pv) ↑StakeError.overflow
  .ok pool

/-- Book whatever the vault holds above the pool value as fees.  Nothing happens
without surplus or without LP holders. -/
def accrueFeesInner (pool : StakePool) (currentBalance : UInt64) :
    Except ProgramError StakePool := do
  let poolValue ← okOr pool.totalPoolValue ↑StakeError.overflow
  if currentBalance > poolValue ∧ pool.totalLpSupply > 0 then do
    let feeDelta := currentBalance - poolValue
    if pool.trancheEnabled = true ∧ pool.juniorTotalLp > 0 then do
      -- both balances are read before the fees are raised
      let snapshotSeniorBal ← okOr pool.seniorBalance ↑StakeError.overflow
      let fees ← okOr (checkedAdd pool.totalFeesEarned feeDelta) ↑StakeError.overflow
      accrueJuniorFee { pool with totalFeesEarned := fees } pool.juniorBalance snapshotSeniorBal
        feeDelta
    else do
      let fees ← okOr (checkedAdd pool.totalFeesEarned feeDelta) ↑StakeError.overflow
      .ok { pool with totalFeesEarned := fees }
  else .ok pool

/-- The balance of a live vault. -/
def vaultBalance (w : World) (vault : AccountInfo) : Except ProgramError UInt64 := do
  rejectIf (w.owner vault ≠ splTokenId) ProgramError.illegalOwner
  let (amount, state) ← SplToken.unpackAccount (w.data vault)
  rejectIf (state ≠ .initialized) ProgramError.invalidAccountData
  .ok amount

def preAccrueFeeModes (w : World) (pool : StakePool) (vault : AccountInfo) :
    Except ProgramError StakePool := do
  if pool.poolMode ≤ 1 then do
    let currentBalance ← vaultBalance w vault
    accrueFeesInner pool currentBalance
  else .ok pool

end PercolatorStake
