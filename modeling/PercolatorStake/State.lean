import PercolatorStake.Lib.Bytes
import PercolatorStake.Address
import PercolatorStake.Math

/-!
# Account state

The two record types the program stores.  Named fields are fields here, and what
the source packs into the reserved bytes is packed here at the same offsets.

| bytes of `StakePool.reserved` | content |
| --- | --- |
| 0–7 | discriminator |
| 8 | version |
| 9 | market resolved |
| 10, 11–12, 16–23, 24–31 | high-water mark: enabled, floor, mark, epoch |
| 32 | tranches enabled |
| 33–40, 41–48, 49–50 | junior balance, junior LP, junior fee multiplier |
| 51–58 | realized junior loss |
| 59 | asset admin burned |
-/

namespace PercolatorStake

open Bytes Word

def stakePoolDiscriminator : List UInt8 := [0x53, 0x50, 0x4F, 0x4F, 0x4C, 0x5F, 0x56, 0x31]

def stakeDepositDiscriminator : List UInt8 := [0x53, 0x44, 0x45, 0x50, 0x5F, 0x56, 0x31, 0x00]

/-- Dead shares locked at a pool's first deposit. -/
def minimumLiquidity : UInt64 := 1000

structure StakePool where
  isInitialized : UInt8
  bump : UInt8
  vaultAuthorityBump : UInt8
  adminTransferred : UInt8
  slab : Pubkey
  admin : Pubkey
  collateralMint : Pubkey
  lpMint : Pubkey
  vault : Pubkey
  totalDeposited : UInt64
  totalLpSupply : UInt64
  cooldownSlots : UInt64
  depositCap : UInt64
  totalFlushed : UInt64
  totalReturned : UInt64
  totalWithdrawn : UInt64
  percolatorProgram : Pubkey
  totalFeesEarned : UInt64
  lastFeeAccrualSlot : UInt64
  lastVaultSnapshot : UInt64
  poolMode : UInt8
  pendingAdmin : Pubkey
  reserved : Vector UInt8 64
  totalRecoveredFromWrapper : UInt64
  pendingCooldownSlots : UInt64
  cooldownProposedAtSlot : UInt64
  deriving DecidableEq

structure StakeDeposit where
  isInitialized : UInt8
  bump : UInt8
  pool : Pubkey
  user : Pubkey
  lastDepositSlot : UInt64
  lpAmount : UInt64
  reserved : Vector UInt8 64
  deriving DecidableEq

/-- The eight bytes of a discriminator, written from byte `0`. -/
def setDiscriminatorBytes (v : Vector UInt8 64) (bytes : List UInt8) : Vector UInt8 64 :=
  writeLe v 0 8 (decodeLe bytes)

def hasDiscriminatorBytes (v : Vector UInt8 64) (bytes : List UInt8) : Bool :=
  readLe v 0 8 == decodeLe bytes

def flagByte (b : Bool) : UInt8 := if b then 1 else 0

namespace StakeDeposit

/-- A zero-filled account. -/
def zeroed : StakeDeposit where
  isInitialized := 0
  bump := 0
  pool := Vector.replicate 32 0
  user := Vector.replicate 32 0
  lastDepositSlot := 0
  lpAmount := 0
  reserved := Vector.replicate 64 0

def setDiscriminator (d : StakeDeposit) : StakeDeposit :=
  { d with reserved := setDiscriminatorBytes d.reserved stakeDepositDiscriminator }

def validateDiscriminator (d : StakeDeposit) : Bool :=
  hasDiscriminatorBytes d.reserved stakeDepositDiscriminator

def isJuniorDeposit (d : StakeDeposit) : Bool := byteAt d.reserved 8 == 1

def setJuniorDeposit (d : StakeDeposit) (v : Bool) : StakeDeposit :=
  { d with reserved := setByte d.reserved 8 (flagByte v) }

end StakeDeposit

namespace StakePool

def currentVersion : UInt8 := 4

def zeroed : StakePool where
  isInitialized := 0
  bump := 0
  vaultAuthorityBump := 0
  adminTransferred := 0
  slab := Vector.replicate 32 0
  admin := Vector.replicate 32 0
  collateralMint := Vector.replicate 32 0
  lpMint := Vector.replicate 32 0
  vault := Vector.replicate 32 0
  totalDeposited := 0
  totalLpSupply := 0
  cooldownSlots := 0
  depositCap := 0
  totalFlushed := 0
  totalReturned := 0
  totalWithdrawn := 0
  percolatorProgram := Vector.replicate 32 0
  totalFeesEarned := 0
  lastFeeAccrualSlot := 0
  lastVaultSnapshot := 0
  poolMode := 0
  pendingAdmin := Vector.replicate 32 0
  reserved := Vector.replicate 64 0
  totalRecoveredFromWrapper := 0
  pendingCooldownSlots := 0
  cooldownProposedAtSlot := 0

/-! ## Packed fields -/

/-- A `u64` of the reserved bytes. -/
def word (p : StakePool) (off : Nat) : UInt64 := UInt64.ofNat (readLe p.reserved off 8)

def setWord (p : StakePool) (off : Nat) (val : UInt64) : StakePool :=
  { p with reserved := writeLe p.reserved off 8 val.toNat }

/-- A `u16` of the reserved bytes. -/
def half (p : StakePool) (off : Nat) : UInt16 := UInt16.ofNat (readLe p.reserved off 2)

def setHalf (p : StakePool) (off : Nat) (val : UInt16) : StakePool :=
  { p with reserved := writeLe p.reserved off 2 val.toNat }

def setFlag (p : StakePool) (off : Nat) (b : Bool) : StakePool :=
  { p with reserved := setByte p.reserved off (flagByte b) }

def setDiscriminator (p : StakePool) : StakePool :=
  let reserved := setDiscriminatorBytes p.reserved stakePoolDiscriminator
  { p with reserved := setByte reserved 8 currentVersion }

def validateDiscriminator (p : StakePool) : Bool :=
  hasDiscriminatorBytes p.reserved stakePoolDiscriminator

def version (p : StakePool) : UInt8 := byteAt p.reserved 8

-- any non-zero byte counts as resolved, unlike the other flags
def marketResolved (p : StakePool) : Bool := byteAt p.reserved 9 != 0
def setMarketResolved (p : StakePool) (b : Bool) : StakePool := p.setFlag 9 b

def hwmEnabled (p : StakePool) : Bool := byteAt p.reserved 10 == 1
def setHwmEnabled (p : StakePool) (b : Bool) : StakePool := p.setFlag 10 b

def hwmFloorBps (p : StakePool) : UInt16 := p.half 11
def setHwmFloorBps (p : StakePool) (bps : UInt16) : StakePool := p.setHalf 11 bps

def epochHighWaterTvl (p : StakePool) : UInt64 := p.word 16
def setEpochHighWaterTvl (p : StakePool) (tvl : UInt64) : StakePool := p.setWord 16 tvl

def hwmLastEpoch (p : StakePool) : UInt64 := p.word 24
def setHwmLastEpoch (p : StakePool) (epoch : UInt64) : StakePool := p.setWord 24 epoch

def trancheEnabled (p : StakePool) : Bool := byteAt p.reserved 32 == 1
def setTrancheEnabled (p : StakePool) (b : Bool) : StakePool := p.setFlag 32 b

def juniorBalance (p : StakePool) : UInt64 := p.word 33
def setJuniorBalance (p : StakePool) (val : UInt64) : StakePool := p.setWord 33 val

def juniorTotalLp (p : StakePool) : UInt64 := p.word 41
def setJuniorTotalLp (p : StakePool) (val : UInt64) : StakePool := p.setWord 41 val

def juniorFeeMultBps (p : StakePool) : UInt16 := p.half 49
def setJuniorFeeMultBps (p : StakePool) (val : UInt16) : StakePool := p.setHalf 49 val

def realizedJuniorLoss (p : StakePool) : UInt64 := p.word 51
def setRealizedJuniorLoss (p : StakePool) (val : UInt64) : StakePool := p.setWord 51 val

def assetAdminBurned (p : StakePool) : Bool := byteAt p.reserved 59 == 1
def setAssetAdminBurned (p : StakePool) (b : Bool) : StakePool := p.setFlag 59 b

/-! ## Derived quantities -/

/-- LP that is not junior. -/
def seniorTotalLp (p : StakePool) : UInt64 := saturatingSub p.totalLpSupply p.juniorTotalLp

/-- Junior balance less the outstanding loss the junior tranche absorbs. -/
def effectiveJuniorBalance (p : StakePool) : UInt64 :=
  let jb := p.juniorBalance
  let netLoss := saturatingSub p.totalFlushed p.totalReturned
  if netLoss = 0 then jb
  else
    let grossPool := saturatingSub p.totalDeposited p.totalWithdrawn
    let grossSenior := saturatingSub grossPool jb
    saturatingSub jb (Math.distributeLoss jb grossSenior netLoss).1

/-- Deposits less withdrawals, less what is out at the insurance fund, plus fees,
less forfeited loss, summed in a signed type wide enough for every order. -/
def totalPoolValue (p : StakePool) : Option UInt64 :=
  let value : Int := (p.totalDeposited.toNat : Int) - p.totalWithdrawn.toNat -
    p.totalFlushed.toNat + p.totalReturned.toNat + p.totalFeesEarned.toNat -
    p.realizedJuniorLoss.toNat
  if value < 0 ∨ value > 2 ^ 64 - 1 then none else some (UInt64.ofNat value.toNat)

/-- The same without the fees, held inside the word range. -/
def principalTvl (p : StakePool) : Option UInt64 :=
  let value : Int := (p.totalDeposited.toNat : Int) - p.totalWithdrawn.toNat -
    p.totalFlushed.toNat + p.totalReturned.toNat - p.realizedJuniorLoss.toNat
  some (UInt64.ofNat (max 0 (min value (2 ^ 64 - 1))).toNat)

def seniorBalance (p : StakePool) : Option UInt64 := do
  let value ← p.totalPoolValue
  checkedSub value p.effectiveJuniorBalance

/-- Collateral that can still be pulled back from the wrapper. -/
def wrapperRecoverable (p : StakePool) : UInt64 :=
  saturatingSub (saturatingSub p.totalFlushed p.realizedJuniorLoss) p.totalRecoveredFromWrapper

def wrapperFullyRecovered (p : StakePool) : Bool := p.wrapperRecoverable == 0

def calcLpForDeposit (p : StakePool) (amount : UInt64) : Option UInt64 := do
  let pv ← p.totalPoolValue
  Math.calcLpForDeposit p.totalLpSupply pv amount

def calcCollateralForWithdraw (p : StakePool) (lpAmount : UInt64) : Option UInt64 := do
  let pv ← p.totalPoolValue
  Math.calcCollateralForWithdraw p.totalLpSupply pv lpAmount

/-- Roll the mark over to a new epoch, or raise it within one. -/
def refreshHwm (p : StakePool) (currentEpoch currentTvl : UInt64) : StakePool × UInt64 :=
  let p :=
    if currentEpoch ≠ p.hwmLastEpoch then
      (p.setEpochHighWaterTvl currentTvl).setHwmLastEpoch currentEpoch
    else if currentTvl > p.epochHighWaterTvl then p.setEpochHighWaterTvl currentTvl
    else p
  (p, p.epochHighWaterTvl)

end StakePool

end PercolatorStake
