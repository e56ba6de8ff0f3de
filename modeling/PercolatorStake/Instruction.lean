import PercolatorStake.Address

/-!
# Instructions

The instructions the program accepts, with their arguments.
-/

namespace PercolatorStake

inductive StakeInstruction where
  | initPool (cooldownSlots depositCap : UInt64)
  | deposit (amount : UInt64)
  | withdraw (lpAmount : UInt64)
  | flushToInsurance (amount : UInt64)
  | bindInsuranceAuthority
  | rotateInsuranceAuthority
  | burnAssetAdmin
  | rotateInsuranceOperator
  | recoverFlushedInsurance (amount : UInt64)
  | updateConfig (newCooldownSlots newDepositCap : Option UInt64)
  | proposeAdmin (newAdmin : Pubkey)
  | acceptAdmin
  | proposeCooldownIncrease (newCooldownSlots : UInt64)
  | commitCooldownIncrease
  | cancelCooldownIncrease
  | returnInsurance (amount : UInt64)
  | accrueFees
  | initTradingPool (cooldownSlots depositCap : UInt64)
  | adminSetHwmConfig (enabled : Bool) (hwmFloorBps : UInt16)
  | adminSetTrancheConfig (juniorFeeMultBps : UInt16)
  | depositJunior (amount : UInt64)
  | setMarketResolved
  | adminResolveMarket
  | adminUpdateFeeSplit (creatorShareBps lpShareBps insuranceShareBps : UInt16)
  | adminUpdateMaintenanceFeePerSlot (maintenanceFeePerSlot : BitVec 128)
  | adminUpdateBackingFeePolicy (domain feeBps insuranceShareBps : UInt16)
  | adminUpdateTradeFeePolicy (tradeFeeBaseBps : UInt64)
  deriving DecidableEq

end PercolatorStake
