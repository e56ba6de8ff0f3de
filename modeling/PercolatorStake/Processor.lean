import PercolatorStake.Instruction
import PercolatorStake.Processor.Init
import PercolatorStake.Processor.Deposit
import PercolatorStake.Processor.Withdraw
import PercolatorStake.Processor.Insurance
import PercolatorStake.Processor.Admin

/-!
# Dispatch
-/

namespace PercolatorStake

/-- Run one decoded instruction.  On an error nothing is written. -/
def process (ctx : Context) (w : World) (accounts : List AccountInfo) :
    StakeInstruction → Except ProgramError World
  | .initPool cooldownSlots depositCap => processInitPool ctx w accounts cooldownSlots depositCap
  | .deposit amount => processDeposit ctx w accounts amount
  | .withdraw lpAmount => processWithdraw ctx w accounts lpAmount
  | .flushToInsurance amount => processFlushToInsurance ctx w accounts amount
  | .updateConfig newCooldownSlots newDepositCap =>
    processUpdateConfig ctx w accounts newCooldownSlots newDepositCap
  | .proposeAdmin newAdmin => processProposeAdmin ctx w accounts newAdmin
  | .acceptAdmin => processAcceptAdmin ctx w accounts
  | .proposeCooldownIncrease newCooldownSlots =>
    processProposeCooldownIncrease ctx w accounts newCooldownSlots
  | .commitCooldownIncrease => processCommitCooldownIncrease ctx w accounts
  | .cancelCooldownIncrease => processCancelCooldownIncrease ctx w accounts
  | .bindInsuranceAuthority => processBindInsuranceAuthority ctx w accounts
  | .rotateInsuranceAuthority => processRotateInsuranceAuthority ctx w accounts
  | .burnAssetAdmin => processBurnAssetAdmin ctx w accounts
  | .rotateInsuranceOperator => processRotateInsuranceOperator ctx w accounts
  | .returnInsurance amount => processReturnInsurance ctx w accounts amount
  | .recoverFlushedInsurance amount => processRecoverFlushedInsurance ctx w accounts amount
  | .accrueFees => processAccrueFees ctx w accounts
  | .initTradingPool cooldownSlots depositCap =>
    processInitTradingPool ctx w accounts cooldownSlots depositCap
  | .adminSetHwmConfig enabled hwmFloorBps =>
    processAdminSetHwmConfig ctx w accounts enabled hwmFloorBps
  | .adminSetTrancheConfig juniorFeeMultBps =>
    processAdminSetTrancheConfig ctx w accounts juniorFeeMultBps
  | .depositJunior amount => processDepositJunior ctx w accounts amount
  | .setMarketResolved => processSetMarketResolved ctx w accounts
  | .adminResolveMarket => processAdminResolveMarket ctx w accounts
  | .adminUpdateFeeSplit creatorShareBps lpShareBps insuranceShareBps =>
    processAdminUpdateFeeSplit ctx w accounts creatorShareBps lpShareBps insuranceShareBps
  | .adminUpdateMaintenanceFeePerSlot maintenanceFeePerSlot =>
    processAdminUpdateMaintenanceFeePerSlot ctx w accounts maintenanceFeePerSlot
  | .adminUpdateBackingFeePolicy domain feeBps insuranceShareBps =>
    processAdminUpdateBackingFeePolicy ctx w accounts domain feeBps insuranceShareBps
  | .adminUpdateTradeFeePolicy tradeFeeBaseBps =>
    processAdminUpdateTradeFeePolicy ctx w accounts tradeFeeBaseBps

/-- The pool account an instruction names: the third account of the two that create
a pool, the second of every other. -/
def StakeInstruction.poolAccount (ix : StakeInstruction) (accounts : List AccountInfo) :
    Option AccountInfo :=
  match ix with
  | .initPool .. | .initTradingPool .. => accounts[2]?
  | _ => accounts[1]?

end PercolatorStake
