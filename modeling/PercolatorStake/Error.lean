import Mathlib

/-!
# Errors

The program's own errors reach the host as custom codes.  The host adds its
standard ones, and the three ways in which it stops an instruction itself.
-/

namespace PercolatorStake

inductive StakeError where
  | alreadyInitialized
  | notInitialized
  | unauthorized
  | cooldownNotElapsed
  | insufficientLpTokens
  | zeroAmount
  | overflow
  | invalidMint
  | marketResolved
  | depositCapExceeded
  | invalidPda
  | deprecatedAdminAlreadyTransferred
  | deprecatedAdminNotTransferred
  | insufficientVaultBalance
  | invalidPercolatorProgram
  | cpiFailed
  | invalidAccount
  | invalidPoolMode
  | withdrawalBelowHwmFloor
  | trancheNotEnabled
  | juniorBalanceInsufficient
  | wrongTranche
  | zeroSharesMinted
  | noPendingAdmin
  | insuranceLossOutstanding
  | cooldownIncreaseRequiresTimelock
  | timelockNotElapsed
  | noPendingCooldownProposal
  | depositBelowMinimumLiquidity
  deriving DecidableEq

/-- `e as u32`: the position in the list above. -/
def StakeError.code (e : StakeError) : Nat := e.ctorIdx

inductive ProgramError where
  | custom (code : Nat)
  | invalidArgument
  | invalidInstructionData
  | invalidAccountData
  | missingRequiredSignature
  | notEnoughAccountKeys
  | incorrectProgramId
  | illegalOwner
  /-- An invoked program failed, which aborts the transaction. -/
  | invocationFailed
  /-- An invocation asked for a signature or write access the caller lacks. -/
  | privilegeEscalation
  /-- A read-only account was written to. -/
  | readonlyDataModified
  deriving DecidableEq

instance : Coe StakeError ProgramError := ⟨fun e => .custom e.code⟩

end PercolatorStake
