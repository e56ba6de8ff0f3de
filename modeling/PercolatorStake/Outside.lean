import PercolatorStake.Cpi
import PercolatorStake.SplToken
import PercolatorStake.System

/-!
# The programs outside the repository

The program calls the token program and the wrapper, and neither is part of this
repository.  Each is a parameter here, with the laws that this program relies on: what its
documentation says of the instructions that are built for it.  What it does with any other
instruction, and how it fails, is left open.
-/

namespace PercolatorStake

open Result

/-- A token program, on accounts without a delegate.  Closing an account asks for the
signature of the third account, which a top-up under the same tag does not give, and what
else is meant for the wrapper does not parse. -/
structure TokenProgram where
  process : World → Instruction → Except ProgramError World
  initializeMint : ∀ {w w' : World} {mint authority : Pubkey} {decimals : UInt8},
    process w (SplToken.initializeMint mint authority none decimals) = .ok w' ↔
      SplToken.processInitializeMint w mint authority.toList decimals = .ok w'
  initializeAccount : ∀ {w w' : World} {account mint owner : Pubkey},
    process w (SplToken.initializeAccount account mint owner) = .ok w' ↔
      SplToken.processInitializeAccount w account mint owner = .ok w'
  transfer : ∀ {w w' : World} {source dest authority : Pubkey} {amount : UInt64},
    process w (SplToken.transfer source dest authority amount) = .ok w' ↔
      SplToken.processTransfer w source dest authority amount = .ok w'
  mintTo : ∀ {w w' : World} {mint dest authority : Pubkey} {amount : UInt64},
    process w (SplToken.mintTo mint dest authority amount) = .ok w' ↔
      SplToken.processMintTo w mint dest authority amount = .ok w'
  burn : ∀ {w w' : World} {account mint authority : Pubkey} {amount : UInt64},
    process w (SplToken.burn account mint authority amount) = .ok w' ↔
      SplToken.processBurn w account mint authority amount = .ok w'
  rejects : ∀ {w w' : World} {ix : Instruction}, Cpi.Sent ix → process w ix ≠ .ok w'

/-- A wrapper, as far as the tokens are concerned: whether it accepts is its own affair.
Then tag 9 moves exactly `amount` out of the vault it is given, tag 57 moves exactly
`amount` into it, and the other instructions move nothing.  What the wrapper writes into
its own accounts no handler reads, and the world leaves it out. -/
structure Wrapper where
  accepts : World → Instruction → Bool
  process : World → Instruction → Except ProgramError World
  topUpInsurance : ∀ {w w' : World} {program signer slab source dest tokenProgram : Pubkey}
    {amount : UInt64},
    process w (Cpi.topUpInsurance program signer slab source dest tokenProgram amount) =
        .ok w' ↔
      accepts w (Cpi.topUpInsurance program signer slab source dest tokenProgram amount) = true ∧
        source ≠ dest ∧ SplToken.processTransfer w source dest signer amount = .ok w'
  withdrawInsuranceAsset : ∀ {w w' : World} {program signer market dest source wrapperVaultAuth
    tokenProgram : Pubkey} {amount : UInt64},
    process w (Cpi.withdrawInsuranceAsset program signer market dest source wrapperVaultAuth
        tokenProgram amount) = .ok w' ↔
      accepts w (Cpi.withdrawInsuranceAsset program signer market dest source wrapperVaultAuth
          tokenProgram amount) = true ∧
        source ≠ dest ∧ SplToken.moveTokens w source dest amount = .ok w'
  administrative : ∀ {w w' : World} {ix : Instruction}, Cpi.Administrative ix →
    (process w ix = .ok w' ↔ accepts w ix = true ∧ w' = w)

namespace Wrapper

/-- The wrapper with one more condition for what it accepts. -/
def gated (wrapper : Wrapper) (gate : World → Instruction → Bool) : Wrapper where
  accepts w ix := wrapper.accepts w ix && gate w ix
  process w ix := do
    rejectIf (gate w ix = false) ProgramError.invocationFailed
    wrapper.process w ix
  topUpInsurance := by
    intros
    simp only [bind_eq_ok, rejectIf_eq_ok, Bool.not_eq_false, exists_const,
      wrapper.topUpInsurance, Bool.and_eq_true, and_assoc, and_left_comm]
  withdrawInsuranceAsset := by
    intros
    simp only [bind_eq_ok, rejectIf_eq_ok, Bool.not_eq_false, exists_const,
      wrapper.withdrawInsuranceAsset, Bool.and_eq_true, and_assoc, and_left_comm]
  administrative := by
    intro w w' ix h
    simp only [bind_eq_ok, rejectIf_eq_ok, Bool.not_eq_false, exists_const,
      wrapper.administrative h, Bool.and_eq_true, and_assoc, and_left_comm]

/-- What goes through with the condition goes through without it. -/
theorem process_of_gated {wrapper : Wrapper} {gate : World → Instruction → Bool} {w w' : World}
    {ix : Instruction} (h : (wrapper.gated gate).process w ix = .ok w') :
    wrapper.process w ix = .ok w' := by
  obtain ⟨_, -, hprocess⟩ := bind_eq_ok.mp h
  exact hprocess

end Wrapper

end PercolatorStake
