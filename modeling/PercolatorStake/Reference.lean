import PercolatorStake.Outside

/-!
# Reference programs

Executable programs that obey the laws, for runs on given inputs: a token program and a
system program that do what is documented and nothing else, and a wrapper for every
decision on what to accept.
-/

namespace PercolatorStake

open Bytes Result

namespace Sample

/-! ## The token program -/

section

open SplToken

/-- Dispatch on the wire format. -/
def tokenProcess (w : World) (ix : Instruction) : Except ProgramError World :=
  match ix.accounts, ix.data with
  | [mint, _rent], 0 :: decimals :: rest =>
    processInitializeMint w mint.pubkey (rest.take 32) decimals
  | [account, mint, owner, _rent], [1] =>
    processInitializeAccount w account.pubkey mint.pubkey owner.pubkey
  | [a, b, authority], tag :: rest =>
    let amount := UInt64.ofNat (decodeLe rest)
    if rest.length ≠ 8 ∨ authority.isSigner = false then .error .invocationFailed
    else if tag = ixTransfer then processTransfer w a.pubkey b.pubkey authority.pubkey amount
    else if tag = ixMintTo then processMintTo w a.pubkey b.pubkey authority.pubkey amount
    else if tag = ixBurn then processBurn w a.pubkey b.pubkey authority.pubkey amount
    else .error .invocationFailed
  | _, _ => .error .invocationFailed

theorem decodeLe_amount (amount : UInt64) :
    UInt64.ofNat (decodeLe (encodeLe 8 amount.toNat)) = amount := by
  have := amount.toNat_lt
  rw [decodeLe_encodeLe, Nat.mod_eq_of_lt (by omega), UInt64.ofNat_toNat]

theorem tokenProcess_transfer (w : World) (source dest authority : Pubkey) (amount : UInt64) :
    tokenProcess w (transfer source dest authority amount) =
      processTransfer w source dest authority amount := by
  unfold tokenProcess transfer amountInstruction
  simp [AccountMeta.writable, AccountMeta.readonly, ixTransfer, decodeLe_amount]

theorem tokenProcess_mintTo (w : World) (mint dest authority : Pubkey) (amount : UInt64) :
    tokenProcess w (mintTo mint dest authority amount) =
      processMintTo w mint dest authority amount := by
  unfold tokenProcess mintTo amountInstruction
  simp [AccountMeta.writable, AccountMeta.readonly, ixTransfer, ixMintTo, decodeLe_amount]

theorem tokenProcess_burn (w : World) (account mint authority : Pubkey) (amount : UInt64) :
    tokenProcess w (burn account mint authority amount) =
      processBurn w account mint authority amount := by
  unfold tokenProcess burn amountInstruction
  simp [AccountMeta.writable, AccountMeta.readonly, ixTransfer, ixMintTo, ixBurn,
    decodeLe_amount]

theorem tokenProcess_initializeMint (w : World) (mint authority : Pubkey) (decimals : UInt8) :
    tokenProcess w (initializeMint mint authority none decimals) =
      processInitializeMint w mint authority.toList decimals := by
  have htake : (authority.toList ++ [0]).take 32 = authority.toList :=
    List.take_left' (Vector.length_toList)
  unfold tokenProcess initializeMint
  simp only [AccountMeta.writable, AccountMeta.readonly, ixInitializeMint, List.cons_append, htake]

theorem tokenProcess_initializeAccount (w : World) (account mint owner : Pubkey) :
    tokenProcess w (initializeAccount account mint owner) =
      processInitializeAccount w account mint owner := rfl

theorem tokenProcess_setter (w : World) (program signer slab : Pubkey) {tag : UInt8} (h : tag ≠ 0)
    (payload : List UInt8) :
    tokenProcess w (Cpi.setter program signer slab tag payload) = .error .invocationFailed := by
  unfold tokenProcess Cpi.setter
  split <;> simp_all

/-- What is meant for the wrapper has accounts or a payload that no instruction has here. -/
theorem tokenProcess_sent {w : World} {ix : Instruction} (h : Cpi.Sent ix) :
    tokenProcess w ix = .error .invocationFailed := by
  cases h with
  | topUpInsurance => rfl
  | withdrawInsuranceAsset => rfl
  | administrative h =>
    cases h with
    | updateAuthority => exact if_pos (.inl (by simp))
    | updateAssetAuthority =>
      refine if_pos (.inl ?_)
      simp [length_encodeLe]
    | resolveMarket | updateFeeSplit | updateMaintenanceFeePerSlot | updateBackingFeePolicy
    | updateTradeFeePolicy => exact tokenProcess_setter _ _ _ _ (by decide) _

end

def tokenProgram : TokenProgram where
  process := tokenProcess
  initializeMint := by
    intros
    rw [tokenProcess_initializeMint]
  initializeAccount := by
    intros
    rw [tokenProcess_initializeAccount]
  transfer := by
    intros
    rw [tokenProcess_transfer]
  mintTo := by
    intros
    rw [tokenProcess_mintTo]
  burn := by
    intros
    rw [tokenProcess_burn]
  rejects := by
    intro w w' ix hix h
    rw [tokenProcess_sent hix] at h
    cases h

/-! ## The wrapper -/

/-- The `u128` amount of a wrapper instruction; tokens come in words. -/
def wrapperAmount (bytes : List UInt8) : Except ProgramError UInt64 := do
  rejectIf (bytes.length ≠ 16 ∨ 2 ^ 64 ≤ decodeLe bytes) ProgramError.invocationFailed
  .ok (UInt64.ofNat (decodeLe bytes))

def wrapperMoves (w : World) (ix : Instruction) : Except ProgramError World :=
  match ix.accounts, ix.data with
  | [signer, _slab, source, dest, _tokenProgram], 9 :: rest => do
    let amount ← wrapperAmount rest
    rejectIf (source.pubkey = dest.pubkey) ProgramError.invocationFailed
    SplToken.processTransfer w source.pubkey dest.pubkey signer.pubkey amount
  | [_operator, _market, dest, source, _vaultAuth, _tokenProgram], 57 :: _ :: _ :: rest => do
    let amount ← wrapperAmount rest
    rejectIf (source.pubkey = dest.pubkey) ProgramError.invocationFailed
    SplToken.moveTokens w source.pubkey dest.pubkey amount
  | _, _ => .ok w

theorem wrapperAmount_encodeLe (amount : UInt64) :
    wrapperAmount (encodeLe 16 amount.toNat) = .ok amount := by
  have hlt := amount.toNat_lt
  have hdec : decodeLe (encodeLe 16 amount.toNat) = amount.toNat := by
    rw [decodeLe_encodeLe, Nat.mod_eq_of_lt (by omega)]
  unfold wrapperAmount
  rw [hdec, rejectIf_neg (by simp [hlt]), UInt64.ofNat_toNat]
  rfl

section

variable {w w' : World} {program signer slab source dest tokenProgram : Pubkey} {amount : UInt64}

theorem wrapperMoves_topUpInsurance :
    wrapperMoves w (Cpi.topUpInsurance program signer slab source dest tokenProgram amount) =
        .ok w' ↔
      source ≠ dest ∧ SplToken.processTransfer w source dest signer amount = .ok w' := by
  simp only [wrapperMoves, Cpi.topUpInsurance, Cpi.tagTopUpInsurance, AccountMeta.readonly,
    AccountMeta.writable, wrapperAmount_encodeLe, ok_bind, bind_eq_ok, rejectIf_eq_ok,
    exists_const, ne_eq]

theorem wrapperMoves_withdrawInsuranceAsset {wrapperVaultAuth : Pubkey} :
    wrapperMoves w (Cpi.withdrawInsuranceAsset program signer slab dest source wrapperVaultAuth
        tokenProgram amount) = .ok w' ↔
      source ≠ dest ∧ SplToken.moveTokens w source dest amount = .ok w' := by
  have hindex : encodeLe 2 Cpi.assetIndexZero.toNat = [0, 0] := rfl
  simp only [wrapperMoves, Cpi.withdrawInsuranceAsset, Cpi.tagWithdrawInsuranceAsset,
    AccountMeta.readonly, AccountMeta.writable, hindex, List.cons_append, List.nil_append,
    wrapperAmount_encodeLe, ok_bind, bind_eq_ok, rejectIf_eq_ok, exists_const, ne_eq]

theorem wrapperMoves_administrative {ix : Instruction} (h : Cpi.Administrative ix) :
    wrapperMoves w ix = .ok w := by
  cases h <;> rfl

end

/-- A wrapper that turns down what `accepts` does not take, and nothing else. -/
def wrapper (accepts : World → Instruction → Bool) : Wrapper where
  accepts := accepts
  process w ix := do
    rejectIf (accepts w ix = false) ProgramError.invocationFailed
    wrapperMoves w ix
  topUpInsurance := by
    intros
    simp only [bind_eq_ok, rejectIf_eq_ok, Bool.not_eq_false, exists_const,
      wrapperMoves_topUpInsurance]
  withdrawInsuranceAsset := by
    intros
    simp only [bind_eq_ok, rejectIf_eq_ok, Bool.not_eq_false, exists_const,
      wrapperMoves_withdrawInsuranceAsset]
  administrative := by
    intro w w' ix h
    simp only [bind_eq_ok, rejectIf_eq_ok, Bool.not_eq_false, exists_const,
      wrapperMoves_administrative h, ok_eq_ok]
    exact and_congr_right fun _ => eq_comm

/-! ## The system program -/

def systemProcess (b : Bank) : SystemInstruction → Except ProgramError Bank
  | .createAccount source dest lamports space owner =>
    SystemInstruction.processCreateAccount b source dest lamports space owner
  | .transfer source dest lamports => SystemInstruction.processTransfer b source dest lamports
  | .allocate account space => SystemInstruction.processAllocate b account space
  | .assign account owner => SystemInstruction.processAssign b account owner

def systemProgram : SystemProgram where
  process := systemProcess
  createAccount := Iff.rfl
  transfer := Iff.rfl
  allocate := Iff.rfl
  assign := Iff.rfl

end Sample

end PercolatorStake
