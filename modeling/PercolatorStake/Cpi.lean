import PercolatorStake.Host

/-!
# Wrapper instructions

The instructions the program sends to the wrapper, byte for byte.
-/

namespace PercolatorStake

open Bytes

namespace Cpi

def tagTopUpInsurance : UInt8 := 9
def tagUpdateAuthority : UInt8 := 32
def tagUpdateAssetAuthority : UInt8 := 65
def assetIndexZero : UInt16 := 0
def assetAuthInsurance : UInt8 := 1
def assetAuthInsuranceOperator : UInt8 := 2
def assetAuthAdmin : UInt8 := 0
def tagWithdrawInsuranceAsset : UInt8 := 57
def tagResolveMarket : UInt8 := 19
def tagUpdateFeeSplit : UInt8 := 86
def tagUpdateMaintenanceFeePerSlot : UInt8 := 88
def tagUpdateBackingFeePolicy : UInt8 := 51
def tagUpdateTradeFeePolicy : UInt8 := 55

/-! ## Instructions -/

def topUpInsurance (program signer slab signerAta wrapperVault tokenProgram : Pubkey)
    (amount : UInt64) : Instruction where
  programId := program
  accounts := [.readonly signer true, .writable slab false, .writable signerAta false,
    .writable wrapperVault false, .readonly tokenProgram false]
  data := tagTopUpInsurance :: encodeLe 16 amount.toNat

def updateAuthority (program currentAdmin newAuthority slab : Pubkey) : Instruction where
  programId := program
  accounts := [.readonly currentAdmin true, .readonly newAuthority true, .writable slab false]
  data := tagUpdateAuthority :: newAuthority.toList

/-- Tag 65: hand the role `kind` of asset 0 from `current` to `newPubkey`. -/
def updateAssetAuthority (program current new market : Pubkey) (newSigns : Bool) (kind : UInt8)
    (newPubkey : Pubkey) : Instruction where
  programId := program
  accounts := [.readonly current true, .readonly new newSigns, .writable market false]
  data := tagUpdateAssetAuthority :: encodeLe 2 assetIndexZero.toNat ++ kind :: newPubkey.toList

def bindInsuranceAuthority (program admin vaultAuth market : Pubkey) : Instruction :=
  updateAssetAuthority program admin vaultAuth market true assetAuthInsurance vaultAuth

def bindInsuranceOperator (program admin vaultAuth market : Pubkey) : Instruction :=
  updateAssetAuthority program admin vaultAuth market true assetAuthInsuranceOperator vaultAuth

def burnAssetAdmin (program admin vaultAuth market : Pubkey) : Instruction :=
  updateAssetAuthority program admin vaultAuth market false assetAuthAdmin (Vector.replicate 32 0)

def rotateInsuranceOperator (program vaultAuth newTarget market : Pubkey) : Instruction :=
  updateAssetAuthority program vaultAuth newTarget market true assetAuthInsuranceOperator newTarget

def rotateInsuranceAuthority (program vaultAuth newTarget market : Pubkey) : Instruction :=
  updateAssetAuthority program vaultAuth newTarget market true assetAuthInsurance newTarget

def withdrawInsuranceAsset (program vaultAuth market destToken wrapperVault wrapperVaultAuth
    tokenProgram : Pubkey) (amount : UInt64) : Instruction where
  programId := program
  accounts := [.readonly vaultAuth true, .writable market false, .writable destToken false,
    .writable wrapperVault false, .readonly wrapperVaultAuth false, .readonly tokenProgram false]
  data := tagWithdrawInsuranceAsset ::
    (encodeLe 2 assetIndexZero.toNat ++ encodeLe 16 amount.toNat)

/-- The setters share a signer, a writable market and a tagged payload. -/
def setter (program signer slab : Pubkey) (tag : UInt8) (payload : List UInt8) : Instruction where
  programId := program
  accounts := [.readonly signer true, .writable slab false]
  data := tag :: payload

def resolveMarket (program poolPda slab : Pubkey) : Instruction :=
  setter program poolPda slab tagResolveMarket []

def updateFeeSplit (program poolPda slab : Pubkey)
    (creatorShareBps lpShareBps insuranceShareBps : UInt16) : Instruction :=
  setter program poolPda slab tagUpdateFeeSplit
    (encodeLe 2 creatorShareBps.toNat ++ encodeLe 2 lpShareBps.toNat ++
      encodeLe 2 insuranceShareBps.toNat)

def updateMaintenanceFeePerSlot (program poolPda slab : Pubkey)
    (maintenanceFeePerSlot : BitVec 128) : Instruction :=
  setter program poolPda slab tagUpdateMaintenanceFeePerSlot
    (encodeLe 16 maintenanceFeePerSlot.toNat)

def updateBackingFeePolicy (program vaultAuth slab : Pubkey)
    (domain feeBps insuranceShareBps : UInt16) : Instruction :=
  setter program vaultAuth slab tagUpdateBackingFeePolicy
    (encodeLe 2 domain.toNat ++ encodeLe 2 feeBps.toNat ++ encodeLe 2 insuranceShareBps.toNat)

def updateTradeFeePolicy (program vaultAuth slab : Pubkey) (tradeFeeBaseBps : UInt64) :
    Instruction :=
  setter program vaultAuth slab tagUpdateTradeFeePolicy (encodeLe 8 tradeFeeBaseBps.toNat)

/-! ## What is sent -/

/-- The instructions that are about a market's settings and roles. -/
inductive Administrative : Instruction → Prop
  | updateAuthority (program currentAdmin newAuthority slab : Pubkey) :
    Administrative (updateAuthority program currentAdmin newAuthority slab)
  | updateAssetAuthority (program current new market : Pubkey) (newSigns : Bool) (kind : UInt8)
    (newPubkey : Pubkey) :
    Administrative (updateAssetAuthority program current new market newSigns kind newPubkey)
  | resolveMarket (program poolPda slab : Pubkey) :
    Administrative (resolveMarket program poolPda slab)
  | updateFeeSplit (program poolPda slab : Pubkey)
    (creatorShareBps lpShareBps insuranceShareBps : UInt16) :
    Administrative
      (updateFeeSplit program poolPda slab creatorShareBps lpShareBps insuranceShareBps)
  | updateMaintenanceFeePerSlot (program poolPda slab : Pubkey)
    (maintenanceFeePerSlot : BitVec 128) :
    Administrative (updateMaintenanceFeePerSlot program poolPda slab maintenanceFeePerSlot)
  | updateBackingFeePolicy (program vaultAuth slab : Pubkey)
    (domain feeBps insuranceShareBps : UInt16) :
    Administrative (updateBackingFeePolicy program vaultAuth slab domain feeBps insuranceShareBps)
  | updateTradeFeePolicy (program vaultAuth slab : Pubkey) (tradeFeeBaseBps : UInt64) :
    Administrative (updateTradeFeePolicy program vaultAuth slab tradeFeeBaseBps)

/-- Everything that is sent to the wrapper. -/
inductive Sent : Instruction → Prop
  | topUpInsurance (program signer slab signerAta wrapperVault tokenProgram : Pubkey)
    (amount : UInt64) :
    Sent (topUpInsurance program signer slab signerAta wrapperVault tokenProgram amount)
  | withdrawInsuranceAsset (program vaultAuth market destToken wrapperVault wrapperVaultAuth
    tokenProgram : Pubkey) (amount : UInt64) :
    Sent (withdrawInsuranceAsset program vaultAuth market destToken wrapperVault wrapperVaultAuth
      tokenProgram amount)
  | administrative {ix : Instruction} (h : Administrative ix) : Sent ix

end Cpi

end PercolatorStake
