import PercolatorStake.Lib.Bytes

/-!
# Addresses

Account addresses and the program-derived ones among them.  How an address is
derived from seeds is the host's business.  What the program relies on is that
the address it searched for is the one its seeds, with the bump found, sign for.
-/

namespace PercolatorStake

abbrev Pubkey := Vector UInt8 32

-- on the list of bytes equality computes faster than on the array
instance : DecidableEq Pubkey := fun a b =>
  decidable_of_iff (a.toList = b.toList) Vector.toList_inj

instance : BEq Pubkey := instBEqOfDecidableEq

/-- An address is read back from its bytes. -/
theorem ofFn_toList (k : Pubkey) : (Vector.ofFn fun i : Fin 32 => k.toList.getD i 0) = k := by
  ext i hi
  simp

/-- `Pubkey::find_program_address` and the derivation a signing program goes
through. -/
structure Derivation where
  findProgramAddress : List (List UInt8) → Pubkey → Pubkey × UInt8
  createProgramAddress : List (List UInt8) → Pubkey → Option Pubkey
  create_find : ∀ seeds programId, createProgramAddress
    (seeds ++ [[(findProgramAddress seeds programId).2]]) programId =
      some (findProgramAddress seeds programId).1

namespace Derivation

variable (d : Derivation)

/-- `b"stake_pool"`. -/
def stakePoolSeed : List UInt8 := [115, 116, 97, 107, 101, 95, 112, 111, 111, 108]

/-- `b"vault_auth"`. -/
def vaultAuthSeed : List UInt8 := [118, 97, 117, 108, 116, 95, 97, 117, 116, 104]

/-- `b"stake_deposit"`. -/
def stakeDepositSeed : List UInt8 :=
  [115, 116, 97, 107, 101, 95, 100, 101, 112, 111, 115, 105, 116]

def derivePoolPda (programId slab : Pubkey) : Pubkey × UInt8 :=
  d.findProgramAddress [stakePoolSeed, slab.toList] programId

def deriveVaultAuthority (programId pool : Pubkey) : Pubkey × UInt8 :=
  d.findProgramAddress [vaultAuthSeed, pool.toList] programId

def deriveDepositPda (programId pool user : Pubkey) : Pubkey × UInt8 :=
  d.findProgramAddress [stakeDepositSeed, pool.toList, user.toList] programId

/-- The seeds a handler signs for the vault authority with, `bump` included. -/
def vaultAuthSeeds (pool : Pubkey) (bump : UInt8) : List (List UInt8) :=
  [vaultAuthSeed, pool.toList, [bump]]

def poolSeeds (slab : Pubkey) (bump : UInt8) : List (List UInt8) :=
  [stakePoolSeed, slab.toList, [bump]]

theorem create_vaultAuthSeeds (programId pool : Pubkey) :
    d.createProgramAddress (vaultAuthSeeds pool (d.deriveVaultAuthority programId pool).2)
      programId = some (d.deriveVaultAuthority programId pool).1 :=
  d.create_find [vaultAuthSeed, pool.toList] programId

end Derivation

end PercolatorStake
