import PercolatorStake.Host

/-!
# The system program

Accounts as the system program sees them, and what its documentation says of the four
instructions that the creation of an account comes to.
-/

namespace PercolatorStake

open Result Word

/-- An account as the system program sees it. -/
structure RawAccount where
  lamports : UInt64
  owner : Pubkey
  data : List UInt8
  deriving DecidableEq

structure Bank where
  account : Pubkey → RawAccount

namespace Bank

def set (b : Bank) (k : Pubkey) (x : RawAccount) : Bank :=
  ⟨fun k' => if k' = k then x else b.account k'⟩

@[simp] theorem account_set_self (b : Bank) (k : Pubkey) (x : RawAccount) :
    (b.set k x).account k = x := if_pos rfl

theorem account_set_of_ne {b : Bank} {k k' : Pubkey} {x : RawAccount} (h : k' ≠ k) :
    (b.set k x).account k' = b.account k' := if_neg h

theorem ext {b b' : Bank} (h : ∀ k, b.account k = b'.account k) : b = b' :=
  congrArg Bank.mk (funext h)

/-- Writing what is already there. -/
theorem set_account (b : Bank) (k : Pubkey) : b.set k (b.account k) = b := by
  apply ext
  intro j
  by_cases hj : j = k
  · rw [hj, account_set_self]
  · rw [account_set_of_ne hj]

theorem set_set (b : Bank) (k : Pubkey) (x y : RawAccount) : (b.set k x).set k y = b.set k y := by
  apply ext
  intro j
  by_cases hj : j = k
  · rw [hj, account_set_self, account_set_self]
  · rw [account_set_of_ne hj, account_set_of_ne hj, account_set_of_ne hj]

/-- Only the last write to an address counts, with another write in between. -/
theorem set_set_set (b : Bank) (k k' : Pubkey) (x y z : RawAccount) :
    ((b.set k x).set k' y).set k z = (b.set k' y).set k z := by
  apply ext
  intro j
  by_cases hj : j = k
  · rw [hj, account_set_self, account_set_self]
  · rw [account_set_of_ne hj, account_set_of_ne hj]
    by_cases hj' : j = k'
    · rw [hj', account_set_self, account_set_self]
    · rw [account_set_of_ne hj', account_set_of_ne hj', account_set_of_ne hj]

/-- Nothing but lamports has come to the address. -/
def Free (b : Bank) (k : Pubkey) : Prop :=
  (b.account k).owner = systemProgramId ∧ (b.account k).data = []

instance (b : Bank) (k : Pubkey) : Decidable (b.Free k) :=
  inferInstanceAs (Decidable (_ ∧ _))

end Bank

/-! ## The four instructions -/

inductive SystemInstruction where
  | createAccount (source dest : Pubkey) (lamports : UInt64) (space : Nat) (owner : Pubkey)
  | transfer (source dest : Pubkey) (lamports : UInt64)
  | allocate (account : Pubkey) (space : Nat)
  | assign (account owner : Pubkey)

namespace SystemInstruction

def maxPermittedDataLength : Nat := 10 * 1024 * 1024

def accounts : SystemInstruction → List AccountMeta
  | .createAccount source dest _ _ _ => [.writable source true, .writable dest true]
  | .transfer source dest _ => [.writable source true, .writable dest false]
  | .allocate account _ => [.writable account true]
  | .assign account _ => [.writable account true]

section

variable (b : Bank)

def processTransfer (source dest : Pubkey) (lamports : UInt64) : Except ProgramError Bank := do
  rejectIf (¬b.Free source) ProgramError.invocationFailed
  let s := b.account source
  let rest ← okOr (checkedSub s.lamports lamports) ProgramError.invocationFailed
  let b := b.set source { s with lamports := rest }
  let d := b.account dest
  let sum ← okOr (checkedAdd d.lamports lamports) ProgramError.invocationFailed
  .ok (b.set dest { d with lamports := sum })

/-- The data is zero-filled. -/
def processAllocate (account : Pubkey) (space : Nat) : Except ProgramError Bank := do
  rejectIf (¬b.Free account) ProgramError.invocationFailed
  rejectIf (space > maxPermittedDataLength) ProgramError.invocationFailed
  .ok (b.set account { b.account account with data := List.replicate space 0 })

def processAssign (account owner : Pubkey) : Except ProgramError Bank := do
  rejectIf ((b.account account).owner ≠ systemProgramId) ProgramError.invocationFailed
  .ok (b.set account { b.account account with owner := owner })

/-- Rejects an address that holds lamports. -/
def processCreateAccount (source dest : Pubkey) (lamports : UInt64) (space : Nat)
    (owner : Pubkey) : Except ProgramError Bank := do
  rejectIf ((b.account dest).lamports > 0) ProgramError.invocationFailed
  let b ← processAllocate b dest space
  let b ← processAssign b dest owner
  processTransfer b source dest lamports

end

end SystemInstruction

/-! ## The program -/

/-- A system program that does what is documented. -/
structure SystemProgram where
  process : Bank → SystemInstruction → Except ProgramError Bank
  createAccount : ∀ {b b' : Bank} {source dest : Pubkey} {lamports : UInt64} {space : Nat}
    {owner : Pubkey}, process b (.createAccount source dest lamports space owner) = .ok b' ↔
      SystemInstruction.processCreateAccount b source dest lamports space owner = .ok b'
  transfer : ∀ {b b' : Bank} {source dest : Pubkey} {lamports : UInt64},
    process b (.transfer source dest lamports) = .ok b' ↔
      SystemInstruction.processTransfer b source dest lamports = .ok b'
  allocate : ∀ {b b' : Bank} {account : Pubkey} {space : Nat},
    process b (.allocate account space) = .ok b' ↔
      SystemInstruction.processAllocate b account space = .ok b'
  assign : ∀ {b b' : Bank} {account owner : Pubkey},
    process b (.assign account owner) = .ok b' ↔
      SystemInstruction.processAssign b account owner = .ok b'

end PercolatorStake
