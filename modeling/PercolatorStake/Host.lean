import PercolatorStake.Lib.Result
import PercolatorStake.Error
import PercolatorStake.State

/-!
# The host's accounts

Everything the program touches lives in accounts: an address, an owning program
and data.  The data of an account is kept by what it holds.  `other` is any data
that none of the modelled programs wrote.

An instruction names accounts with the two privileges its transaction grants.
Reading goes through the world, so an account named twice is one account.
-/

namespace PercolatorStake

open Result Word

inductive AccountState where
  | uninitialized
  | initialized
  | frozen
  deriving DecidableEq

/-- An SPL token account. -/
structure TokenAccount where
  mint : Pubkey
  owner : Pubkey
  amount : UInt64
  state : AccountState
  deriving DecidableEq

structure Mint where
  mintAuthority : Option Pubkey
  supply : UInt64
  decimals : UInt8
  isInitialized : Bool
  deriving DecidableEq

structure Clock where
  slot : UInt64
  epoch : UInt64
  deriving DecidableEq

inductive AccountData where
  | empty
  | pool (p : StakePool)
  | deposit (d : StakeDeposit)
  | token (t : TokenAccount)
  | mint (m : Mint)
  | clock (c : Clock)
  | other (bytes : List UInt8)
  deriving DecidableEq

structure Account where
  owner : Pubkey
  data : AccountData
  deriving DecidableEq

/-- Lamports are counted where the system program can send them from or finds them at a
new address.  Those of a token account, which the token program may move, are left out. -/
structure World where
  account : Pubkey → Account
  lamports : Pubkey → UInt64

/-- An account as an instruction names it. -/
structure AccountInfo where
  key : Pubkey
  isSigner : Bool
  isWritable : Bool
  deriving DecidableEq

structure AccountMeta where
  pubkey : Pubkey
  isSigner : Bool
  isWritable : Bool
  deriving DecidableEq

structure Instruction where
  programId : Pubkey
  accounts : List AccountMeta
  data : List UInt8
  deriving DecidableEq

namespace AccountMeta

/-- `AccountMeta::new`. -/
def writable (pubkey : Pubkey) (isSigner : Bool) : AccountMeta := ⟨pubkey, isSigner, true⟩

/-- `AccountMeta::new_readonly`. -/
def readonly (pubkey : Pubkey) (isSigner : Bool) : AccountMeta := ⟨pubkey, isSigner, false⟩

end AccountMeta

/-! ## Well-known addresses -/

def splTokenId : Pubkey :=
  #v[6, 221, 246, 225, 215, 101, 161, 147, 217, 203, 225, 70, 206, 235, 121, 172,
    28, 180, 133, 237, 95, 91, 55, 145, 58, 140, 245, 133, 126, 255, 0, 169]

def clockSysvarId : Pubkey :=
  #v[6, 167, 213, 23, 24, 199, 116, 201, 40, 86, 99, 152, 105, 29, 94, 182,
    139, 94, 184, 163, 155, 75, 109, 92, 115, 85, 91, 33, 0, 0, 0, 0]

def rentSysvarId : Pubkey :=
  #v[6, 167, 213, 23, 25, 44, 92, 81, 33, 140, 201, 76, 61, 74, 241, 127,
    88, 218, 238, 8, 155, 161, 253, 68, 227, 219, 217, 138, 0, 0, 0, 0]

def systemProgramId : Pubkey := Vector.replicate 32 0

def percolatorMainnet : Pubkey :=
  #v[199, 180, 231, 28, 169, 127, 223, 6, 13, 64, 223, 31, 229, 237, 183, 2,
    182, 201, 78, 87, 235, 180, 40, 205, 87, 58, 38, 116, 241, 27, 43, 41]

/-! ## Reading and writing accounts -/

def stakePoolSize : Nat := 408
def stakeDepositSize : Nat := 152
def tokenAccountLen : Nat := 165
def mintLen : Nat := 82
def clockLen : Nat := 40

def AccountData.len : AccountData → Nat
  | .empty => 0
  | .pool _ => stakePoolSize
  | .deposit _ => stakeDepositSize
  | .token _ => tokenAccountLen
  | .mint _ => mintLen
  | .clock _ => clockLen
  | .other bytes => bytes.length

namespace World

def owner (w : World) (a : AccountInfo) : Pubkey := (w.account a.key).owner

def data (w : World) (a : AccountInfo) : AccountData := (w.account a.key).data

theorem account_eq {w : World} {a : AccountInfo} {o : Pubkey} {x : AccountData}
    (ho : w.owner a = o) (hd : w.data a = x) : w.account a.key = ⟨o, x⟩ := by
  rw [← ho, ← hd]
  rfl

def set (w : World) (k : Pubkey) (x : Account) : World :=
  { w with account := fun k' => if k' = k then x else w.account k' }

@[simp] theorem account_set_self (w : World) (k : Pubkey) (x : Account) :
    (w.set k x).account k = x := if_pos rfl

theorem account_set_of_ne {w : World} {k k' : Pubkey} {x : Account} (h : k' ≠ k) :
    (w.set k x).account k' = w.account k' := if_neg h

theorem set_set (w : World) (k : Pubkey) (x y : Account) : (w.set k x).set k y = w.set k y := by
  unfold set
  refine congrArg (World.mk · w.lamports) ?_
  funext k'
  by_cases h : k' = k
  · rw [if_pos h, if_pos h]
  · rw [if_neg h, if_neg h]
    exact if_neg h

/-- Writing what is already there. -/
theorem set_account (w : World) (k : Pubkey) : w.set k (w.account k) = w := by
  unfold set
  refine congrArg (World.mk · w.lamports) ?_
  funext k'
  by_cases h : k' = k
  · rw [if_pos h, h]
  · rw [if_neg h]

/-- The same accounts with other lamports. -/
def withLamports (w : World) (l : Pubkey → UInt64) : World := { w with lamports := l }

@[simp] theorem account_withLamports (w : World) (l : Pubkey → UInt64) :
    (w.withLamports l).account = w.account := rfl

@[simp] theorem lamports_set (w : World) (k : Pubkey) (x : Account) :
    (w.set k x).lamports = w.lamports := rfl

/-- Lamports that a plain account of the system program sends. -/
def pay (w : World) (source dest : Pubkey) (lamports : UInt64) : Except ProgramError World := do
  rejectIf (w.account source ≠ ⟨systemProgramId, .empty⟩) ProgramError.invocationFailed
  let rest ← okOr (checkedSub (w.lamports source) lamports) ProgramError.invocationFailed
  let held := Function.update w.lamports source rest
  let sum ← okOr (checkedAdd (held dest) lamports) ProgramError.invocationFailed
  .ok (w.withLamports (Function.update held dest sum))

/-- Store data into an account the program owns. -/
def store (w : World) (a : AccountInfo) (x : AccountData) : Except ProgramError World := do
  rejectIf (a.isWritable = false) .readonlyDataModified
  .ok (w.set a.key { w.account a.key with data := x })

/-- The token account at an address, if the token program holds one there. -/
def token (w : World) (k : Pubkey) : Option TokenAccount :=
  match w.account k with
  | ⟨o, .token t⟩ => if o = splTokenId then some t else none
  | _ => none

def mint (w : World) (k : Pubkey) : Option Mint :=
  match w.account k with
  | ⟨o, .mint m⟩ => if o = splTokenId then some m else none
  | _ => none

/-- The pool at an address, if the program `id` holds one there. -/
def pool (w : World) (id k : Pubkey) : Option StakePool :=
  match w.account k with
  | ⟨o, .pool p⟩ => if o = id then some p else none
  | _ => none

/-- The deposit record at an address, if the program `id` holds one there. -/
def record (w : World) (id k : Pubkey) : Option StakeDeposit :=
  match w.account k with
  | ⟨o, .deposit d⟩ => if o = id then some d else none
  | _ => none

@[simp] theorem pool_withLamports (w : World) (l : Pubkey → UInt64) (id k : Pubkey) :
    (w.withLamports l).pool id k = w.pool id k := rfl

@[simp] theorem record_withLamports (w : World) (l : Pubkey → UInt64) (id k : Pubkey) :
    (w.withLamports l).record id k = w.record id k := rfl

/-- What the clock shows. -/
def clock (w : World) : Option Clock :=
  match (w.account clockSysvarId).data with
  | .clock c => some c
  | _ => none

theorem clock_eq_some {w : World} {c : Clock} :
    w.clock = some c ↔ (w.account clockSysvarId).data = .clock c := by
  unfold clock
  cases (w.account clockSysvarId).data <;> simp

theorem token_eq_some {w : World} {k : Pubkey} {t : TokenAccount} :
    w.token k = some t ↔ w.account k = ⟨splTokenId, .token t⟩ := by
  unfold token
  rcases w.account k with ⟨o, d⟩
  cases d <;> simp [and_comm]

theorem mint_eq_some {w : World} {k : Pubkey} {m : Mint} :
    w.mint k = some m ↔ w.account k = ⟨splTokenId, .mint m⟩ := by
  unfold mint
  rcases w.account k with ⟨o, d⟩
  cases d <;> simp [and_comm]

theorem pool_eq_some {w : World} {id k : Pubkey} {p : StakePool} :
    w.pool id k = some p ↔ w.account k = ⟨id, .pool p⟩ := by
  unfold pool
  rcases w.account k with ⟨o, d⟩
  cases d <;> simp [and_comm]

theorem record_eq_some {w : World} {id k : Pubkey} {d : StakeDeposit} :
    w.record id k = some d ↔ w.account k = ⟨id, .deposit d⟩ := by
  unfold record
  rcases w.account k with ⟨o, d⟩
  cases d <;> simp [and_comm]

/-- `w'` differs from `w` in the contents of token accounts and mints only. -/
structure TokensOnly (w w' : World) : Prop where
  lamports_eq : w'.lamports = w.lamports
  account_or : ∀ k, w'.account k = w.account k ∨
    (∃ t t', w.token k = some t ∧ w'.token k = some t') ∨
    ∃ m m', w.mint k = some m ∧ w'.mint k = some m'

namespace TokensOnly

variable {w w' w'' : World}

theorem refl (w : World) : TokensOnly w w := ⟨rfl, fun _ => .inl rfl⟩

theorem trans (h : TokensOnly w w') (h' : TokensOnly w' w'') : TokensOnly w w'' := by
  refine ⟨h'.lamports_eq.trans h.lamports_eq, fun k => ?_⟩
  rcases h'.account_or k with e' | ⟨t', t'', h1, h2⟩ | ⟨m', m'', h1, h2⟩
  · rcases h.account_or k with e | ⟨t, t', h1, h2⟩ | ⟨m, m', h1, h2⟩
    · exact .inl (e'.trans e)
    · exact .inr (.inl ⟨t, t', h1, by rwa [token, e']⟩)
    · exact .inr (.inr ⟨m, m', h1, by rwa [mint, e']⟩)
  · rcases h.account_or k with e | ⟨t, t₁, h3, h4⟩ | ⟨m, m₁, h3, h4⟩
    · exact .inr (.inl ⟨t', t'', by rwa [token, ← e], h2⟩)
    · exact .inr (.inl ⟨t, t'', h3, h2⟩)
    · rw [token_eq_some] at h1
      rw [mint_eq_some, h1] at h4
      cases h4
  · rcases h.account_or k with e | ⟨t, t₁, h3, h4⟩ | ⟨m, m₁, h3, h4⟩
    · exact .inr (.inr ⟨m', m'', by rwa [mint, ← e], h2⟩)
    · rw [mint_eq_some] at h1
      rw [token_eq_some, h1] at h4
      cases h4
    · exact .inr (.inr ⟨m, m'', h3, h2⟩)

theorem account_eq (h : TokensOnly w w') {k : Pubkey} (ht : w.token k = none)
    (hm : w.mint k = none) : w'.account k = w.account k := by
  rcases h.account_or k with e | ⟨t, _, h1, _⟩ | ⟨m, _, h1, _⟩
  · exact e
  · exact (Option.some_ne_none t (h1.symm.trans ht)).elim
  · exact (Option.some_ne_none m (h1.symm.trans hm)).elim

theorem pool_eq (h : TokensOnly w w') (id k : Pubkey) : w'.pool id k = w.pool id k := by
  rcases h.account_or k with e | ⟨t, t', h1, h2⟩ | ⟨m, m', h1, h2⟩
  · rw [pool, pool, e]
  · rw [token_eq_some] at h1 h2
    rw [pool, pool, h1, h2]
  · rw [mint_eq_some] at h1 h2
    rw [pool, pool, h1, h2]

theorem record_eq (h : TokensOnly w w') (id k : Pubkey) : w'.record id k = w.record id k := by
  rcases h.account_or k with e | ⟨t, t', h1, h2⟩ | ⟨m, m', h1, h2⟩
  · rw [record, record, e]
  · rw [token_eq_some] at h1 h2
    rw [record, record, h1, h2]
  · rw [mint_eq_some] at h1 h2
    rw [record, record, h1, h2]

theorem clock_eq (h : TokensOnly w w') : w'.clock = w.clock := by
  rcases h.account_or clockSysvarId with e | ⟨t, t', h1, h2⟩ | ⟨m, m', h1, h2⟩
  · rw [clock, clock, e]
  · rw [token_eq_some] at h1 h2
    rw [clock, clock, h1, h2]
  · rw [mint_eq_some] at h1 h2
    rw [clock, clock, h1, h2]

/-- Data that is neither a token account nor a mint is where it was. -/
theorem account_iff (h : TokensOnly w w') {k : Pubkey} {x : Account}
    (ht : ∀ t, x.data ≠ .token t) (hm : ∀ m, x.data ≠ .mint m) :
    w'.account k = x ↔ w.account k = x := by
  rcases h.account_or k with e | ⟨t, t', h1, h2⟩ | ⟨m, m', h1, h2⟩
  · rw [e]
  · rw [token_eq_some] at h1 h2
    rw [h1, h2]
    exact ⟨fun e => (ht t' (by rw [← e])).elim, fun e => (ht t (by rw [← e])).elim⟩
  · rw [mint_eq_some] at h1 h2
    rw [h1, h2]
    exact ⟨fun e => (hm m' (by rw [← e])).elim, fun e => (hm m (by rw [← e])).elim⟩

end TokensOnly

theorem pay_eq_ok {w w' : World} {source dest : Pubkey} {x : UInt64} :
    w.pay source dest x = .ok w' ↔ w.account source = ⟨systemProgramId, .empty⟩ ∧
      ∃ rest sum : UInt64, (w.lamports source).toNat = rest.toNat + x.toNat ∧
        sum.toNat = (Function.update w.lamports source rest dest).toNat + x.toNat ∧
        w' = w.withLamports
          (Function.update (Function.update w.lamports source rest) dest sum) := by
  unfold pay
  simp only [bind_eq_ok, rejectIf_eq_ok, okOr_eq_ok, ok_eq_ok, not_not, checkedSub_eq_some,
    checkedAdd_eq_some]
  constructor
  · rintro ⟨-, hplain, rest, hrest, sum, hsum, rfl⟩
    exact ⟨hplain, rest, sum, hrest, hsum, rfl⟩
  · rintro ⟨hplain, rest, sum, hrest, hsum, rfl⟩
    exact ⟨(), hplain, rest, hrest, sum, hsum, rfl⟩

theorem store_eq_ok {w w' : World} {a : AccountInfo} {x : AccountData} :
    w.store a x = .ok w' ↔
      a.isWritable = true ∧ w' = w.set a.key { w.account a.key with data := x } := by
  unfold store
  simp only [bind_eq_ok, rejectIf_eq_ok, ok_eq_ok, Bool.not_eq_false]
  constructor
  · rintro ⟨-, h, e⟩
    exact ⟨h, e.symm⟩
  · intro h
    exact ⟨(), h.1, h.2.symm⟩

end World

end PercolatorStake
