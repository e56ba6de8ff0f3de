import PercolatorStake.Host

/-!
# The token program

The instruction builders of the source at wire level, the parsers it reads token
accounts with, and what the documentation of the token program says of the five
instructions built here.  It moves exactly the amount it is told to, on the signature
of the owner, or fails.
-/

namespace PercolatorStake

open Bytes Result Word

namespace SplToken

def ixInitializeMint : UInt8 := 0
def ixInitializeAccount : UInt8 := 1
def ixTransfer : UInt8 := 3
def ixMintTo : UInt8 := 7
def ixBurn : UInt8 := 8

/-! ## Builders -/

def initializeMint (mint mintAuthority : Pubkey) (freezeAuthority : Option Pubkey)
    (decimals : UInt8) : Instruction where
  programId := splTokenId
  accounts := [.writable mint false, .readonly rentSysvarId false]
  data := ixInitializeMint :: decimals :: mintAuthority.toList ++
    match freezeAuthority with
    | none => [0]
    | some auth => 1 :: auth.toList

def initializeAccount (account mint owner : Pubkey) : Instruction where
  programId := splTokenId
  accounts := [.writable account false, .readonly mint false, .readonly owner false,
    .readonly rentSysvarId false]
  data := [ixInitializeAccount]

/-- Transfer, mint and burn share one layout: a tag and the amount. -/
def amountInstruction (tag : UInt8) (a b authority : Pubkey) (amount : UInt64) : Instruction where
  programId := splTokenId
  accounts := [.writable a false, .writable b false, .readonly authority true]
  data := tag :: encodeLe 8 amount.toNat

def transfer (source dest authority : Pubkey) (amount : UInt64) : Instruction :=
  amountInstruction ixTransfer source dest authority amount

def mintTo (mint destination authority : Pubkey) (amount : UInt64) : Instruction :=
  amountInstruction ixMintTo mint destination authority amount

def burn (account mint authority : Pubkey) (amount : UInt64) : Instruction :=
  amountInstruction ixBurn account mint authority amount

/-! ## Parsers -/

/-- `Account::unpack`: amount and state of a token account. -/
def unpackAccount : AccountData → Except ProgramError (UInt64 × AccountState)
  | .token t => .ok (t.amount, t.state)
  | .other bytes =>
    if bytes.length < tokenAccountLen then .error .invalidAccountData
    else .ok (UInt64.ofNat (decodeLe ((bytes.drop 64).take 8)),
      match bytes.getD 108 0 with
      | 0 => .uninitialized
      | 1 => .initialized
      | _ => .frozen)
  | _ => .error .invalidAccountData

/-- `Mint::unpack`, of which only the decimals are used. -/
def unpackMintDecimals : AccountData → Except ProgramError UInt8
  | .mint m => .ok m.decimals
  | .other bytes =>
    if bytes.length < mintLen then .error .invalidAccountData else .ok (bytes.getD 44 0)
  | _ => .error .invalidAccountData

/-- Bytes 0–31 and 32–63 of token account data: its mint and its owner. -/
def header : AccountData → Except ProgramError (List UInt8 × List UInt8)
  | .token t => .ok (t.mint.toList, t.owner.toList)
  | .other bytes =>
    if bytes.length < tokenAccountLen then .error StakeError.invalidAccount
    else .ok (bytes.take 32, (bytes.drop 32).take 32)
  | _ => .error StakeError.invalidAccount

/-! ## The five instructions -/

def setToken (w : World) (k : Pubkey) (t : TokenAccount) : World :=
  w.set k ⟨splTokenId, .token t⟩

def setMint (w : World) (k : Pubkey) (m : Mint) : World :=
  w.set k ⟨splTokenId, .mint m⟩

def liveToken (w : World) (k : Pubkey) : Except ProgramError TokenAccount := do
  let t ← okOr (w.token k) ProgramError.invocationFailed
  rejectIf (t.state ≠ .initialized) ProgramError.invocationFailed
  .ok t

/-- Move tokens between two accounts of one mint.  A transfer of an account to
itself is a no-op. -/
def moveTokens (w : World) (source dest : Pubkey) (amount : UInt64) :
    Except ProgramError World := do
  let s ← liveToken w source
  let d ← liveToken w dest
  rejectIf (s.mint ≠ d.mint) ProgramError.invocationFailed
  let sAmount ← okOr (checkedSub s.amount amount) ProgramError.invocationFailed
  if source = dest then .ok w
  else do
    let dAmount ← okOr (checkedAdd d.amount amount) ProgramError.invocationFailed
    .ok (setToken (setToken w source { s with amount := sAmount }) dest
      { d with amount := dAmount })

def requireOwner (w : World) (k authority : Pubkey) : Except ProgramError Unit := do
  let t ← liveToken w k
  rejectIf (t.owner ≠ authority) ProgramError.invocationFailed

def processTransfer (w : World) (source dest authority : Pubkey) (amount : UInt64) :
    Except ProgramError World := do
  requireOwner w source authority
  moveTokens w source dest amount

def processMintTo (w : World) (mint dest authority : Pubkey) (amount : UInt64) :
    Except ProgramError World := do
  let d ← liveToken w dest
  let m ← okOr (w.mint mint) ProgramError.invocationFailed
  rejectIf (m.isInitialized = false ∨ d.mint ≠ mint ∨ m.mintAuthority ≠ some authority)
    ProgramError.invocationFailed
  let dAmount ← okOr (checkedAdd d.amount amount) ProgramError.invocationFailed
  let supply ← okOr (checkedAdd m.supply amount) ProgramError.invocationFailed
  .ok (setMint (setToken w dest { d with amount := dAmount }) mint { m with supply := supply })

def processBurn (w : World) (account mint authority : Pubkey) (amount : UInt64) :
    Except ProgramError World := do
  requireOwner w account authority
  let s ← liveToken w account
  let m ← okOr (w.mint mint) ProgramError.invocationFailed
  rejectIf (m.isInitialized = false ∨ s.mint ≠ mint) ProgramError.invocationFailed
  let sAmount ← okOr (checkedSub s.amount amount) ProgramError.invocationFailed
  let supply ← okOr (checkedSub m.supply amount) ProgramError.invocationFailed
  .ok (setMint (setToken w account { s with amount := sAmount }) mint { m with supply := supply })

def processInitializeMint (w : World) (mint : Pubkey) (authority : List UInt8)
    (decimals : UInt8) : Except ProgramError World := do
  let m ← okOr (w.mint mint) ProgramError.invocationFailed
  rejectIf (m.isInitialized = true ∨ authority.length ≠ 32) ProgramError.invocationFailed
  .ok (setMint w mint ⟨some (Vector.ofFn fun i => authority.getD i 0), 0, decimals, true⟩)

def processInitializeAccount (w : World) (account mint owner : Pubkey) :
    Except ProgramError World := do
  let t ← okOr (w.token account) ProgramError.invocationFailed
  rejectIf (t.state ≠ .uninitialized) ProgramError.invocationFailed
  let m ← okOr (w.mint mint) ProgramError.invocationFailed
  rejectIf (m.isInitialized = false) ProgramError.invocationFailed
  .ok (setToken w account ⟨mint, owner, 0, .initialized⟩)

/-! ## Effects -/

section Set

variable {w : World} {k k' : Pubkey} {t t₀ : TokenAccount} {m m₀ : Mint}

@[simp] theorem token_setToken_self : (setToken w k t).token k = some t := by
  rw [World.token_eq_some, setToken, World.account_set_self]

theorem token_setToken_of_ne (h : k' ≠ k) : (setToken w k t).token k' = w.token k' := by
  rw [World.token, World.token, setToken, World.account_set_of_ne h]

theorem mint_setToken (h : w.token k = some t₀) : (setToken w k t).mint k' = w.mint k' := by
  by_cases hk : k' = k
  · rw [World.token_eq_some] at h
    rw [hk, World.mint, World.mint, h, setToken, World.account_set_self]
  · rw [World.mint, World.mint, setToken, World.account_set_of_ne hk]

theorem setToken_tokensOnly (h : w.token k = some t₀) : World.TokensOnly w (setToken w k t) := by
  refine ⟨rfl, fun k' => ?_⟩
  by_cases hk : k' = k
  · exact .inr (.inl ⟨t₀, t, by rw [hk, h], by rw [hk, token_setToken_self]⟩)
  · exact .inl (World.account_set_of_ne hk)

@[simp] theorem mint_setMint_self : (setMint w k m).mint k = some m := by
  rw [World.mint_eq_some, setMint, World.account_set_self]

theorem mint_setMint_of_ne (h : k' ≠ k) : (setMint w k m).mint k' = w.mint k' := by
  rw [World.mint, World.mint, setMint, World.account_set_of_ne h]

theorem token_setMint (h : w.mint k = some m₀) : (setMint w k m).token k' = w.token k' := by
  by_cases hk : k' = k
  · rw [World.mint_eq_some] at h
    rw [hk, World.token, World.token, h, setMint, World.account_set_self]
  · rw [World.token, World.token, setMint, World.account_set_of_ne hk]

theorem setMint_tokensOnly (h : w.mint k = some m₀) : World.TokensOnly w (setMint w k m) := by
  refine ⟨rfl, fun k' => ?_⟩
  by_cases hk : k' = k
  · exact .inr (.inr ⟨m₀, m, by rw [hk, h], by rw [hk, mint_setMint_self]⟩)
  · exact .inl (World.account_set_of_ne hk)

end Set

theorem liveToken_eq_ok {w : World} {k : Pubkey} {t : TokenAccount} :
    liveToken w k = .ok t ↔ w.token k = some t ∧ t.state = .initialized := by
  unfold liveToken
  simp only [bind_eq_ok, okOr_eq_ok, rejectIf_eq_ok, ok_eq_ok, not_not]
  constructor
  · rintro ⟨t', h, -, hs, rfl⟩
    exact ⟨h, hs⟩
  · intro h
    exact ⟨t, h.1, (), h.2, rfl⟩

/-- Between two different accounts, exactly `amount` moves. -/
theorem moveTokens_eq_ok {w w' : World} {source dest : Pubkey} {amount : UInt64}
    (hne : source ≠ dest) :
    moveTokens w source dest amount = .ok w' ↔ ∃ s d sAmount dAmount,
      w.token source = some s ∧ s.state = .initialized ∧ w.token dest = some d ∧
      d.state = .initialized ∧ s.mint = d.mint ∧
      s.amount.toNat = sAmount.toNat + amount.toNat ∧
      dAmount.toNat = d.amount.toNat + amount.toNat ∧
      w' = setToken (setToken w source { s with amount := sAmount }) dest
        { d with amount := dAmount } := by
  unfold moveTokens
  simp only [bind_eq_ok, liveToken_eq_ok, rejectIf_eq_ok, okOr_eq_ok, not_not, if_neg hne,
    ok_eq_ok, checkedSub_eq_some, checkedAdd_eq_some]
  refine ⟨?_, ?_⟩
  · rintro ⟨s, ⟨hs, hss⟩, d, ⟨hd, hds⟩, -, hm, sA, hsA, dA, hdA, rfl⟩
    exact ⟨s, d, sA, dA, hs, hss, hd, hds, hm, hsA, hdA, rfl⟩
  · rintro ⟨s, d, sA, dA, hs, hss, hd, hds, hm, hsA, hdA, rfl⟩
    exact ⟨s, ⟨hs, hss⟩, d, ⟨hd, hds⟩, (), hm, sA, hsA, dA, hdA, rfl⟩

theorem requireOwner_eq_ok {w : World} {k authority : Pubkey} {u : Unit} :
    requireOwner w k authority = .ok u ↔
      ∃ t, w.token k = some t ∧ t.state = .initialized ∧ t.owner = authority := by
  unfold requireOwner
  simp only [bind_eq_ok, liveToken_eq_ok, rejectIf_eq_ok, not_not, and_assoc]

theorem processTransfer_eq_ok {w w' : World} {source dest authority : Pubkey} {amount : UInt64} :
    processTransfer w source dest authority amount = .ok w' ↔
      (∃ t, w.token source = some t ∧ t.state = .initialized ∧ t.owner = authority) ∧
        moveTokens w source dest amount = .ok w' := by
  unfold processTransfer
  simp only [bind_eq_ok, requireOwner_eq_ok]
  constructor
  · rintro ⟨-, h⟩
    exact h
  · intro h
    exact ⟨(), h⟩

theorem processMintTo_eq_ok {w w' : World} {mint dest authority : Pubkey} {amount : UInt64} :
    processMintTo w mint dest authority amount = .ok w' ↔ ∃ d m dAmount supply,
      w.token dest = some d ∧ d.state = .initialized ∧ w.mint mint = some m ∧
      m.isInitialized = true ∧ d.mint = mint ∧ m.mintAuthority = some authority ∧
      dAmount.toNat = d.amount.toNat + amount.toNat ∧
      supply.toNat = m.supply.toNat + amount.toNat ∧
      w' = setMint (setToken w dest { d with amount := dAmount }) mint
        { m with supply := supply } := by
  unfold processMintTo
  simp only [bind_eq_ok, liveToken_eq_ok, rejectIf_eq_ok, okOr_eq_ok, not_or, not_not,
    Bool.not_eq_false, ok_eq_ok, checkedAdd_eq_some]
  refine ⟨?_, ?_⟩
  · rintro ⟨d, ⟨hd, hds⟩, m, hm, -, ⟨hi, hdm, ha⟩, dA, hdA, su, hsu, rfl⟩
    exact ⟨d, m, dA, su, hd, hds, hm, hi, hdm, ha, hdA, hsu, rfl⟩
  · rintro ⟨d, m, dA, su, hd, hds, hm, hi, hdm, ha, hdA, hsu, rfl⟩
    exact ⟨d, ⟨hd, hds⟩, m, hm, (), ⟨hi, hdm, ha⟩, dA, hdA, su, hsu, rfl⟩

theorem processBurn_eq_ok {w w' : World} {account mint authority : Pubkey} {amount : UInt64} :
    processBurn w account mint authority amount = .ok w' ↔ ∃ s m sAmount supply,
      w.token account = some s ∧ s.state = .initialized ∧ s.owner = authority ∧
      w.mint mint = some m ∧ m.isInitialized = true ∧ s.mint = mint ∧
      s.amount.toNat = sAmount.toNat + amount.toNat ∧
      m.supply.toNat = supply.toNat + amount.toNat ∧
      w' = setMint (setToken w account { s with amount := sAmount }) mint
        { m with supply := supply } := by
  unfold processBurn
  simp only [bind_eq_ok, requireOwner_eq_ok, liveToken_eq_ok, rejectIf_eq_ok, okOr_eq_ok, not_or,
    not_not, Bool.not_eq_false, ok_eq_ok, checkedSub_eq_some]
  refine ⟨?_, ?_⟩
  · rintro ⟨-, ⟨s', hs', -, ho⟩, s, ⟨hs, hss⟩, m, hm, -, ⟨hi, hsm⟩, sA, hsA, su, hsu, rfl⟩
    obtain rfl : s' = s := Option.some_inj.mp (hs'.symm.trans hs)
    exact ⟨s', m, sA, su, hs, hss, ho, hm, hi, hsm, hsA, hsu, rfl⟩
  · rintro ⟨s, m, sA, su, hs, hss, ho, hm, hi, hsm, hsA, hsu, rfl⟩
    exact ⟨(), ⟨s, hs, hss, ho⟩, s, ⟨hs, hss⟩, m, hm, (), ⟨hi, hsm⟩, sA, hsA, su, hsu, rfl⟩

theorem processInitializeMint_eq_ok {w w' : World} {mint authority : Pubkey} {decimals : UInt8} :
    processInitializeMint w mint authority.toList decimals = .ok w' ↔
      ∃ m, w.mint mint = some m ∧ m.isInitialized = false ∧
        w' = setMint w mint ⟨some authority, 0, decimals, true⟩ := by
  unfold processInitializeMint
  simp only [bind_eq_ok, okOr_eq_ok, rejectIf_eq_ok, ok_eq_ok, not_or, not_not, Bool.not_eq_true,
    Vector.length_toList, ofFn_toList]
  refine ⟨?_, ?_⟩
  · rintro ⟨m, hm, -, ⟨hi, -⟩, rfl⟩
    exact ⟨m, hm, hi, rfl⟩
  · rintro ⟨m, hm, hi, rfl⟩
    exact ⟨m, hm, (), ⟨hi, trivial⟩, rfl⟩

theorem processInitializeAccount_eq_ok {w w' : World} {account mint owner : Pubkey} :
    processInitializeAccount w account mint owner = .ok w' ↔
      ∃ t m, w.token account = some t ∧ t.state = .uninitialized ∧ w.mint mint = some m ∧
        m.isInitialized = true ∧ w' = setToken w account ⟨mint, owner, 0, .initialized⟩ := by
  unfold processInitializeAccount
  simp only [bind_eq_ok, okOr_eq_ok, rejectIf_eq_ok, ok_eq_ok, not_not, Bool.not_eq_false]
  refine ⟨?_, ?_⟩
  · rintro ⟨t, ht, -, hs, m, hm, -, hi, rfl⟩
    exact ⟨t, m, ht, hs, hm, hi, rfl⟩
  · rintro ⟨t, m, ht, hs, hm, hi, rfl⟩
    exact ⟨t, ht, (), hs, m, hm, (), hi, rfl⟩

end SplToken

end PercolatorStake
