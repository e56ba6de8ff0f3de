import PercolatorStake.Ledger
import PercolatorStake.Processor

/-!
# Runs of the program

One pool, at the address `π`, from its creation on.  An event is an instruction of
the program on that pool, or something that happens outside of it: anybody may
send collateral to the vault, move or burn LP, and do as they like with accounts
that are not the pool's.

The world as far as the pool is concerned is its `Standing`, and what the world
says about the pool's money is a ledger.
-/

namespace PercolatorStake

open Bytes

instance : Finite Pubkey := by
  refine Finite.of_injective (fun (v : Pubkey) (i : Fin 32) => v[i].toFin) fun a b h => ?_
  ext i hi
  have e : a[i].toFin = b[i].toFin := congrFun h ⟨i, hi⟩
  exact congrArg Fin.val e

noncomputable instance : Fintype Pubkey := Fintype.ofFinite Pubkey

inductive Event where
  | instruction (ix : StakeInstruction) (accounts : List AccountInfo)
  | outside (inflow : Nat)

namespace Event

/-- Collateral sent to the vault by third parties. -/
def inflow : Event → Nat
  | .outside x => x
  | .instruction .. => 0

end Event

namespace Context

variable (ctx : Context) (π : Pubkey)

def vaultAuthority : Pubkey := (ctx.derivation.deriveVaultAuthority ctx.programId π).1

def depositPda (user : Pubkey) : Pubkey :=
  (ctx.derivation.deriveDepositPda ctx.programId π user).1

/-- What happens outside the program.  The pool and its records belong to the
program, so nobody else writes them.  The vault belongs to the vault authority, so
others can only add to it.  LP can be burned by its holders but not minted. -/
structure Outside (x : Nat) (w w' : World) : Prop where
  pool_eq : w'.pool ctx.programId π = w.pool ctx.programId π
  vault_eq : ∀ {p t}, w.pool ctx.programId π = some p → w.token p.vault = some t →
    ∃ amount, amount.toNat = t.amount.toNat + x ∧
      w'.token p.vault = some { t with amount := amount }
  mint_eq : ∀ {p m}, w.pool ctx.programId π = some p → w.mint p.lpMint = some m →
    ∃ supply, supply.toNat ≤ m.supply.toNat ∧ w'.mint p.lpMint = some { m with supply := supply }
  record_iff : ∀ k d, d.pool = π →
    (w'.record ctx.programId k = some d ↔ w.record ctx.programId k = some d)
  pda_eq : ∀ user, w'.record ctx.programId (ctx.depositPda π user) =
    w.record ctx.programId (ctx.depositPda π user)

/-- One event.  The vault authority is a derived address: no transaction carries
its signature, only the program itself signs for it. -/
def Step (w : World) (e : Event) (w' : World) : Prop :=
  match e with
  | .instruction ix accounts =>
    (∃ a, ix.poolAccount accounts = some a ∧ a.key = π) ∧
      (∀ a ∈ accounts, a.isSigner = true → a.key ≠ ctx.vaultAuthority π) ∧
      process ctx w accounts ix = .ok w'
  | .outside x => ctx.Outside π x w w'

/-- No record of the program belongs to a pool that does not exist yet. -/
structure Fresh (w : World) : Prop where
  record_pool : ∀ k d, w.record ctx.programId k = some d → d.pool ≠ π
  pda_none : ∀ user, w.record ctx.programId (ctx.depositPda π user) = none

/-- The state right after the pool was created. -/
def Genesis (w : World) : Prop :=
  ∃ w₀ ix accounts, ctx.Fresh π w₀ ∧
    (∃ cooldownSlots depositCap, ix = .initPool cooldownSlots depositCap ∨
      ix = .initTradingPool cooldownSlots depositCap) ∧
    (∃ a, ix.poolAccount accounts = some a ∧ a.key = π) ∧
    process ctx w₀ accounts ix = .ok w

/-- `w` is reached by the events `es` from the creation of the pool. -/
def Reached (es : List Event) (w : World) : Prop :=
  ∃ w₀, ctx.Genesis π w₀ ∧ Transition.Run (ctx.Step π) w₀ es w

end Context

/-! ## The standing of a pool -/

/-- What a pool is set up as, for the address `π`. -/
structure Chartered (ctx : Context) (π : Pubkey) (c : Charter) : Prop where
  initialized : c.isInitialized = 1
  discriminator : c.discriminator = decodeLe stakePoolDiscriminator
  version : c.version = StakePool.currentVersion
  authority_bump : c.vaultAuthorityBump =
    (ctx.derivation.deriveVaultAuthority ctx.programId π).2
  pool_eq : ctx.derivation.derivePoolPda ctx.programId c.slab = (π, c.bump)
  program : c.percolatorProgram = percolatorMainnet
  mode : c.poolMode ≤ 1
  mints : c.lpMint ≠ c.collateralMint

/-- The pool `p` with its vault `t` and its LP mint `m`, as the world `w` has
them. -/
structure Standing (ctx : Context) (π : Pubkey) (w : World) (p : StakePool) (t : TokenAccount)
    (m : Mint) : Prop where
  pool_eq : w.pool ctx.programId π = some p
  chartered : Chartered ctx π p.charter
  vault_eq : w.token p.vault = some t
  vault_mint : t.mint = p.collateralMint
  vault_owner : t.owner = ctx.vaultAuthority π
  vault_live : t.state = .initialized
  mint_eq : w.mint p.lpMint = some m
  mint_live : m.isInitialized = true
  mint_authority : m.mintAuthority = some (ctx.vaultAuthority π)
  record_eq : ∀ user d, w.record ctx.programId (ctx.depositPda π user) = some d →
    d.pool = π ∧ d.validateDiscriminator = true

/-- A record of the pool `π` as a position. -/
def positionOf (π : Pubkey) : Option StakeDeposit → Position
  | some d => if d.pool = π then ⟨d.lpAmount.toNat, d.isJuniorDeposit, d.isInitialized == 1⟩
    else .none
  | none => .none

def World.positions (w : World) (id π : Pubkey) (k : Pubkey) : Position :=
  positionOf π (w.record id k)

section

variable {ctx : Context} {π k : Pubkey} {w : World}

theorem positions_of_record {d : StakeDeposit}
    (hr : w.record ctx.programId k = some d) (hd : d.pool = π) :
    w.positions ctx.programId π k =
      ⟨d.lpAmount.toNat, d.isJuniorDeposit, d.isInitialized == 1⟩ := by
  unfold World.positions
  rw [hr]
  exact if_pos hd

/-- A live position comes from a record. -/
theorem record_of_live (h : (w.positions ctx.programId π k).live = true) :
    ∃ d, w.record ctx.programId k = some d ∧ d.pool = π := by
  unfold World.positions at h
  cases hr : w.record ctx.programId k with
  | none =>
    rw [hr] at h
    cases h
  | some d =>
    rw [hr] at h
    by_cases hd : d.pool = π
    · exact ⟨d, rfl, hd⟩
    · rw [positionOf, if_neg hd] at h
      cases h

end

/-- The ledger of a pool: its books, its vault and its records. -/
def ledgerOf (ctx : Context) (π : Pubkey) (w : World) (p : StakePool) (t : TokenAccount) :
    Ledger Pubkey :=
  ⟨p.book, t.amount.toNat, w.positions ctx.programId π⟩

/-- The pool still stands in `w'`, and its ledger got there by the moves `ms`. -/
def Simulated (ctx : Context) (π : Pubkey) (w : World) (p : StakePool) (t : TokenAccount)
    (ms : List (Move Pubkey)) (w' : World) : Prop :=
  ∃ p' t' m', Standing ctx π w' p' t' m' ∧ p'.charter = p.charter ∧
    Transition.Run Ledger.Step (ledgerOf ctx π w p t) ms (ledgerOf ctx π w' p' t')

/-! ## Changes of the world -/

section Changes

variable {ctx : Context} {π k : Pubkey} {w w' : World} {p p' : StakePool} {t t' : TokenAccount}
  {m m' : Mint} {d : StakeDeposit}

theorem vault_of_charter (h : p'.charter = p.charter) : p'.vault = p.vault :=
  congrArg Charter.vault h

theorem lpMint_of_charter (h : p'.charter = p.charter) : p'.lpMint = p.lpMint :=
  congrArg Charter.lpMint h

theorem collateralMint_of_charter (h : p'.charter = p.charter) :
    p'.collateralMint = p.collateralMint :=
  congrArg Charter.collateralMint h

theorem World.TokensOnly.positions_eq (h : World.TokensOnly w w') (id : Pubkey) :
    w'.positions id π = w.positions id π := by
  funext k
  rw [World.positions, World.positions, h.record_eq]

theorem Standing.program_ne (h : Standing ctx π w p t m) : p.percolatorProgram ≠ splTokenId := by
  rw [show p.percolatorProgram = percolatorMainnet from h.chartered.program]
  decide

/-- Tokens moved, and the vault and the LP mint are known afterwards. -/
theorem Standing.tokens (h : Standing ctx π w p t m) (hw : World.TokensOnly w w') {v s : UInt64}
    (ht : w'.token p.vault = some { t with amount := v })
    (hm : w'.mint p.lpMint = some { m with supply := s }) :
    Standing ctx π w' p { t with amount := v } { m with supply := s } where
  pool_eq := (hw.pool_eq _ _).trans h.pool_eq
  chartered := h.chartered
  vault_eq := ht
  vault_mint := h.vault_mint
  vault_owner := h.vault_owner
  vault_live := h.vault_live
  mint_eq := hm
  mint_live := h.mint_live
  mint_authority := h.mint_authority
  record_eq := fun user d hd => h.record_eq user d ((hw.record_eq _ _).symm.trans hd)

/-- Writing the pool changes nothing else. -/
theorem Standing.setPool (h : Standing ctx π w p t m) (hc : p'.charter = p.charter) :
    Standing ctx π (w.set π ⟨ctx.programId, .pool p'⟩) p' t m := by
  have hπ := World.pool_eq_some.mp h.pool_eq
  have hne : ∀ {k x}, w.account k = x → (∀ q, x.data ≠ .pool q) → k ≠ π := by
    rintro k x hk hx rfl
    rw [hπ] at hk
    exact hx p (by rw [← hk])
  have hvault := World.token_eq_some.mp h.vault_eq
  have hmint := World.mint_eq_some.mp h.mint_eq
  refine ⟨?_, hc ▸ h.chartered, ?_, ?_, h.vault_owner, h.vault_live, ?_, h.mint_live,
    h.mint_authority, ?_⟩
  · rw [World.pool_eq_some, World.account_set_self]
  · rw [vault_of_charter hc, World.token_eq_some,
      World.account_set_of_ne (hne hvault (fun _ e => by cases e)), hvault]
  · rw [collateralMint_of_charter hc]
    exact h.vault_mint
  · rw [lpMint_of_charter hc, World.mint_eq_some,
      World.account_set_of_ne (hne hmint (fun _ e => by cases e)), hmint]
  · intro user d hd
    rw [World.record_eq_some] at hd
    by_cases hk : ctx.depositPda π user = π
    · rw [hk, World.account_set_self] at hd
      cases hd
    · rw [World.account_set_of_ne hk] at hd
      exact h.record_eq user d (World.record_eq_some.mpr hd)

/-- Nothing of a pool is in lamports. -/
theorem Standing.withLamports (h : Standing ctx π w p t m) (l : Pubkey → UInt64) :
    Standing ctx π (w.withLamports l) p t m :=
  ⟨h.pool_eq, h.chartered, h.vault_eq, h.vault_mint, h.vault_owner, h.vault_live, h.mint_eq,
    h.mint_live, h.mint_authority, h.record_eq⟩

theorem positions_withLamports (w : World) (l : Pubkey → UInt64) (id π : Pubkey) :
    (w.withLamports l).positions id π = w.positions id π := rfl

theorem Standing.positions_setPool (h : Standing ctx π w p t m) (p' : StakePool) :
    (w.set π ⟨ctx.programId, .pool p'⟩).positions ctx.programId π =
      w.positions ctx.programId π := by
  have hπ := World.pool_eq_some.mp h.pool_eq
  funext k
  unfold World.positions World.record
  by_cases hk : k = π
  · rw [hk, World.account_set_self, hπ]
  · rw [World.account_set_of_ne hk]

/-- Writing a record where a record was, or where nothing was. -/
theorem Standing.setRecord (h : Standing ctx π w p t m)
    (hk : (∃ d₀, w.account k = ⟨ctx.programId, .deposit d₀⟩) ∨
      w.account k = ⟨systemProgramId, .empty⟩)
    (hpool : d.pool = π) (hdisc : d.validateDiscriminator = true) :
    Standing ctx π (w.set k ⟨ctx.programId, .deposit d⟩) p t m := by
  have hne : ∀ {k' x}, w.account k' = x → (∀ q, x.data ≠ .deposit q) → x.data ≠ .empty →
      k' ≠ k := by
    rintro k' x hk' hx hempty rfl
    rcases hk with ⟨d₀, e⟩ | e
    · exact hx d₀ (by rw [← hk', e])
    · exact hempty (by rw [← hk', e])
  have hπ := World.pool_eq_some.mp h.pool_eq
  have hvault := World.token_eq_some.mp h.vault_eq
  have hmint := World.mint_eq_some.mp h.mint_eq
  refine ⟨?_, h.chartered, ?_, h.vault_mint, h.vault_owner, h.vault_live, ?_, h.mint_live,
    h.mint_authority, ?_⟩
  · rw [World.pool_eq_some,
      World.account_set_of_ne (hne hπ (fun _ e => by cases e) (fun e => by cases e)), hπ]
  · rw [World.token_eq_some,
      World.account_set_of_ne (hne hvault (fun _ e => by cases e) (fun e => by cases e)), hvault]
  · rw [World.mint_eq_some,
      World.account_set_of_ne (hne hmint (fun _ e => by cases e) (fun e => by cases e)), hmint]
  · intro user d' hd
    rw [World.record_eq_some] at hd
    by_cases hu : ctx.depositPda π user = k
    · rw [hu, World.account_set_self] at hd
      cases hd
      exact ⟨hpool, hdisc⟩
    · rw [World.account_set_of_ne hu] at hd
      exact h.record_eq user d' (World.record_eq_some.mpr hd)

theorem positions_setRecord :
    (w.set k ⟨ctx.programId, .deposit d⟩).positions ctx.programId π =
      Function.update (w.positions ctx.programId π) k (positionOf π (some d)) := by
  funext k'
  by_cases hk : k' = k
  · rw [hk, Function.update_self, World.positions, World.record_eq_some.mpr]
    exact World.account_set_self ..
  · rw [Function.update_of_ne hk, World.positions, World.positions, World.record, World.record,
      World.account_set_of_ne hk]

end Changes

end PercolatorStake
