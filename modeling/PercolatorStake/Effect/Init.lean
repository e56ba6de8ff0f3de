import PercolatorStake.Effect.Insurance

/-!
# What creating a pool does

A new pool stands, with an empty vault, an LP mint that has minted nothing and
empty books.  An existing one cannot be created again.
-/

namespace PercolatorStake

open Bytes Result Word

theorem InitAccounts.next_eq_ok {accounts : List AccountInfo} {a : InitAccounts}
    (h : InitAccounts.next accounts = .ok a) : accounts[2]? = some a.poolPda := by
  unfold InitAccounts.next at h
  split at h <;> cases h
  rfl

theorem validateInit_eq_ok {ctx : Context} {w : World} {a : InitAccounts} {slots : UInt64}
    {u : Unit} (h : validateInit ctx w a slots = .ok u) :
    a.percolatorProgram.key = percolatorMainnet ∧
      a.poolPda.key = (ctx.derivation.derivePoolPda ctx.programId a.slab.key).1 ∧
      w.data a.poolPda = .empty ∧ a.vaultAuth.key = ctx.vaultAuthority a.poolPda.key ∧
      a.lpMint.key ≠ a.collateralMint.key := by
  unfold validateInit at h
  simp only [bind_eq_ok, rejectIf_eq_ok, not_not] at h
  obtain ⟨_, -, _, h1, _, -, _, h2, _, h3, _, h4, _, h5, -⟩ := h
  exact ⟨h1, h2, h3, h4, h5⟩

theorem validateInit_signed {ctx : Context} {w : World} {a : InitAccounts} {slots : UInt64}
    {u : Unit} (h : validateInit ctx w a slots = .ok u) : a.admin.isSigner = true := by
  unfold validateInit requireSigner at h
  simp only [bind_eq_ok, rejectIf_eq_ok, Bool.not_eq_false] at h
  obtain ⟨_, hsigner, -⟩ := h
  exact hsigner

/-- The LP mint and the vault are initialized, and nothing but tokens changed. -/
theorem createTokenAccounts_eq_ok {ctx : Context} {w w' : World} {a : InitAccounts}
    (h : createTokenAccounts ctx w a = .ok w') :
    World.TokensOnly w w' ∧
      (∃ decimals, w'.mint a.lpMint.key = some ⟨some a.vaultAuth.key, 0, decimals, true⟩) ∧
      w'.token a.vault.key = some ⟨a.collateralMint.key, a.vaultAuth.key, 0, .initialized⟩ := by
  unfold createTokenAccounts at h
  simp only [bind_eq_ok] at h
  obtain ⟨_, -, decimals, -, w₁, hmint, hvault⟩ := h
  have hmint := Context.initializeMint_of_invokeSigned hmint
  have hvault := Context.initializeAccount_of_invokeSigned hvault
  rw [SplToken.processInitializeMint_eq_ok] at hmint
  rw [SplToken.processInitializeAccount_eq_ok] at hvault
  obtain ⟨m₀, hm₀, -, rfl⟩ := hmint
  obtain ⟨t₀, _, ht₀, -, -, -, rfl⟩ := hvault
  refine ⟨(SplToken.setMint_tokensOnly hm₀).trans (SplToken.setToken_tokensOnly ht₀),
    ⟨decimals, ?_⟩, SplToken.token_setToken_self⟩
  rw [SplToken.mint_setToken ht₀, SplToken.mint_setMint_self]

/-- The stages of a successful creation. -/
theorem processInitPool_stages {ctx : Context} {w w' : World} {accounts : List AccountInfo}
    {slots cap : UInt64} (h : processInitPool ctx w accounts slots cap = .ok w') :
    ∃ a w₁ l, InitAccounts.next accounts = .ok a ∧ validateInit ctx w a slots = .ok () ∧
      createTokenAccounts ctx
        ((w.withLamports l).set a.poolPda.key ⟨ctx.programId, .pool .zeroed⟩) a = .ok w₁ ∧
      w' = w₁.set a.poolPda.key
        ⟨ctx.programId, .pool (initialPool ctx a .zeroed slots cap)⟩ := by
  unfold processInitPool at h
  simp only [bind_eq_ok, poolFromData_eq_ok] at h
  obtain ⟨a, ha, _, hval, w₀, hopen, w₁, hcpi, w₂, hcreate, q, hq, hstore⟩ := h
  obtain ⟨-, l, rfl⟩ := Context.createOrAdoptPda_writes hopen
  obtain rfl := Context.world_of_invokeSigned (.updateAuthority ..) hcpi
  have hpool : w₂.pool ctx.programId a.poolPda.key = some .zeroed := by
    rw [(createTokenAccounts_eq_ok hcreate).1.pool_eq, World.pool_eq_some, World.account_set_self]
  obtain rfl : StakePool.zeroed = q := by
    rw [World.data, World.pool_eq_some.mp hpool] at hq
    cases hq
    rfl
  obtain ⟨-, rfl⟩ := (store_pool_eq_ok rfl hpool).mp hstore
  exact ⟨a, w₂, l, ha, hval, hcreate, rfl⟩

/-! ## The new pool -/

def Book.empty : Book := ⟨0, 0, 0, 0, 0, 0, 0, 0, 0, 0, 0, false⟩

/-- The reserved bytes of a new pool: marked, versioned and otherwise zero. -/
def blankReserved : Vector UInt8 64 :=
  setByte (setDiscriminatorBytes (Vector.replicate 64 0) stakePoolDiscriminator) 8
    StakePool.currentVersion

theorem blankReserved_fields :
    readLe blankReserved 0 8 = decodeLe stakePoolDiscriminator ∧
      byteAt blankReserved 8 = StakePool.currentVersion ∧ byteAt blankReserved 32 = 0 ∧
      readLe blankReserved 33 8 = 0 ∧ readLe blankReserved 41 8 = 0 ∧
      readLe blankReserved 49 2 = 0 ∧ readLe blankReserved 51 8 = 0 := by
  decide +kernel

theorem reserved_initialPool (ctx : Context) (a : InitAccounts) (slots cap : UInt64) :
    (initialPool ctx a .zeroed slots cap).reserved = blankReserved := rfl

theorem book_initialPool (ctx : Context) (a : InitAccounts) (slots cap : UInt64) :
    (initialPool ctx a .zeroed slots cap).book = Book.empty := by
  obtain ⟨-, -, ht, hjb, hjl, hm, hl⟩ := blankReserved_fields
  unfold StakePool.book StakePool.realizedJuniorLoss StakePool.juniorTotalLp
    StakePool.juniorBalance StakePool.juniorFeeMultBps StakePool.trancheEnabled StakePool.word
    StakePool.half
  rw [reserved_initialPool, ht, hjb, hjl, hm, hl]
  rfl

theorem charter_initialPool {ctx : Context} {w : World} {a : InitAccounts} {slots cap : UInt64}
    (h : validateInit ctx w a slots = .ok ()) :
    Chartered ctx a.poolPda.key (initialPool ctx a .zeroed slots cap).charter := by
  obtain ⟨hprogram, hpool, -, -, hmints⟩ := validateInit_eq_ok h
  obtain ⟨hd, hv, -⟩ := blankReserved_fields
  refine ⟨rfl, hd, hv, rfl, ?_, hprogram, (show (0 : UInt8) ≤ 1 by decide), hmints⟩
  rw [hpool]
  rfl

/-- What is left to say of a new pool once its accounts are there. -/
theorem Standing.created {ctx : Context} {w w₁ : World} {l : Pubkey → UInt64} {a : InitAccounts}
    {slots : UInt64} {p : StakePool} (hfresh : ctx.Fresh a.poolPda.key w)
    (hval : validateInit ctx w a slots = .ok ())
    (hcreate : createTokenAccounts ctx
      ((w.withLamports l).set a.poolPda.key ⟨ctx.programId, .pool .zeroed⟩) a = .ok w₁)
    (hchartered : Chartered ctx a.poolPda.key p.charter) (hvault : p.vault = a.vault.key)
    (hcollateral : p.collateralMint = a.collateralMint.key) (hlp : p.lpMint = a.lpMint.key) :
    ∃ t m, Standing ctx a.poolPda.key (w₁.set a.poolPda.key ⟨ctx.programId, .pool p⟩) p t m ∧
      t.amount = 0 ∧ m.supply = 0 ∧
      (w₁.set a.poolPda.key ⟨ctx.programId, .pool p⟩).positions ctx.programId a.poolPda.key =
        fun _ => .none := by
  obtain ⟨-, -, -, hauth, -⟩ := validateInit_eq_ok hval
  obtain ⟨hw₁, ⟨decimals, hm⟩, ht⟩ := createTokenAccounts_eq_ok hcreate
  have hpool₁ : w₁.pool ctx.programId a.poolPda.key = some .zeroed := by
    rw [hw₁.pool_eq, World.pool_eq_some, World.account_set_self]
  have hacc₁ := World.pool_eq_some.mp hpool₁
  -- every record is where it was before the pool was written
  have hrecord : ∀ k, (w₁.set a.poolPda.key ⟨ctx.programId, .pool p⟩).record ctx.programId k =
      if k = a.poolPda.key then none else w.record ctx.programId k := by
    intro k
    by_cases hk : k = a.poolPda.key
    · rw [if_pos hk, hk, World.record, World.account_set_self]
    · rw [if_neg hk, World.record, World.account_set_of_ne hk, ← World.record, hw₁.record_eq,
        World.record, World.account_set_of_ne hk, World.account_withLamports, World.record]
  refine ⟨⟨a.collateralMint.key, a.vaultAuth.key, 0, .initialized⟩,
    ⟨some a.vaultAuth.key, 0, decimals, true⟩,
    ⟨?_, hchartered, ?_, ?_, hauth, rfl, ?_, rfl, congrArg some hauth, ?_⟩, rfl, rfl, ?_⟩
  · rw [World.pool_eq_some, World.account_set_self]
  · rw [hvault, World.token_eq_some, World.account_set_of_ne, World.token_eq_some.mp ht]
    intro e
    rw [e, World.token_eq_some, hacc₁] at ht
    cases congrArg Account.data ht
  · rw [hcollateral]
  · rw [hlp, World.mint_eq_some, World.account_set_of_ne, World.mint_eq_some.mp hm]
    intro e
    rw [e, World.mint_eq_some, hacc₁] at hm
    cases congrArg Account.data hm
  · intro user d hd
    rw [hrecord] at hd
    split at hd
    · cases hd
    · rw [hfresh.pda_none user] at hd
      cases hd
  · funext k
    rw [World.positions, hrecord]
    split
    · rfl
    · cases hr : w.record ctx.programId k with
      | none => rfl
      | some d => exact if_neg (hfresh.record_pool k d hr)

/-- The ledger of a new pool. -/
def Ledger.empty : Ledger Pubkey := ⟨Book.empty, 0, fun _ => .none⟩

theorem Ledger.sound_empty : Ledger.Sound 0 Ledger.empty where
  supply_eq := (Finset.sum_eq_zero fun _ _ => rfl).symm
  juniorLp_eq := (Finset.sum_eq_zero fun _ _ => rfl).symm
  live_iff := fun _ => (show false = true ↔ 0 < 0 by decide)
  junior_live := fun _ h => by cases h
  junior_empty := fun _ => rfl
  vault_eq := by decide
  fees_le := by decide
  value_nonneg := by decide
  settled_le_returned := by decide
  settled_le_flushed := by decide

theorem Context.Genesis.standing {ctx : Context} {π : Pubkey} {w : World}
    (h : ctx.Genesis π w) :
    ∃ p t m, Standing ctx π w p t m ∧ ledgerOf ctx π w p t = .empty ∧ m.supply = 0 := by
  obtain ⟨w₀, ix, accounts, hfresh, ⟨slots, cap, hix⟩, ⟨b, hb, rfl⟩, hprocess⟩ := h
  have hledger : ∀ {w : World} {p : StakePool} {t : TokenAccount}, p.book = Book.empty →
      t.amount = 0 → w.positions ctx.programId b.key = (fun _ => .none) →
      ledgerOf ctx b.key w p t = .empty := by
    intro w p t hbook ht hpos
    rw [ledgerOf, hbook, ht, hpos]
    rfl
  rcases hix with rfl | rfl
  · obtain ⟨a, w₁, l, ha, hval, hcreate, rfl⟩ := processInitPool_stages hprocess
    obtain rfl : a.poolPda = b := Option.some_inj.mp ((InitAccounts.next_eq_ok ha).symm.trans hb)
    obtain ⟨t, m, hs, ht, hm, hpos⟩ := Standing.created hfresh hval hcreate
      (charter_initialPool hval) rfl rfl rfl
    exact ⟨_, t, m, hs, hledger (book_initialPool ctx a slots cap) ht hpos, hm⟩
  · unfold process processInitTradingPool at hprocess
    simp only [bind_eq_ok, poolFromData_eq_ok] at hprocess
    obtain ⟨w₂, hinit, a', ha', _, -, q, hq, _, -, hstore⟩ := hprocess
    obtain ⟨a, w₁, l, ha, hval, hcreate, rfl⟩ := processInitPool_stages hinit
    obtain rfl : a = a' := Except.ok.inj (ha.symm.trans ha')
    obtain rfl : a.poolPda = b := Option.some_inj.mp ((InitAccounts.next_eq_ok ha).symm.trans hb)
    have hpool : (w₁.set a.poolPda.key ⟨ctx.programId,
        .pool (initialPool ctx a .zeroed slots cap)⟩).pool ctx.programId a.poolPda.key =
        some (initialPool ctx a .zeroed slots cap) := by
      rw [World.pool_eq_some, World.account_set_self]
    obtain rfl : initialPool ctx a .zeroed slots cap = q := by
      rw [World.data, World.account_set_self] at hq
      cases hq
      rfl
    obtain ⟨-, rfl⟩ := (store_pool_eq_ok rfl hpool).mp hstore
    rw [World.set_set]
    have hc : Chartered ctx a.poolPda.key (initialPool ctx a .zeroed slots cap).charter :=
      charter_initialPool hval
    obtain ⟨t, m, hs, ht, hm, hpos⟩ := Standing.created hfresh hval hcreate
      (p := { initialPool ctx a .zeroed slots cap with poolMode := 1 })
      ⟨hc.initialized, hc.discriminator, hc.version, hc.authority_bump, hc.pool_eq, hc.program,
        (show (1 : UInt8) ≤ 1 by decide), hc.mints⟩ rfl rfl rfl
    exact ⟨_, t, m, hs, hledger (book_initialPool ctx a slots cap) ht hpos, hm⟩

/-- A pool that stands cannot be created again. -/
theorem Standing.no_init {ctx : Context} {π : Pubkey} {w w' : World} {p : StakePool}
    {t : TokenAccount} {m : Mint} (h : Standing ctx π w p t m) {accounts : List AccountInfo}
    {slots cap : UInt64} (hpool : ∃ a, accounts[2]? = some a ∧ a.key = π) :
    processInitPool ctx w accounts slots cap ≠ .ok w' := by
  intro hinit
  obtain ⟨a, -, -, ha, hval, -, -⟩ := processInitPool_stages hinit
  obtain ⟨b, hb, hπ⟩ := hpool
  obtain rfl : a.poolPda = b := Option.some_inj.mp ((InitAccounts.next_eq_ok ha).symm.trans hb)
  obtain ⟨-, -, hempty, -⟩ := validateInit_eq_ok hval
  have hacc := World.pool_eq_some.mp h.pool_eq
  rw [World.data, hπ, hacc] at hempty
  cases hempty

end PercolatorStake
