import PercolatorStake.Admission
import PercolatorStake.Recovery

/-!
# The ways of the insurance

A flush, a return and a recovery with the correct accounts.  Each goes through exactly
when its amount is within its own cap, the paying side holds it and the receiving side
has room for it.  A flush never finds the vault short, and a return never fills its
counter.
-/

namespace PercolatorStake

open Result Word

/-- The accounts of a flush by the admin, with the contents of the wrapper's vault. -/
structure FlushAccounts.Correct (ctx : Context) (π : Pubkey) (w : World) (p : StakePool)
    (held : TokenAccount) (a : FlushAccounts) : Prop where
  caller_signs : a.caller.isSigner = true
  caller_eq : a.caller.key = p.admin
  pool_eq : a.poolPda.key = π
  pool_writable : a.poolPda.isWritable = true
  vault_eq : a.vault.key = p.vault
  vault_writable : a.vault.isWritable = true
  vaultAuth_eq : a.vaultAuth.key = ctx.vaultAuthority π
  slab_eq : a.slab.key = p.slab
  slab_writable : a.slab.isWritable = true
  wrapper_eq : w.token a.wrapperVault.key = some held
  wrapper_mint : held.mint = p.collateralMint
  wrapper_live : held.state = .initialized
  wrapper_writable : a.wrapperVault.isWritable = true
  wrapper_ne : a.wrapperVault.key ≠ p.vault
  program_eq : a.percolatorProgram.key = p.percolatorProgram
  tokenProgram_eq : a.tokenProgram.key = splTokenId

/-- The accounts of a return by the admin, with the contents of the admin's account. -/
structure ReturnAccounts.Correct (ctx : Context) (π : Pubkey) (w : World) (p : StakePool)
    (ata : TokenAccount) (a : ReturnAccounts) : Prop where
  admin_signs : a.admin.isSigner = true
  admin_eq : a.admin.key = p.admin
  admin_ne : a.admin.key ≠ ctx.vaultAuthority π
  pool_eq : a.poolPda.key = π
  pool_writable : a.poolPda.isWritable = true
  ata_eq : w.token a.adminAta.key = some ata
  ata_mint : ata.mint = p.collateralMint
  ata_owner : ata.owner = a.admin.key
  ata_live : ata.state = .initialized
  ata_writable : a.adminAta.isWritable = true
  vault_eq : a.vault.key = p.vault
  vault_writable : a.vault.isWritable = true
  tokenProgram_eq : a.tokenProgram.key = splTokenId

/-- The accounts of a recovery by anybody, with the contents of the wrapper's vault. -/
structure RecoverAccounts.Correct (ctx : Context) (π : Pubkey) (w : World) (p : StakePool)
    (held : TokenAccount) (a : RecoverAccounts) : Prop where
  pool_eq : a.poolPda.key = π
  pool_writable : a.poolPda.isWritable = true
  vault_eq : a.vault.key = p.vault
  vault_writable : a.vault.isWritable = true
  vaultAuth_eq : a.vaultAuth.key = ctx.vaultAuthority π
  market_writable : a.market.isWritable = true
  wrapper_eq : w.token a.wrapperVault.key = some held
  wrapper_mint : held.mint = p.collateralMint
  wrapper_live : held.state = .initialized
  wrapper_writable : a.wrapperVault.isWritable = true
  wrapper_ne : a.wrapperVault.key ≠ p.vault
  tokenProgram_eq : a.tokenProgram.key = splTokenId
  program_eq : a.percolatorProgram.key = p.percolatorProgram

def FlushAccounts.topUp (a : FlushAccounts) (amount : UInt64) : Instruction :=
  Cpi.topUpInsurance a.percolatorProgram.key a.vaultAuth.key a.slab.key a.vault.key
    a.wrapperVault.key a.tokenProgram.key amount

def RecoverAccounts.withdrawal (a : RecoverAccounts) (amount : UInt64) : Instruction :=
  Cpi.withdrawInsuranceAsset a.percolatorProgram.key a.vaultAuth.key a.market.key a.vault.key
    a.wrapperVault.key a.wrapperVaultAuth.key a.tokenProgram.key amount

/-- What lets a flush through. -/
structure Flushable (ctx : Context) (w : World) (p : StakePool) (held : TokenAccount)
    (a : FlushAccounts) (amount : UInt64) : Prop where
  pos : 0 < amount
  mode : p.poolMode = 0
  unresolved : p.marketResolved = false
  within : ∃ v, p.totalPoolValue = some v ∧ amount ≤ v
  accepted : ctx.wrapper.accepts w (a.topUp amount) = true
  room : held.amount.toNat + amount.toNat < 2 ^ 64
  counter : p.totalFlushed.toNat + amount.toNat < 2 ^ 64

/-- What lets a return through. -/
structure Returnable (p : StakePool) (t ata : TokenAccount) (amount : UInt64) : Prop where
  pos : 0 < amount
  outstanding : amount ≤ saturatingSub p.totalFlushed p.totalReturned
  held : amount ≤ ata.amount
  room : t.amount.toNat + amount.toNat < 2 ^ 64

/-- What lets a recovery through. -/
structure Recoverable (ctx : Context) (w : World) (p : StakePool) (t held : TokenAccount)
    (a : RecoverAccounts) (amount : UInt64) : Prop where
  pos : 0 < amount
  mode : p.poolMode = 0
  outstanding : amount ≤ p.wrapperRecoverable
  accepted : ctx.wrapper.accepts w (a.withdrawal amount) = true
  held : amount ≤ held.amount
  room : t.amount.toNat + amount.toNat < 2 ^ 64
  counter : p.totalReturned.toNat + amount.toNat < 2 ^ 64

section

variable {ctx : Context} {π : Pubkey} {w w' : World} {p p' : StakePool}
  {t held ata : TokenAccount} {m : Mint} {accounts : List AccountInfo} {amount : UInt64} {X : Nat}

/-! ## The pool and its vault authority -/

/-- The vault authority signs with its seeds. -/
theorem create_vaultAuth {i : AccountInfo} {expected : Pubkey} {bump : UInt8} (hk : i.key = π)
    (hpair : ctx.derivation.deriveVaultAuthority ctx.programId i.key = (expected, bump)) :
    expected = ctx.vaultAuthority π ∧ ctx.derivation.createProgramAddress
      (Derivation.vaultAuthSeeds i.key bump) ctx.programId = some expected := by
  have hb : bump = (ctx.derivation.deriveVaultAuthority ctx.programId i.key).2 := by rw [hpair]
  constructor
  · unfold Context.vaultAuthority
    rw [← hk, hpair]
  · rw [hb, ctx.derivation.create_vaultAuthSeeds, hpair]

/-- A standing pool passes the checks of its account. -/
theorem Standing.poolChecks (h : Standing ctx π w p t m) {i : AccountInfo} (hk : i.key = π)
    (hw : i.isWritable = true) :
    validateAccountOwner w i ctx.programId = .ok () ∧ validateAccountNotEmpty w i = .ok () ∧
      validateAccountWritable i = .ok () ∧ readPool w i = .ok p := by
  obtain ⟨howner, hdata, hread⟩ := h.readPool_eq hk
  refine ⟨rejectIf_neg (not_not.mpr howner), rejectIf_neg ?_, rejectIf_neg ?_, hread⟩
  · rw [hdata]
    exact fun e => by cases e
  · rw [hw]
    decide

/-! ## A flush -/

/-- A flush that passes its account checks comes down to its amount. -/
theorem Standing.flush_eq {a : FlushAccounts} {expected : Pubkey} {bump : UInt8}
    (h : Standing ctx π w p t m) (hnext : FlushAccounts.next accounts = .ok a)
    (ha : a.Correct ctx π w p held)
    (hpair : ctx.derivation.deriveVaultAuthority ctx.programId a.poolPda.key = (expected, bump)) :
    processFlushToInsurance ctx w accounts amount = (do
      rejectIf (amount = 0) ↑StakeError.zeroAmount
      rejectIf (p.poolMode ≠ 0) ↑StakeError.invalidPoolMode
      rejectIf (p.marketResolved = true) ↑StakeError.marketResolved
      let available ← okOr p.totalPoolValue ↑StakeError.overflow
      rejectIf (amount > available) ↑StakeError.insufficientVaultBalance
      let w ← cpiTopUpInsurance ctx w a amount bump
      let pool ← bookFlush p amount
      w.store a.poolPda (.pool pool)) := by
  obtain ⟨howner, hnotEmpty, hwritable, hread⟩ := h.poolChecks ha.pool_eq ha.pool_writable
  obtain ⟨hexpected, -⟩ := create_vaultAuth ha.pool_eq hpair
  have hsigner : requireSigner a.caller = .ok () :=
    rejectIf_neg (by rw [ha.caller_signs]; decide)
  have htoken : verifyTokenProgram a.tokenProgram = .ok () :=
    rejectIf_neg (not_not.mpr ha.tokenProgram_eq)
  have hadmin : ¬p.admin ≠ a.caller.key := not_not.mpr ha.caller_eq.symm
  have hslab : ¬p.slab ≠ a.slab.key := not_not.mpr ha.slab_eq.symm
  have hvault : ¬p.vault ≠ a.vault.key := not_not.mpr ha.vault_eq.symm
  have hprogram : ¬p.percolatorProgram ≠ a.percolatorProgram.key := not_not.mpr ha.program_eq.symm
  have hauth : ¬a.vaultAuth.key ≠ expected := not_not.mpr (ha.vaultAuth_eq.trans hexpected.symm)
  have hmint := validateTokenMint_ok (e := .invalidMint) ha.wrapper_eq ha.wrapper_mint
  unfold processFlushToInsurance
  simp only [hnext, hsigner, howner, hnotEmpty, hwritable, htoken, hread,
    rejectIf_neg hadmin, rejectIf_neg hslab, rejectIf_neg hvault, rejectIf_neg hprogram, hmint,
    hpair, rejectIf_neg hauth, ok_bind]

theorem FlushAccounts.Correct.topUp_eq_ok {a : FlushAccounts} {expected : Pubkey} {bump : UInt8}
    (h : Standing ctx π w p t m) (ha : a.Correct ctx π w p held)
    (hpair : ctx.derivation.deriveVaultAuthority ctx.programId a.poolPda.key = (expected, bump)) :
    cpiTopUpInsurance ctx w a amount bump = .ok w' ↔
      ctx.wrapper.accepts w (a.topUp amount) = true ∧ a.vault.key ≠ a.wrapperVault.key ∧
        SplToken.processTransfer w a.vault.key a.wrapperVault.key a.vaultAuth.key amount =
          .ok w' := by
  obtain ⟨hexpected, hcreate⟩ := create_vaultAuth ha.pool_eq hpair
  rw [hexpected, ← ha.vaultAuth_eq] at hcreate
  have hid : a.percolatorProgram.key ≠ splTokenId := by
    rw [ha.program_eq]
    exact h.program_ne
  refine (Context.invokeSigned_wrapper hid ?_).trans ctx.wrapper.topUpInsurance
  simp [Cpi.topUpInsurance, Context.privileged, AccountMeta.readonly, AccountMeta.writable,
    hcreate, ha.slab_writable, ha.vault_writable, ha.wrapper_writable]

theorem bookFlush_ok_iff :
    (∃ p', bookFlush p amount = .ok p') ↔ p.totalFlushed.toNat + amount.toNat < 2 ^ 64 := by
  unfold bookFlush
  simp only [bind_eq_ok, okOr_eq_ok, ok_eq_ok, checkedAdd_eq_some]
  constructor
  · rintro ⟨p', f, hf, -⟩
    have hlt := f.toNat_lt
    omega
  · intro hlt
    obtain ⟨f, hf⟩ := exists_toNat hlt
    exact ⟨_, f, hf, rfl⟩

/-- The vault always holds what a flush within the value takes. -/
theorem Valid.flush_ok_iff {a : FlushAccounts} (h : Valid ctx π X w p t m)
    (hnext : FlushAccounts.next accounts = .ok a) (ha : a.Correct ctx π w p held) :
    (∃ w', process ctx w accounts (.flushToInsurance amount) = .ok w') ↔
      Flushable ctx w p held a amount := by
  have hst := h.standing
  have hprocess : process ctx w accounts (.flushToInsurance amount) =
      processFlushToInsurance ctx w accounts amount := rfl
  obtain ⟨expected, bump, hpair⟩ : ∃ expected bump,
      ctx.derivation.deriveVaultAuthority ctx.programId a.poolPda.key = (expected, bump) :=
    ⟨_, _, rfl⟩
  rw [hprocess, Standing.flush_eq hst hnext ha hpair]
  have hvault : w.token a.vault.key = some t := by
    rw [ha.vault_eq]
    exact hst.vault_eq
  have hne : a.vault.key ≠ a.wrapperVault.key := by
    rw [ha.vault_eq]
    exact ha.wrapper_ne.symm
  simp only [bind_eq_ok, rejectIf_eq_ok, okOr_eq_ok, ha.topUp_eq_ok hst hpair, not_not, gt_iff_lt,
    UInt64.not_lt, Bool.not_eq_true, eq_zero_iff]
  constructor
  · rintro ⟨w', _, hpos, _, hmode, _, hopen, v, hv, _, hle, w₁, ⟨haccepts, -, htransfer⟩, p',
      hbook, -⟩
    obtain ⟨-, hmove⟩ := SplToken.processTransfer_eq_ok.mp htransfer
    obtain ⟨s, d, sA, dA, -, -, hd, -, -, -, hdA, -⟩ := (SplToken.moveTokens_eq_ok hne).mp hmove
    obtain rfl : held = d := Option.some_inj.mp (ha.wrapper_eq.symm.trans hd)
    have hlt := dA.toNat_lt
    exact ⟨pos_iff.mpr (by omega), hmode, hopen, ⟨v, hv, hle⟩, haccepts, by omega,
      bookFlush_ok_iff.mp ⟨p', hbook⟩⟩
  · intro hf
    have hpos := pos_iff.mp hf.pos
    obtain ⟨v, hv, hle⟩ := hf.within
    have hvalue := StakePool.totalPoolValue_eq_some.mp hv
    have hheld : p.book.value ≤ t.amount.toNat := h.sound.toBalanced.value_le
    have hle' := UInt64.le_iff_toNat_le.mp hle
    have hlt := t.amount.toNat_lt
    obtain ⟨sA, hsA⟩ := exists_toNat (n := t.amount.toNat - amount.toNat) (by omega)
    obtain ⟨dA, hdA⟩ := exists_toNat hf.room
    have hmove : SplToken.moveTokens w a.vault.key a.wrapperVault.key amount = .ok _ :=
      (SplToken.moveTokens_eq_ok hne).mpr ⟨t, held, sA, dA, hvault, hst.vault_live, ha.wrapper_eq,
        ha.wrapper_live, hst.vault_mint.trans ha.wrapper_mint.symm, by omega, hdA, rfl⟩
    have htransfer := SplToken.processTransfer_eq_ok.mpr
      ⟨⟨t, hvault, hst.vault_live, hst.vault_owner.trans ha.vaultAuth_eq.symm⟩, hmove⟩
    obtain ⟨p', hbook⟩ := bookFlush_ok_iff.mpr hf.counter
    have hout := hmove
    rw [ha.vault_eq] at hout
    obtain ⟨_, -, -, h₁⟩ := hst.moveOut ha.wrapper_ne.symm hout
    rw [← ha.vault_eq] at h₁
    exact ⟨_, (), by omega, (), hf.mode, (), hf.unresolved, v, hv, (), hle, _,
      ⟨hf.accepted, hne, htransfer⟩, p', hbook,
      (store_pool_eq_ok ha.pool_eq h₁.pool_eq).mpr ⟨ha.pool_writable, rfl⟩⟩

/-! ## A return -/

theorem ReturnAccounts.Correct.ata_ne {a : ReturnAccounts} (ha : a.Correct ctx π w p ata)
    (h : Standing ctx π w p t m) : a.adminAta.key ≠ a.vault.key := by
  intro e
  have heq := ha.ata_eq
  rw [e, ha.vault_eq, h.vault_eq, Option.some_inj] at heq
  exact ha.admin_ne (ha.ata_owner.symm.trans (heq ▸ h.vault_owner))

/-- A return that passes its account checks comes down to its amount. -/
theorem Standing.return_eq {a : ReturnAccounts} (h : Standing ctx π w p t m)
    (hnext : ReturnAccounts.next accounts = .ok a) (ha : a.Correct ctx π w p ata) :
    processReturnInsurance ctx w accounts amount = (do
      rejectIf (amount = 0) ↑StakeError.zeroAmount
      rejectIf (amount > saturatingSub p.totalFlushed p.totalReturned) ProgramError.invalidArgument
      let w ← ctx.invoke w (SplToken.transfer a.adminAta.key a.vault.key a.admin.key amount)
        [a.adminAta, a.vault, a.admin]
      let pool ← bookReturn p amount
      w.store a.poolPda (.pool pool)) := by
  obtain ⟨howner, hnotEmpty, hwritable, hread⟩ := h.poolChecks ha.pool_eq ha.pool_writable
  have hsigner : requireSigner a.admin = .ok () :=
    rejectIf_neg (by rw [ha.admin_signs]; decide)
  have hwritable' : validateAccountWritable a.vault = .ok () :=
    rejectIf_neg (by rw [ha.vault_writable]; decide)
  have htoken : verifyTokenProgram a.tokenProgram = .ok () :=
    rejectIf_neg (not_not.mpr ha.tokenProgram_eq)
  have hadmin : ¬p.admin ≠ a.admin.key := not_not.mpr ha.admin_eq.symm
  have hvault : ¬p.vault ≠ a.vault.key := not_not.mpr ha.vault_eq.symm
  have hvaultOwner : ¬w.owner a.vault ≠ splTokenId := by
    rw [World.owner, ha.vault_eq, World.token_eq_some.mp h.vault_eq]
    exact not_not.mpr rfl
  have hata := validateTokenAccount_ok (e := .invalidMint) ha.ata_eq ha.ata_mint ha.ata_owner
  unfold processReturnInsurance
  simp only [hnext, hsigner, howner, hnotEmpty, hwritable, hwritable', htoken,
    hread, rejectIf_neg hadmin, rejectIf_neg hvault, rejectIf_neg hvaultOwner, hata, ok_bind]

/-- The admin may pass the transfer on. -/
theorem ReturnAccounts.Correct.transfer_eq_ok {a : ReturnAccounts} (ha : a.Correct ctx π w p ata) :
    ctx.invoke w (SplToken.transfer a.adminAta.key a.vault.key a.admin.key amount)
        [a.adminAta, a.vault, a.admin] = .ok w' ↔
      SplToken.processTransfer w a.adminAta.key a.vault.key a.admin.key amount = .ok w' :=
  Context.Authorized.transfer ⟨⟨by simp, ha.ata_writable⟩, ⟨by simp, ha.vault_writable⟩,
    .inl ⟨a.admin, by simp, rfl, ha.admin_signs⟩⟩

/-- What is returned is outstanding, so the counter of all returns has room for it. -/
theorem bookReturn_ok (h : amount ≤ saturatingSub p.totalFlushed p.totalReturned) :
    ∃ p', bookReturn p amount = .ok p' := by
  rw [UInt64.le_iff_toNat_le, toNat_saturatingSub] at h
  have hflushed := p.totalFlushed.toNat_lt
  have hreturned := p.totalReturned.toNat_lt
  obtain ⟨r, hr⟩ := exists_toNat (n := p.totalReturned.toNat + amount.toNat) (by omega)
  unfold bookReturn
  rw [okOr_eq_ok.mpr (checkedAdd_eq_some.mpr hr), ok_bind]
  exact ⟨_, rfl⟩

theorem Standing.return_ok_iff {a : ReturnAccounts} (h : Standing ctx π w p t m)
    (hnext : ReturnAccounts.next accounts = .ok a) (ha : a.Correct ctx π w p ata) :
    (∃ w', process ctx w accounts (.returnInsurance amount) = .ok w') ↔
      Returnable p t ata amount := by
  have hprocess : process ctx w accounts (.returnInsurance amount) =
      processReturnInsurance ctx w accounts amount := rfl
  rw [hprocess, Standing.return_eq h hnext ha]
  have hvault : w.token a.vault.key = some t := by
    rw [ha.vault_eq]
    exact h.vault_eq
  have hne := ha.ata_ne h
  simp only [bind_eq_ok, rejectIf_eq_ok, gt_iff_lt, UInt64.not_lt, eq_zero_iff,
    ha.transfer_eq_ok]
  constructor
  · rintro ⟨w', _, hpos, _, hle, w₁, htransfer, p', hbook, -⟩
    obtain ⟨-, hmove⟩ := SplToken.processTransfer_eq_ok.mp htransfer
    obtain ⟨s, d, sA, dA, hs, -, hd, -, -, hsA, hdA, -⟩ := (SplToken.moveTokens_eq_ok hne).mp hmove
    obtain rfl : ata = s := Option.some_inj.mp (ha.ata_eq.symm.trans hs)
    obtain rfl : t = d := Option.some_inj.mp (hvault.symm.trans hd)
    have hlt := dA.toNat_lt
    exact ⟨pos_iff.mpr (by omega), hle, UInt64.le_iff_toNat_le.mpr (by omega), by omega⟩
  · intro hf
    have hpos := pos_iff.mp hf.pos
    have hheld := UInt64.le_iff_toNat_le.mp hf.held
    have hlt := ata.amount.toNat_lt
    obtain ⟨sA, hsA⟩ := exists_toNat (n := ata.amount.toNat - amount.toNat) (by omega)
    obtain ⟨dA, hdA⟩ := exists_toNat hf.room
    have hmove : SplToken.moveTokens w a.adminAta.key a.vault.key amount = .ok _ :=
      (SplToken.moveTokens_eq_ok hne).mpr ⟨ata, t, sA, dA, ha.ata_eq, ha.ata_live, hvault,
        h.vault_live, ha.ata_mint.trans h.vault_mint.symm, by omega, hdA, rfl⟩
    have htransfer := SplToken.processTransfer_eq_ok.mpr
      ⟨⟨ata, ha.ata_eq, ha.ata_live, ha.ata_owner⟩, hmove⟩
    obtain ⟨p', hbook⟩ := bookReturn_ok hf.outstanding
    have hin := htransfer
    rw [ha.vault_eq] at hin
    obtain ⟨_, -, -, h₁⟩ := h.transferIn ha.admin_ne hin
    rw [← ha.vault_eq] at h₁
    exact ⟨_, (), by omega, (), hf.outstanding, _, htransfer, p', hbook,
      (store_pool_eq_ok ha.pool_eq h₁.pool_eq).mpr ⟨ha.pool_writable, rfl⟩⟩

/-! ## A recovery -/

/-- A recovery that passes its account checks comes down to its amount. -/
theorem Standing.recover_eq {a : RecoverAccounts} {expected : Pubkey} {bump : UInt8}
    (h : Standing ctx π w p t m) (hnext : RecoverAccounts.next accounts = .ok a)
    (ha : a.Correct ctx π w p held)
    (hpair : ctx.derivation.deriveVaultAuthority ctx.programId a.poolPda.key = (expected, bump)) :
    processRecoverFlushedInsurance ctx w accounts amount = (do
      rejectIf (p.poolMode ≠ 0) ↑StakeError.invalidPoolMode
      rejectIf (amount = 0) ↑StakeError.zeroAmount
      checkRecoverCap p amount
      let w ← cpiWithdrawInsuranceAsset ctx w a amount bump
      let pool ← bookRecover p amount
      w.store a.poolPda (.pool pool)) := by
  obtain ⟨howner, hnotEmpty, hwritable, hread⟩ := h.poolChecks ha.pool_eq ha.pool_writable
  obtain ⟨hexpected, -⟩ := create_vaultAuth ha.pool_eq hpair
  have htoken : verifyTokenProgram a.tokenProgram = .ok () :=
    rejectIf_neg (not_not.mpr ha.tokenProgram_eq)
  have hvault : ¬p.vault ≠ a.vault.key := not_not.mpr ha.vault_eq.symm
  have hprogram : ¬p.percolatorProgram ≠ a.percolatorProgram.key := not_not.mpr ha.program_eq.symm
  have hauth : ¬a.vaultAuth.key ≠ expected := not_not.mpr (ha.vaultAuth_eq.trans hexpected.symm)
  unfold processRecoverFlushedInsurance
  simp only [hnext, howner, hnotEmpty, hwritable, htoken, hread, rejectIf_neg hvault,
    rejectIf_neg hprogram, hpair, rejectIf_neg hauth, ok_bind]

theorem RecoverAccounts.Correct.withdrawal_eq_ok {a : RecoverAccounts} {expected : Pubkey}
    {bump : UInt8} (h : Standing ctx π w p t m) (ha : a.Correct ctx π w p held)
    (hpair : ctx.derivation.deriveVaultAuthority ctx.programId a.poolPda.key = (expected, bump)) :
    cpiWithdrawInsuranceAsset ctx w a amount bump = .ok w' ↔
      ctx.wrapper.accepts w (a.withdrawal amount) = true ∧ a.wrapperVault.key ≠ a.vault.key ∧
        SplToken.moveTokens w a.wrapperVault.key a.vault.key amount = .ok w' := by
  obtain ⟨hexpected, hcreate⟩ := create_vaultAuth ha.pool_eq hpair
  rw [hexpected, ← ha.vaultAuth_eq] at hcreate
  have hid : a.percolatorProgram.key ≠ splTokenId := by
    rw [ha.program_eq]
    exact h.program_ne
  refine (Context.invokeSigned_wrapper hid ?_).trans ctx.wrapper.withdrawInsuranceAsset
  simp [Cpi.withdrawInsuranceAsset, Context.privileged, AccountMeta.readonly,
    AccountMeta.writable, hcreate, ha.market_writable, ha.vault_writable, ha.wrapper_writable]

theorem bookRecover_ok_iff :
    (∃ p', bookRecover p amount = .ok p') ↔ p.totalReturned.toNat + amount.toNat < 2 ^ 64 ∧
      p.totalRecoveredFromWrapper.toNat + amount.toNat < 2 ^ 64 := by
  unfold bookRecover
  simp only [bind_eq_ok, okOr_eq_ok, ok_eq_ok, checkedAdd_eq_some]
  constructor
  · rintro ⟨p', r, hr, c, hc, -⟩
    have hr' := r.toNat_lt
    have hc' := c.toNat_lt
    omega
  · rintro ⟨hr, hc⟩
    obtain ⟨r, hr⟩ := exists_toNat hr
    obtain ⟨c, hc⟩ := exists_toNat hc
    exact ⟨_, r, hr, c, hc, rfl⟩

/-- What is recoverable has been flushed, so the counter of all recoveries has room. -/
theorem Valid.recover_ok_iff {a : RecoverAccounts} (h : Valid ctx π X w p t m)
    (hnext : RecoverAccounts.next accounts = .ok a) (ha : a.Correct ctx π w p held) :
    (∃ w', process ctx w accounts (.recoverFlushedInsurance amount) = .ok w') ↔
      Recoverable ctx w p t held a amount := by
  have hst := h.standing
  have hprocess : process ctx w accounts (.recoverFlushedInsurance amount) =
      processRecoverFlushedInsurance ctx w accounts amount := rfl
  obtain ⟨expected, bump, hpair⟩ : ∃ expected bump,
      ctx.derivation.deriveVaultAuthority ctx.programId a.poolPda.key = (expected, bump) :=
    ⟨_, _, rfl⟩
  rw [hprocess, Standing.recover_eq hst hnext ha hpair]
  have hvault : w.token a.vault.key = some t := by
    rw [ha.vault_eq]
    exact hst.vault_eq
  have hne : a.wrapperVault.key ≠ a.vault.key := by
    rw [ha.vault_eq]
    exact ha.wrapper_ne
  have hcap : p.wrapperRecoverable.toNat = p.book.recoverable :=
    StakePool.toNat_wrapperRecoverable p
  simp only [bind_eq_ok, rejectIf_eq_ok, checkRecoverCap_eq_ok, ha.withdrawal_eq_ok hst hpair,
    not_not, eq_zero_iff]
  constructor
  · rintro ⟨w', _, hmode, _, hpos, _, ⟨-, hle⟩, w₁, ⟨haccepts, -, hmove⟩, p', hbook, -⟩
    obtain ⟨s, d, sA, dA, hs, -, hd, -, -, hsA, hdA, -⟩ := (SplToken.moveTokens_eq_ok hne).mp hmove
    obtain rfl : held = s := Option.some_inj.mp (ha.wrapper_eq.symm.trans hs)
    obtain rfl : t = d := Option.some_inj.mp (hvault.symm.trans hd)
    have hlt := dA.toNat_lt
    exact ⟨pos_iff.mpr (by omega), hmode, UInt64.le_iff_toNat_le.mpr (by omega), haccepts,
      UInt64.le_iff_toNat_le.mpr (by omega), by omega, (bookRecover_ok_iff.mp ⟨p', hbook⟩).1⟩
  · intro hf
    have hpos := pos_iff.mp hf.pos
    have hle := UInt64.le_iff_toNat_le.mp hf.outstanding
    have hheld := UInt64.le_iff_toNat_le.mp hf.held
    have hlt := held.amount.toNat_lt
    obtain ⟨sA, hsA⟩ := exists_toNat (n := held.amount.toNat - amount.toNat) (by omega)
    obtain ⟨dA, hdA⟩ := exists_toNat hf.room
    have hmove : SplToken.moveTokens w a.wrapperVault.key a.vault.key amount = .ok _ :=
      (SplToken.moveTokens_eq_ok hne).mpr ⟨held, t, sA, dA, ha.wrapper_eq, ha.wrapper_live, hvault,
        hst.vault_live, ha.wrapper_mint.trans hst.vault_mint.symm, by omega, hdA, rfl⟩
    have hflushed : p.totalRecoveredFromWrapper.toNat + amount.toNat < 2 ^ 64 := by
      have hsettled : p.book.recovered + p.book.realized ≤ p.book.flushed :=
        h.sound.settled_le_flushed
      have hf : p.book.flushed < 2 ^ 64 := p.totalFlushed.toNat_lt
      have hr : p.book.recoverable = p.book.flushed - p.book.realized - p.book.recovered := rfl
      show p.book.recovered + amount.toNat < 2 ^ 64
      omega
    obtain ⟨p', hbook⟩ := bookRecover_ok_iff.mpr ⟨hf.counter, hflushed⟩
    have hin := hmove
    rw [ha.vault_eq] at hin
    obtain ⟨_, -, -, h₁⟩ := hst.moveIn ha.wrapper_ne hin
    rw [← ha.vault_eq] at h₁
    exact ⟨_, (), hf.mode, (), by omega, (), ⟨by omega, by omega⟩, _, ⟨hf.accepted, hne, hmove⟩,
      p', hbook, (store_pool_eq_ok ha.pool_eq h₁.pool_eq).mpr ⟨ha.pool_writable, rfl⟩⟩

/-- In every reachable state a flush, a return and a recovery with the correct accounts
each go through exactly if their amount is within their own cap, is held where it comes
from and has room where it goes, and the wrapper takes part. -/
theorem insurance_admitted {es : List Event} (h : ctx.Reached π es w)
    (hp : w.pool ctx.programId π = some p) (hvault : w.token p.vault = some t) :
    (∀ accounts a held amount, FlushAccounts.next accounts = .ok a → a.Correct ctx π w p held →
      ((∃ w', process ctx w accounts (.flushToInsurance amount) = .ok w') ↔
        Flushable ctx w p held a amount)) ∧
    (∀ accounts a ata amount, ReturnAccounts.next accounts = .ok a → a.Correct ctx π w p ata →
      ((∃ w', process ctx w accounts (.returnInsurance amount) = .ok w') ↔
        Returnable p t ata amount)) ∧
    ∀ accounts a held amount, RecoverAccounts.next accounts = .ok a → a.Correct ctx π w p held →
      ((∃ w', process ctx w accounts (.recoverFlushedInsurance amount) = .ok w') ↔
        Recoverable ctx w p t held a amount) := by
  obtain ⟨q, t₀, m, hvalid⟩ := h.stands
  obtain rfl : p = q := Option.some_inj.mp (hp.symm.trans hvalid.standing.pool_eq)
  obtain rfl : t = t₀ := Option.some_inj.mp (hvault.symm.trans hvalid.standing.vault_eq)
  refine ⟨?_, ?_, ?_⟩
  · intro accounts a held amount hnext ha
    exact hvalid.flush_ok_iff hnext ha
  · intro accounts a ata amount hnext ha
    exact hvalid.standing.return_ok_iff hnext ha
  · intro accounts a held amount hnext ha
    exact hvalid.recover_ok_iff hnext ha

end

/-! ## One amount each way -/

namespace Sample

def tapped : List Action := [deposit alice 100000, flush 40000]

def adminFlush : FlushAccounts where
  caller := signer (key admin)
  poolPda := writable pool
  vault := writable vault
  vaultAuth := readonly (ctx.vaultAuthority pool)
  slab := writable slab
  wrapperVault := writable wrapperVault
  percolatorProgram := readonly percolatorMainnet
  tokenProgram := readonly splTokenId

def adminReturn : ReturnAccounts where
  admin := signer (key admin)
  poolPda := writable pool
  adminAta := writable (ata admin)
  vault := writable vault
  tokenProgram := readonly splTokenId

def bobRecovery : RecoverAccounts where
  caller := signer (key bob)
  poolPda := writable pool
  vault := writable vault
  vaultAuth := readonly (ctx.vaultAuthority pool)
  market := writable slab
  wrapperVault := writable wrapperVault
  wrapperVaultAuth := readonly percolatorMainnet
  tokenProgram := readonly splTokenId
  percolatorProgram := readonly percolatorMainnet

theorem insurance_admitted_tapped :
    ∃ p t held ata, (after tapped).pool ctx.programId pool = some p ∧
      Flushable ctx (after tapped) p held adminFlush 60000 ∧ Returnable p t ata 40000 ∧
      Recoverable ctx (after tapped) p t held bobRecovery 40000 := by
  have hrun : (run tapped).isSome = true := by decide +kernel
  have hflush : (process ctx (after tapped) flushAccounts
      (.flushToInsurance 60000)).toOption.isSome = true := by decide +kernel
  have hreturn : (process ctx (after tapped) returnAccounts
      (.returnInsurance 40000)).toOption.isSome = true := by decide +kernel
  have hrecover : (process ctx (after tapped) recoverAccounts
      (.recoverFlushedInsurance 40000)).toOption.isSome = true := by decide +kernel
  have hpool : ((after tapped).pool ctx.programId pool).map
      (fun p => (p.admin, p.slab, p.vault, p.collateralMint, p.percolatorProgram)) =
      some (key admin, slab, vault, collateralMint, percolatorMainnet) := by decide +kernel
  have hvault : (after tapped).token vault =
      some ⟨collateralMint, ctx.vaultAuthority pool, 60000, .initialized⟩ := by decide +kernel
  have hheld : (after tapped).token wrapperVault =
      some ⟨collateralMint, percolatorMainnet, 1040000, .initialized⟩ := by decide +kernel
  have hata : (after tapped).token (ata admin) =
      some ⟨collateralMint, key admin, 1000000, .initialized⟩ := by decide +kernel
  obtain ⟨p, hp, hfields⟩ := Option.map_eq_some_iff.mp hpool
  simp only [Prod.mk.injEq] at hfields
  obtain ⟨h1, h2, h3, h4, h5⟩ := hfields
  rw [← h3] at hvault
  obtain ⟨hflushes, hreturns, hrecovers⟩ := insurance_admitted (after_reached hrun) hp hvault
  have hne : wrapperVault ≠ p.vault := by
    rw [h3]
    decide
  have hcaller : adminFlush.Correct ctx pool (after tapped) p
      ⟨collateralMint, percolatorMainnet, 1040000, .initialized⟩ :=
    ⟨rfl, h1.symm, rfl, rfl, h3.symm, rfl, rfl, h2.symm, rfl, hheld, h4.symm, rfl, rfl, hne,
      h5.symm, rfl⟩
  have hadmin : adminReturn.Correct ctx pool (after tapped) p
      ⟨collateralMint, key admin, 1000000, .initialized⟩ :=
    ⟨rfl, h1.symm, by decide, rfl, rfl, hata, h4.symm, rfl, rfl, rfl, h3.symm, rfl, rfl⟩
  have hbob : bobRecovery.Correct ctx pool (after tapped) p
      ⟨collateralMint, percolatorMainnet, 1040000, .initialized⟩ :=
    ⟨rfl, rfl, h3.symm, rfl, rfl, rfl, hheld, h4.symm, rfl, rfl, hne, rfl, h5.symm⟩
  obtain ⟨w₁, hw₁⟩ := Option.isSome_iff_exists.mp hflush
  obtain ⟨w₂, hw₂⟩ := Option.isSome_iff_exists.mp hreturn
  obtain ⟨w₃, hw₃⟩ := Option.isSome_iff_exists.mp hrecover
  exact ⟨p, _, _, _, hp,
    (hflushes flushAccounts adminFlush _ 60000 rfl hcaller).mp ⟨w₁, toOption_eq_some.mp hw₁⟩,
    (hreturns returnAccounts adminReturn _ 40000 rfl hadmin).mp ⟨w₂, toOption_eq_some.mp hw₂⟩,
    (hrecovers recoverAccounts bobRecovery _ 40000 rfl hbob).mp ⟨w₃, toOption_eq_some.mp hw₃⟩⟩

end Sample

end PercolatorStake
