import PercolatorStake.DeadShares
import PercolatorStake.Liveness

/-!
# Deposits go through

A deposit is decided by the books of the pool.  With the correct accounts it goes
through exactly if the market is open, the cap and the gate of the tranche leave room,
the sub-pool has a price, and the two counters it raises hold the sum.  The transfer,
the mint, the creation of the record and every other counter follow.
-/

namespace PercolatorStake

open Result Word

namespace Book

/-- The value of the sub-pool a deposit is priced against. -/
def poolValue (b : Book) : Bool → Int
  | false => b.ownValue
  | true => b.effectiveJunior

/-- The LP of the sub-pool a deposit is priced against. -/
def poolLp (b : Book) : Bool → Nat
  | false => b.ownLp
  | true => b.juniorLp

/-- The loss gate of a deposit. -/
def OpenTo (b : Book) : Bool → Prop
  | false => b.tranches = true → b.netLoss ≤ b.juniorBalance
  | true => b.flushed ≤ b.returned - b.realized

/-- The counters a deposit raises, the junior LP apart, which is part of the supply. -/
structure Fits (b : Book) : Prop where
  deposited : b.deposited < 2 ^ 64
  supply : b.supply < 2 ^ 64
  juniorBalance : b.juniorBalance < 2 ^ 64

end Book

/-- The books `p`, and `p₁` after the accrual, take a deposit of `amount` for `lp`. -/
structure Admits (p p₁ : StakePool) (junior : Bool) (amount lp : UInt64) : Prop where
  unresolved : p.marketResolved = false
  tranches : junior = true → p.book.tranches = true
  cap : p.depositCap = 0 ∨ p.book.principal.toNat + amount.toNat ≤ p.depositCap.toNat
  gate : p₁.book.OpenTo junior
  valued : 0 ≤ p₁.book.poolValue junior
  owned : p₁.book.poolLp junior = 0 ↔ (p₁.book.poolValue junior).toNat = 0
  lp_eq : lp.toNat = Shares.minted (p₁.book.poolLp junior) (p₁.book.poolValue junior).toNat
    amount.toNat
  lp_pos : 0 < lp.toNat
  above_lock : p₁.book.supply = 0 → minimumLiquidity.toNat < lp.toNat
  fits : (p₁.book.deposit amount.toNat lp.toNat junior).Fits

/-- The account arguments are the correct ones: the pool's accounts and the user's own,
with the access the instruction asks for.  The address of the record holds a record, or
nothing and its rent is held there or can be paid by the user, which takes write access to
the user's account. -/
structure DepositAccounts.Correct (ctx : Context) (π : Pubkey) (w : World) (p : StakePool)
    (ata lpAta : TokenAccount) (a : DepositAccounts) : Prop where
  user_signs : a.user.isSigner = true
  user_ne : a.user.key ≠ ctx.vaultAuthority π
  pool_eq : a.poolPda.key = π
  pool_writable : a.poolPda.isWritable = true
  ata_eq : w.token a.userAta.key = some ata
  ata_mint : ata.mint = p.collateralMint
  ata_owner : ata.owner = a.user.key
  ata_live : ata.state = .initialized
  ata_writable : a.userAta.isWritable = true
  vault_eq : a.vault.key = p.vault
  vault_writable : a.vault.isWritable = true
  lpMint_eq : a.lpMint.key = p.lpMint
  lpMint_writable : a.lpMint.isWritable = true
  lpAta_eq : w.token a.userLpAta.key = some lpAta
  lpAta_mint : lpAta.mint = p.lpMint
  lpAta_owner : lpAta.owner = a.user.key
  lpAta_live : lpAta.state = .initialized
  lpAta_writable : a.userLpAta.isWritable = true
  vaultAuth_eq : a.vaultAuth.key = ctx.vaultAuthority π
  deposit_eq : a.depositPda.key = ctx.depositPda π a.user.key
  deposit_writable : a.depositPda.isWritable = true
  record_or_empty : (∃ d, w.record ctx.programId a.depositPda.key = some d) ∨
    w.account a.depositPda.key = ⟨systemProgramId, .empty⟩ ∧
      ctx.FundsRent w a.depositPda a.user stakeDepositSize
  tokenProgram_eq : a.tokenProgram.key = splTokenId
  systemProgram_eq : a.systemProgram.key = systemProgramId

section

variable {ctx : Context} {π : Pubkey} {w w₁ : World} {p p₁ : StakePool}
  {t ata lpAta : TokenAccount} {m : Mint} {a : DepositAccounts} {junior : Bool}
  {amount lp mintAmount : UInt64} {clock : Clock}

/-! ## Checks -/

/-- The check of the sum never shows: a sum that does not fit is above every cap. -/
theorem checkDepositCap_eq_ok {u : Unit} (h : p.book.principal < 2 ^ 64) :
    checkDepositCap p amount = .ok u ↔
      p.depositCap = 0 ∨ p.book.principal.toNat + amount.toNat ≤ p.depositCap.toNat := by
  obtain ⟨v, hv, hn⟩ := StakePool.principalTvl_eq h
  have hcap := p.depositCap.toNat_lt
  unfold checkDepositCap
  by_cases h0 : p.depositCap = 0
  · have hnot : ¬p.depositCap > 0 := by
      rw [h0]
      exact UInt64.lt_irrefl _
    rw [if_neg hnot]
    exact ⟨fun _ => .inl h0, fun _ => rfl⟩
  · have hpos : p.depositCap > 0 := by
      rw [eq_zero_iff] at h0
      exact pos_iff.mpr (by omega)
    rw [if_pos hpos]
    simp only [bind_eq_ok, okOr_eq_ok, hv, Option.some_inj, exists_eq_left', rejectIf_eq_ok,
      checkedAdd_eq_some, gt_iff_lt, UInt64.not_lt, UInt64.le_iff_toNat_le, h0, false_or]
    constructor
    · rintro ⟨s, hs, hle⟩
      omega
    · intro hle
      obtain ⟨s, hs⟩ := exists_toNat (n := v.toNat + amount.toNat) (by omega)
      exact ⟨s, hs, by omega⟩

theorem validateTokenAccount_ok {i : AccountInfo} {mint owner : Pubkey} {e : StakeError}
    {x : TokenAccount} (h : w.token i.key = some x) (hm : x.mint = mint) (ho : x.owner = owner) :
    validateTokenAccount w i mint owner e = .ok () := by
  have hheader : SplToken.header (w.data i) = .ok (x.mint.toList, x.owner.toList) := by
    rw [World.data, World.token_eq_some.mp h]
    rfl
  unfold validateTokenAccount
  rw [validateTokenMint_ok h hm, ok_bind, hheader, ok_bind]
  exact rejectIf_neg (not_not.mpr (congrArg Vector.toList ho))

theorem validateDeposit_ok {e : StakeError} (ha : a.Correct ctx π w p ata lpAta)
    (hopen : p.marketResolved = false) (hcap : checkDepositCap p amount = .ok ()) :
    validateDeposit ctx w a p amount e = .ok () := by
  have hauth : a.vaultAuth.key =
      (ctx.derivation.deriveVaultAuthority ctx.programId a.poolPda.key).1 := by
    rw [ha.vaultAuth_eq, ha.pool_eq]
    rfl
  unfold validateDeposit verifyTokenProgram validateLpRecipientAccount
  simp only [bind_eq_ok, rejectIf_eq_ok, not_not, Bool.not_eq_true]
  exact ⟨(), ha.lpMint_eq.symm, (), ha.vault_eq.symm, (), hopen, (), hauth, (), hcap, (),
    ha.tokenProgram_eq, (), validateTokenAccount_ok ha.ata_eq ha.ata_mint ha.ata_owner,
    validateTokenAccount_ok ha.lpAta_eq ha.lpAta_mint ha.lpAta_owner⟩

/-! ## Price -/

theorem depositPrice_eq_ok (hv0 : 0 ≤ p.book.value) (hv : p.book.value < 2 ^ 64) :
    depositPrice junior p amount = .ok lp ↔ 0 ≤ p.book.poolValue junior ∧
      (p.book.poolLp junior = 0 ↔ (p.book.poolValue junior).toNat = 0) ∧
      lp.toNat = Shares.minted (p.book.poolLp junior) (p.book.poolValue junior).toNat
        amount.toNat := by
  cases junior with
  | true =>
    have hlp : p.juniorTotalLp.toNat = p.book.juniorLp := rfl
    simp only [depositPrice, priceDepositJunior, Math.calcJuniorLpForDeposit, okOr_eq_ok,
      Math.calcLpForDeposit_eq_some, StakePool.toNat_effectiveJuniorBalance, Book.poolValue,
      Book.poolLp, Int.toNat_natCast, hlp]
    exact ⟨fun h => ⟨Int.natCast_nonneg _, h⟩, fun h => h.2⟩
  | false =>
    simp only [depositPrice, Book.poolValue, Book.poolLp]
    unfold priceDeposit Book.ownValue Book.ownLp
    by_cases ht : p.trancheEnabled = true
    · have ht' : p.book.tranches = true := ht
      rw [if_pos ht, if_pos ht', if_pos ht']
      simp only [bind_eq_ok, okOr_eq_ok]
      constructor
      · rintro ⟨s, hs, hcalc⟩
        have hsenior := StakePool.senior_of_seniorBalance hs
        rw [hsenior, ← StakePool.toNat_seniorTotalLp, Int.toNat_natCast]
        exact ⟨Int.natCast_nonneg _, Math.calcLpForDeposit_eq_some.mp hcalc⟩
      · rintro ⟨h0, hprice⟩
        obtain ⟨s, hs, hsenior⟩ := StakePool.seniorBalance_isSome h0 hv
        rw [hsenior, ← StakePool.toNat_seniorTotalLp, Int.toNat_natCast] at hprice
        exact ⟨s, hs, Math.calcLpForDeposit_eq_some.mpr hprice⟩
    · have ht' : ¬p.book.tranches = true := ht
      obtain ⟨v, hsome, hvalue⟩ := StakePool.totalPoolValue_isSome hv0 hv
      rw [if_neg ht, if_neg ht', if_neg ht', okOr_eq_ok, StakePool.calcLpForDeposit, hsome]
      simp only [Option.bind_eq_bind, Option.bind_some]
      rw [Math.calcLpForDeposit_eq_some, hvalue, Int.toNat_natCast]
      exact ⟨fun h => ⟨Int.natCast_nonneg _, h⟩, fun h => h.2⟩

theorem depositGate_eq_ok {u : Unit} : depositGate junior p = .ok u ↔ p.book.OpenTo junior := by
  cases junior with
  | false => exact seniorDepositGate_eq_ok
  | true => exact juniorDepositGate_eq_ok

theorem applyMinimumLiquidityLock_ok_iff {supply : UInt64} :
    (∃ x, applyMinimumLiquidityLock supply lp = .ok x) ↔
      (supply.toNat = 0 → minimumLiquidity.toNat < lp.toNat) := by
  have hlp := lp.toNat_lt
  unfold applyMinimumLiquidityLock
  by_cases hs : supply ≠ 0
  · rw [if_pos hs]
    rw [Ne, eq_zero_iff] at hs
    exact ⟨fun _ e => (hs e).elim, fun _ => ⟨lp, rfl⟩⟩
  · simp only [if_neg hs, bind_eq_ok, okOr_eq_ok, checkedSub_eq_some, ok_eq_ok, rejectIf_eq_ok]
    rw [not_not, eq_zero_iff] at hs
    constructor
    · rintro ⟨x, y, hy, -, hne, -⟩ -
      rw [eq_zero_iff] at hne
      omega
    · intro h
      obtain ⟨y, hy⟩ := exists_toNat (n := lp.toNat - minimumLiquidity.toNat) (by omega)
      have hgt := h hs
      exact ⟨y, y, by omega, (), by rw [eq_zero_iff]; omega, rfl⟩

/-! ## Books -/

theorem StakePool.book_fits (p : StakePool) : p.book.Fits where
  deposited := p.totalDeposited.toNat_lt
  supply := p.totalLpSupply.toNat_lt
  juniorBalance := p.juniorBalance.toNat_lt

theorem depositBook_ok_iff (hle : p.book.juniorLp ≤ p.book.supply)
    (hjb : p.book.juniorBalance < 2 ^ 64) :
    (∃ p', depositBook junior p amount lp = .ok p') ↔
      (p.book.deposit amount.toNat lp.toNat junior).Fits := by
  have hbook : (∃ p', bookDeposit p amount lp = .ok p') ↔
      p.book.deposited + amount.toNat < 2 ^ 64 ∧ p.book.supply + lp.toNat < 2 ^ 64 := by
    constructor
    · rintro ⟨p', h⟩
      obtain ⟨d, s, hd, hs, -⟩ := bookDeposit_eq_ok.mp h
      have hdlt := d.toNat_lt
      have hslt := s.toNat_lt
      rw [hd] at hdlt
      rw [hs] at hslt
      exact ⟨hdlt, hslt⟩
    · rintro ⟨hd, hs⟩
      obtain ⟨d, hd⟩ := exists_toNat hd
      obtain ⟨s, hs⟩ := exists_toNat hs
      exact ⟨_, bookDeposit_eq_ok.mpr ⟨d, s, hd, hs, rfl⟩⟩
  cases junior with
  | false =>
    show (∃ p', bookDeposit p amount lp = .ok p') ↔ _
    rw [hbook]
    exact ⟨fun h => ⟨h.1, h.2, hjb⟩, fun h => ⟨h.deposited, h.supply⟩⟩
  | true =>
    show (∃ p', bookDepositJunior p amount lp = .ok p') ↔ _
    constructor
    · rintro ⟨p', h⟩
      obtain ⟨-, hb⟩ := bookDepositJunior_book h
      have hbooked : p.book.deposit amount.toNat lp.toNat true = p'.book := hb.symm
      rw [hbooked]
      exact p'.book_fits
    · intro h
      have hs : p.book.supply + lp.toNat < 2 ^ 64 := h.supply
      have hj : p.book.juniorBalance + amount.toNat < 2 ^ 64 := h.juniorBalance
      obtain ⟨p₂, hp₂⟩ := hbook.mpr ⟨h.deposited, hs⟩
      obtain ⟨-, hb⟩ := bookDeposit_book hp₂
      obtain ⟨jl, hjl⟩ := exists_toNat (n := p.book.juniorLp + lp.toNat) (by omega)
      obtain ⟨jb, hjb⟩ := exists_toNat (n := p.book.juniorBalance + amount.toNat) hj
      have hlpRead : p₂.book.juniorLp = p.book.juniorLp := by rw [hb]
      have hbalRead : p₂.book.juniorBalance = p.book.juniorBalance := by rw [hb]
      have hbal : (p₂.setJuniorTotalLp jl).juniorBalance = p₂.juniorBalance :=
        StakePool.word_setWord_of_disjoint (by decide) (by decide) jl
      have hjl' : checkedAdd p₂.juniorTotalLp lp = some jl :=
        checkedAdd_eq_some.mpr (hjl.trans (congrArg (· + lp.toNat) hlpRead.symm))
      have hjb' : checkedAdd p₂.juniorBalance amount = some jb :=
        checkedAdd_eq_some.mpr (hjb.trans (congrArg (· + amount.toNat) hbalRead.symm))
      unfold bookDepositJunior
      simp only [hp₂, ok_bind, hbal, okOr_eq_ok.mpr hjl', okOr_eq_ok.mpr hjb']
      exact ⟨_, rfl⟩

/-! ## Tokens -/

/-- The vault belongs to an address that never signs. -/
theorem DepositAccounts.Correct.ata_ne (ha : a.Correct ctx π w p ata lpAta)
    (h : Standing ctx π w p t m) : a.userAta.key ≠ a.vault.key := by
  intro e
  have heq := ha.ata_eq
  rw [e, ha.vault_eq, h.vault_eq, Option.some_inj] at heq
  exact ha.user_ne (ha.ata_owner.symm.trans (heq ▸ h.vault_owner))

/-- The collateral moves and the LP is minted. -/
theorem Standing.collectDeposit_ok (h : Standing ctx π w p t m)
    (ha : a.Correct ctx π w p ata lpAta) (hamount : amount.toNat ≤ ata.amount.toNat)
    (hvault : t.amount.toNat + amount.toNat < 2 ^ 64)
    (hlp : lpAta.amount.toNat + mintAmount.toNat < 2 ^ 64)
    (hsupply : m.supply.toNat + mintAmount.toNat < 2 ^ 64) :
    ∃ w', PercolatorStake.collectDeposit ctx w a amount mintAmount = .ok w' := by
  obtain ⟨s, hs⟩ := exists_toNat (n := ata.amount.toNat - amount.toNat)
    (by have := ata.amount.toNat_lt; omega)
  obtain ⟨v, hv⟩ := exists_toNat hvault
  obtain ⟨l, hl⟩ := exists_toNat hlp
  obtain ⟨n, hn⟩ := exists_toNat hsupply
  have hvaultEq : w.token a.vault.key = some t := by
    rw [ha.vault_eq]
    exact h.vault_eq
  have hne := ha.ata_ne h
  have hmove : SplToken.moveTokens w a.userAta.key a.vault.key amount = .ok _ :=
    (SplToken.moveTokens_eq_ok hne).mpr ⟨ata, t, s, v, ha.ata_eq, ha.ata_live, hvaultEq,
      h.vault_live, ha.ata_mint.trans h.vault_mint.symm, by omega, hv, rfl⟩
  have htransfer := SplToken.processTransfer_eq_ok.mpr
    ⟨⟨ata, ha.ata_eq, ha.ata_live, ha.ata_owner⟩, hmove⟩
  have hin : ctx.Authorized [a.userAta, a.vault, a.user, a.tokenProgram] [] a.userAta a.vault
      a.user.key :=
    ⟨⟨by simp, ha.ata_writable⟩, ⟨by simp, ha.vault_writable⟩,
      .inl ⟨a.user, by simp, rfl, ha.user_signs⟩⟩
  have htransferred := htransfer
  rw [ha.vault_eq] at htransferred
  obtain ⟨_, -, -, h₁⟩ := h.transferIn ha.user_ne htransferred
  unfold PercolatorStake.collectDeposit Context.invoke
  rw [hin.transfer.mpr htransfer, ok_bind]
  -- the LP account is neither of the two that moved
  have hlpNe : a.userLpAta.key ≠ a.userAta.key := by
    intro e
    have heq := ha.lpAta_eq
    rw [e, ha.ata_eq, Option.some_inj] at heq
    exact h.chartered.mints (ha.lpAta_mint.symm.trans (heq ▸ ha.ata_mint))
  have hlpNe' : a.userLpAta.key ≠ a.vault.key := by
    rw [ha.vault_eq]
    exact (h.vault_ne_of_lp ha.lpAta_eq ha.lpAta_mint).symm
  have hlpEq : (SplToken.setToken (SplToken.setToken w a.userAta.key { ata with amount := s })
      a.vault.key { t with amount := v }).token a.userLpAta.key = some lpAta := by
    rw [SplToken.token_setToken_of_ne hlpNe', SplToken.token_setToken_of_ne hlpNe]
    exact ha.lpAta_eq
  have hsigner : ctx.derivation.createProgramAddress (Derivation.vaultAuthSeeds a.poolPda.key
      (ctx.derivation.deriveVaultAuthority ctx.programId a.poolPda.key).2) ctx.programId =
      some a.vaultAuth.key := by
    rw [ctx.derivation.create_vaultAuthSeeds, ha.vaultAuth_eq, ha.pool_eq]
    rfl
  have hout : ctx.Authorized [a.lpMint, a.userLpAta, a.vaultAuth, a.tokenProgram]
      [Derivation.vaultAuthSeeds a.poolPda.key
        (ctx.derivation.deriveVaultAuthority ctx.programId a.poolPda.key).2]
      a.lpMint a.userLpAta a.vaultAuth.key :=
    ⟨⟨by simp, ha.lpMint_writable⟩, ⟨by simp, ha.lpAta_writable⟩,
      .inr ⟨_, List.mem_singleton_self _, hsigner⟩⟩
  have hmintEq := h₁.mint_eq
  rw [← ha.lpMint_eq, ← ha.vault_eq] at hmintEq
  exact ⟨_, hout.mintTo.mpr (SplToken.processMintTo_eq_ok.mpr ⟨lpAta, m, l, n, hlpEq,
    ha.lpAta_live, hmintEq, h.mint_live, ha.lpAta_mint.trans ha.lpMint_eq.symm,
    h.mint_authority.trans (congrArg some ha.vaultAuth_eq.symm), hl, hn, rfl⟩)⟩

/-! ## The record -/

/-- A deposit of the tranche `junior` fits the record: it is still blank or of that
tranche. -/
def StakeDeposit.Takes (d : StakeDeposit) (junior : Bool) : Prop :=
  d.isInitialized = 1 → d.isJuniorDeposit = junior

/-- Tokens pay no rent. -/
theorem World.TokensOnly.fundsRent {target payer : AccountInfo} {space : Nat}
    (hw : World.TokensOnly w w₁) (h : ctx.FundsRent w target payer space) :
    ctx.FundsRent w₁ target payer space := by
  unfold Context.FundsRent at h ⊢
  rw [hw.lamports_eq, hw.account_iff (fun _ e => by cases e) (fun _ e => by cases e)]
  exact h

theorem DepositAccounts.mem_systemProgram {accounts : List AccountInfo}
    (h : DepositAccounts.next accounts = .ok a) : a.systemProgram ∈ accounts := by
  unfold DepositAccounts.next at h
  split at h
  · cases h
    simp
  · cases h

/-- The record is there or can be opened, after the tokens moved. -/
theorem openRecord_ok (h : Standing ctx π w₁ p t m) {accounts : List AccountInfo}
    (hnext : DepositAccounts.next accounts = .ok a) (ha : a.Correct ctx π w p ata lpAta)
    (hw : World.TokensOnly w w₁) : ∃ r, openRecord ctx w₁ accounts a = .ok r := by
  have hkey : a.depositPda.key =
      (ctx.derivation.deriveDepositPda ctx.programId a.poolPda.key a.user.key).1 := by
    rw [ha.deposit_eq, ha.pool_eq]
    rfl
  unfold openRecord
  simp only [rejectIf_neg (not_not.mpr hkey), ok_bind]
  rcases ha.record_or_empty with ⟨d, hd⟩ | ⟨hempty, hrent⟩
  · have hd₁ := (hw.record_eq _ _).trans hd
    have hacc := World.record_eq_some.mp hd₁
    have hdata : w₁.data a.depositPda = .deposit d := by rw [World.data, hacc]
    have howner : w₁.owner a.depositPda = ctx.programId := by rw [World.owner, hacc]
    have hne : ¬w₁.data a.depositPda = .empty := by
      rw [hdata]
      exact fun e => by cases e
    rw [rejectIf_neg (fun e => e.2 howner), ok_bind, if_neg hne, hdata]
    show ∃ r, (if d.isInitialized ≠ 1 then .ok (w₁, d.setDiscriminator)
      else do
        rejectIf (d.validateDiscriminator = false) ↑StakeError.invalidAccount
        .ok (w₁, d)) = (.ok r : Except ProgramError (World × StakeDeposit))
    by_cases hinit : d.isInitialized ≠ 1
    · rw [if_pos hinit]
      exact ⟨_, rfl⟩
    · rw [ha.deposit_eq] at hd₁
      rw [if_neg hinit, (h.record_eq _ d hd₁).2]
      exact ⟨_, rfl⟩
  · have hacc : w₁.account a.depositPda.key = ⟨systemProgramId, .empty⟩ :=
      (hw.account_iff (fun _ e => by cases e) (fun _ e => by cases e)).mpr hempty
    have hdata : w₁.data a.depositPda = .empty := by rw [World.data, hacc]
    have hseeds : ctx.derivation.createProgramAddress [Derivation.stakeDepositSeed,
        a.poolPda.key.toList, a.user.key.toList,
        [(ctx.derivation.deriveDepositPda ctx.programId a.poolPda.key a.user.key).2]]
        ctx.programId = some a.depositPda.key := by
      rw [hkey]
      exact ctx.derivation.create_find
        [Derivation.stakeDepositSeed, a.poolPda.key.toList, a.user.key.toList] ctx.programId
    have hfunds : ctx.FundsRent w₁ a.depositPda a.user
        (AccountData.len (.deposit StakeDeposit.zeroed)) := hw.fundsRent hrent
    obtain ⟨w₂, hcreate⟩ := Context.createOrAdoptPda_ok_iff.mpr
      ⟨⟨_, DepositAccounts.mem_systemProgram hnext, ha.systemProgram_eq⟩,
        ⟨hseeds, ha.deposit_writable⟩, hacc, hfunds⟩
    obtain ⟨-, l, rfl⟩ := Context.createOrAdoptPda_writes hcreate
    rw [rejectIf_neg (fun e => e.1 hdata), ok_bind, if_pos hdata, hcreate, ok_bind, World.data,
      World.account_set_self]
    exact ⟨_, rfl⟩

/-- The record is credited. -/
theorem depositRecord_ok (h : Standing ctx π w₁ p t m) {accounts : List AccountInfo}
    (hnext : DepositAccounts.next accounts = .ok a) (ha : a.Correct ctx π w p ata lpAta)
    (hw : World.TokensOnly w w₁) {d : StakeDeposit}
    (hd : w.recordOrZeroed ctx.programId (ctx.depositPda π a.user.key) = d)
    (htakes : d.Takes junior) (hflag : d.isJuniorDeposit = true → d.isInitialized = 1)
    (hlp : d.lpAmount.toNat + lp.toNat < 2 ^ 64) :
    ∃ w', depositRecord junior ctx w₁ accounts a clock lp = .ok w' := by
  obtain ⟨⟨w₂, d₂⟩, hopen⟩ := openRecord_ok h hnext ha hw
  obtain ⟨-, -, -, -, -, d₀, hd₀, hlp₂, hjunior, hinit⟩ := openRecord_eq_ok hopen
  have hrec : w₁.recordOrZeroed ctx.programId a.depositPda.key = d := by
    rw [World.recordOrZeroed, hw.record_eq, ha.deposit_eq]
    exact hd
  obtain rfl : d₀ = d := hd₀.trans hrec
  obtain ⟨x, hx⟩ := exists_toNat hlp
  have hadd : checkedAdd d₂.lpAmount lp = some x := by
    rw [hlp₂]
    exact checkedAdd_eq_some.mpr hx
  cases junior with
  | false =>
    have hsenior : ¬d₂.isJuniorDeposit = true := by
      rw [hjunior]
      intro hj
      rw [htakes (hflag hj)] at hj
      cases hj
    show ∃ w', recordDeposit ctx w₁ accounts a clock lp = .ok w'
    unfold recordDeposit creditRecord
    rw [hopen, ok_bind]
    simp only [rejectIf_neg hsenior, ok_bind, okOr_eq_ok.mpr hadd]
    exact ⟨_, World.store_eq_ok.mpr ⟨ha.deposit_writable, rfl⟩⟩
  | true =>
    have hgate : ¬(d₂.isJuniorDeposit = false ∧ d₂.isInitialized = 1) := by
      rw [hjunior, hinit]
      rintro ⟨hj, hi⟩
      rw [htakes hi] at hj
      cases hj
    have hadd' : checkedAdd (d₂.setJuniorDeposit true).lpAmount lp = some x := hadd
    show ∃ w', recordDepositJunior ctx w₁ accounts a clock lp = .ok w'
    unfold recordDepositJunior creditRecord
    rw [hopen, ok_bind]
    simp only [rejectIf_neg hgate, ok_bind, okOr_eq_ok.mpr hadd']
    exact ⟨_, World.store_eq_ok.mpr ⟨ha.deposit_writable, rfl⟩⟩

/-! ## The instruction -/

/-- The deposit into the tranche `junior`. -/
def StakeInstruction.depositInto : Bool → UInt64 → StakeInstruction
  | false => .deposit
  | true => .depositJunior

theorem process_depositInto {w' : World} {accounts : List AccountInfo} :
    process ctx w accounts (.depositInto junior amount) = .ok w' ↔
      Nonempty (DepositRun ctx w accounts junior amount w') := by
  cases junior with
  | false => exact processDeposit_eq_ok
  | true => exact processDepositJunior_eq_ok

/-- The value is the principal and the fees. -/
theorem Valid.principal_lt {X : Nat} (h : Valid ctx π X w p t m) : p.book.principal < 2 ^ 64 := by
  have hlt := h.value_lt
  unfold Book.value at hlt
  unfold Book.principal
  omega

/-- An accrual keeps the books sound. -/
theorem Valid.accrued_sound {X : Nat} (h : Valid ctx π X w p t m)
    (hacc : accrueFeesInner p t.amount = .ok p₁) :
    Ledger.Sound X ⟨p₁.book, t.amount.toNat, w.positions ctx.programId π⟩ := by
  obtain ⟨-, ms, hms, hrun⟩ := accrueFeesInner_run (f := w.positions ctx.programId π) hacc
  have hsound := Ledger.Sound.run h.sound hrun
  rwa [hms.sum_eq_zero fun _ _ => rfl, Nat.add_zero] at hsound

theorem Book.value_deposit (b : Book) (x l : Nat) (junior : Bool) :
    (b.deposit x l junior).value = b.value + x := by
  cases junior <;> simp only [Book.deposit, Book.value] <;> omega

theorem Book.supply_deposit (b : Book) (x l : Nat) (junior : Bool) :
    (b.deposit x l junior).supply = b.supply + l := by
  cases junior <;> rfl

theorem refreshHwmAfterDeposit_ok (h0 : 0 ≤ p.book.value) (h : p.book.value < 2 ^ 64) :
    ∃ p', refreshHwmAfterDeposit p clock = .ok p' := by
  obtain ⟨v, hv, -⟩ := StakePool.totalPoolValue_isSome h0 h
  unfold refreshHwmAfterDeposit
  by_cases hon : p.hwmEnabled = true
  · rw [if_pos hon, okOr_eq_ok.mpr hv, ok_bind]
    exact ⟨_, rfl⟩
  · rw [if_neg hon]
    exact ⟨p, rfl⟩

/-- What an accepted deposit shows. -/
theorem DepositRun.admitted {w' : World} {accounts : List AccountInfo} {X : Nat}
    (r : DepositRun ctx w accounts junior amount w') (h : Valid ctx π X w p t m)
    (hnext : DepositAccounts.next accounts = .ok a) (ha : a.Correct ctx π w p ata lpAta) :
    amount.toNat ≤ ata.amount.toNat ∧
      (w.recordOrZeroed ctx.programId (ctx.depositPda π a.user.key)).Takes junior ∧
      accrueFeesInner p t.amount = .ok r.accrued ∧ Admits p r.accrued junior amount r.lp := by
  obtain rfl : r.a = a := Except.ok.inj (r.next_eq.symm.trans hnext)
  obtain ⟨hπ, hpool, hacc⟩ := r.standing_eq h.standing
    ⟨_, (DepositAccounts.next_eq_ok hnext).2, ha.pool_eq⟩
  obtain ⟨hmintKey, hvaultKey, hopen, -, hcap⟩ := validateDeposit_eq_ok r.valid
  rw [← hpool] at hmintKey hvaultKey hopen hcap
  have htranches := r.tranches
  rw [← hpool] at htranches
  have hsound := h.accrued_sound hacc
  have hlt := t.amount.toNat_lt
  have hle : r.accrued.book.value ≤ t.amount.toNat := hsound.toBalanced.value_le
  have hvalue : 0 ≤ r.accrued.book.value := hsound.value_nonneg
  obtain ⟨h0, howned, hlpEq⟩ := (depositPrice_eq_ok hvalue (by omega)).mp r.price_eq
  have hlpNe := r.lp_ne
  rw [Ne, eq_zero_iff] at hlpNe
  obtain ⟨-, -, -, -, hpaid, -⟩ :=
    h.standing.collectDeposit hvaultKey hmintKey ha.user_ne r.collect_eq
  refine ⟨?_, ?_, hacc, ⟨hopen, htranches, ?_, depositGate_eq_ok.mp r.gate, h0, howned, hlpEq,
    by omega, applyMinimumLiquidityLock_ok_iff.mp ⟨_, r.lock_eq⟩, ?_⟩⟩
  · -- the transfer took the amount from the user's account
    have hcollect := r.collect_eq
    unfold collectDeposit Context.invoke at hcollect
    simp only [bind_eq_ok] at hcollect
    obtain ⟨w₂, htransfer, -⟩ := hcollect
    have hmove := (SplToken.processTransfer_eq_ok.mp
      (Context.transfer_of_invokeSigned htransfer)).2
    obtain ⟨s, d, sA, dA, hs, -, -, -, -, hsA, -⟩ :=
      (SplToken.moveTokens_eq_ok (ha.ata_ne h.standing)).mp hmove
    obtain rfl : s = ata := Option.some_inj.mp (hs.symm.trans ha.ata_eq)
    omega
  · intro hinit
    have hrec : r.paid.recordOrZeroed ctx.programId (ctx.depositPda π r.a.user.key) =
        w.recordOrZeroed ctx.programId (ctx.depositPda π r.a.user.key) := by
      rw [World.recordOrZeroed, World.recordOrZeroed, hpaid.record_eq]
    cases junior with
    | false =>
      obtain ⟨hflag, -⟩ := recordDeposit_eq_ok r.record_eq
      rwa [hπ, hrec] at hflag
    | true =>
      obtain ⟨hflag, -⟩ := recordDepositJunior_eq_ok r.record_eq
      rw [hπ, hrec] at hflag
      exact hflag.resolve_right (not_not.mpr hinit)
  · exact (checkDepositCap_eq_ok h.principal_lt).mp hcap
  · refine (depositBook_ok_iff ?_ r.accrued.juniorBalance.toNat_lt).mp ⟨_, r.book_eq⟩
    exact hsound.toMatched.seniorLp_eq.1

/-- An admitted deposit is accepted. -/
theorem Valid.deposit_ok {accounts : List AccountInfo} {X : Nat} {es : List Event}
    (h : Valid ctx π X w p t m) (hlocked : Locked es p m)
    (hnext : DepositAccounts.next accounts = .ok a) (ha : a.Correct ctx π w p ata lpAta)
    (hclock : readClock w a.clockSysvar = .ok clock) (hsupply : TokenSupply t m lpAta ata)
    (hpos : 0 < amount.toNat) (hamount : amount.toNat ≤ ata.amount.toNat)
    (htakes : (w.recordOrZeroed ctx.programId (ctx.depositPda π a.user.key)).Takes junior)
    (hacc : accrueFeesInner p t.amount = .ok p₁) (hadm : Admits p p₁ junior amount lp) :
    ∃ w', Nonempty (DepositRun ctx w accounts junior amount w') := by
  have hst := h.standing
  have hsound := h.accrued_sound hacc
  have hlt := t.amount.toNat_lt
  have hle : p₁.book.value ≤ t.amount.toNat := hsound.toBalanced.value_le
  have hvalue : 0 ≤ p₁.book.value := hsound.value_nonneg
  have hcounter : p₁.book.supply = p.book.supply := accrueFeesInner_supply hacc
  have hcollateral := hsupply.collateral_fits
  have hlpLe := UInt64.le_iff_toNat_le.mp hsupply.lp_le
  have hlpPos := hadm.lp_pos
  obtain ⟨howner, hdata, hread⟩ := hst.readPool_eq ha.pool_eq
  have hwritable : validateAccountWritable a.poolPda = .ok () :=
    rejectIf_neg (by rw [ha.pool_writable]; decide)
  have hnotEmpty : validateAccountNotEmpty w a.poolPda = .ok () :=
    rejectIf_neg (by rw [hdata]; exact fun e => by cases e)
  have hvalid := validateDeposit_ok (e := depositMintError junior) ha hadm.unresolved
    ((checkDepositCap_eq_ok h.principal_lt).mpr hadm.cap)
  have haccrue : preAccrueFeeModes w p a.vault = .ok p₁ := by
    rw [hst.preAccrue ha.vault_eq.symm]
    exact hacc
  have hprice : depositPrice junior p₁ amount = .ok lp :=
    (depositPrice_eq_ok hvalue (by omega)).mpr ⟨hadm.valued, hadm.owned, hadm.lp_eq⟩
  obtain ⟨mintAmount, hlock⟩ := applyMinimumLiquidityLock_ok_iff.mpr hadm.above_lock
  have hcount : p₁.book.supply + lp.toNat < 2 ^ 64 := by
    have hsum := hadm.fits.supply
    rwa [Book.supply_deposit] at hsum
  -- the mint is the dead shares short of the counter, which has room for the LP
  have hminted : m.supply.toNat + mintAmount.toNat < 2 ^ 64 := by
    have hspent := applyMinimumLiquidityLock_eq_ok hlock
    unfold Locked at hlocked
    split at hlocked
    · omega
    · obtain ⟨-, hzero⟩ := hlocked
      omega
  obtain ⟨paid, hpaid⟩ := hst.collectDeposit_ok ha hamount (by omega) (by omega) hminted
  obtain ⟨_, _, -, -, htokens, hst₁⟩ :=
    hst.collectDeposit ha.vault_eq.symm ha.lpMint_eq.symm ha.user_ne hpaid
  obtain ⟨booked, hbooked⟩ : ∃ p', depositBook junior p₁ amount lp = .ok p' :=
    (depositBook_ok_iff hsound.toMatched.seniorLp_eq.1 p₁.juniorBalance.toNat_lt).mpr hadm.fits
  have hclock₁ : readClock paid a.clockSysvar = .ok clock := by
    have hkey := (readClock_eq_ok.mp hclock).1
    have hread := htokens.clock_eq.trans (clock_of_read hclock)
    rw [readClock_eq_ok, World.data, hkey]
    exact ⟨rfl, World.clock_eq_some.mp hread⟩
  have hvalueEq : booked.book.value = p₁.book.value + amount.toNat := by
    have hb : booked.book = p₁.book.deposit amount.toNat lp.toNat junior := by
      cases junior with
      | false => exact (bookDeposit_book hbooked).2
      | true => exact (bookDepositJunior_book hbooked).2
    rw [hb, Book.value_deposit]
  obtain ⟨final, hfinal⟩ : ∃ p', refreshHwmAfterDeposit booked clock = .ok p' :=
    refreshHwmAfterDeposit_ok (by omega) (by omega)
  obtain ⟨recorded, hrecorded⟩ : ∃ w₂,
      depositRecord junior ctx paid accounts a clock lp = .ok w₂ := by
    have hposition := hst.position_eq a.user.key rfl
    refine depositRecord_ok hst₁ hnext ha htokens rfl htakes (fun hj => ?_) ?_
    · -- only a live position is flagged
      have hlive := (h.sound.toMatched.junior_live (ctx.depositPda π a.user.key)
        ((congrArg Position.junior hposition).trans hj)).2
      have hlive := (congrArg Position.live hposition).symm.trans hlive
      exact beq_iff_eq.mp hlive
    · -- the record counts towards the supply
      have hle := (lp_le_supply h.sound.toMatched (k := ctx.depositPda π a.user.key)
        (Nat.le_refl _)).1
      have hlpRead : (w.positions ctx.programId π (ctx.depositPda π a.user.key)).lp =
          (w.recordOrZeroed ctx.programId (ctx.depositPda π a.user.key)).lpAmount.toNat :=
        congrArg Position.lp hposition
      omega
  obtain ⟨w', hstore⟩ : ∃ w', recorded.store a.poolPda (.pool final) = .ok w' :=
    ⟨_, World.store_eq_ok.mpr ⟨ha.pool_writable, rfl⟩⟩
  exact ⟨w', ⟨⟨a, p, p₁, lp, mintAmount, paid, booked, clock, final, recorded,
    fun e => by rw [e] at hpos; exact Nat.lt_irrefl _ hpos, hnext, ha.user_signs, hnotEmpty, howner,
    hwritable, hread, hadm.tranches, hvalid, haccrue, depositGate_eq_ok.mpr hadm.gate, hprice,
    fun e => by rw [e] at hlpPos; exact Nat.lt_irrefl _ hlpPos, hlock, hpaid, hbooked, hclock₁,
    hfinal, hrecorded, hstore⟩⟩⟩

/-- In every reachable state a deposit into either tranche with the correct accounts
succeeds exactly if the user holds the amount, the record is blank or of the tranche,
the accrual goes through and the books admit the deposit. -/
theorem deposit_admitted {es : List Event} {accounts : List AccountInfo}
    (h : ctx.Reached π es w) (hp : w.pool ctx.programId π = some p)
    (hvault : w.token p.vault = some t) (hmint : w.mint p.lpMint = some m)
    (hnext : DepositAccounts.next accounts = .ok a) (ha : a.Correct ctx π w p ata lpAta)
    (hclock : readClock w a.clockSysvar = .ok clock) (hsupply : TokenSupply t m lpAta ata) :
    (∃ w', process ctx w accounts (.depositInto junior amount) = .ok w') ↔
      0 < amount.toNat ∧ amount.toNat ≤ ata.amount.toNat ∧
        (w.recordOrZeroed ctx.programId (ctx.depositPda π a.user.key)).Takes junior ∧
        ∃ p₁ lp, accrueFeesInner p t.amount = .ok p₁ ∧ Admits p p₁ junior amount lp := by
  obtain ⟨q, t₀, m₀, hvalid, hlocked⟩ := h.locked
  obtain rfl : p = q := Option.some_inj.mp (hp.symm.trans hvalid.standing.pool_eq)
  obtain rfl : t = t₀ := Option.some_inj.mp (hvault.symm.trans hvalid.standing.vault_eq)
  obtain rfl : m = m₀ := Option.some_inj.mp (hmint.symm.trans hvalid.standing.mint_eq)
  simp only [process_depositInto]
  constructor
  · rintro ⟨w', ⟨r⟩⟩
    obtain ⟨hamount, htakes, hacc, hadm⟩ := r.admitted hvalid hnext ha
    have hpos := r.amount_ne
    rw [Ne, eq_zero_iff] at hpos
    exact ⟨by omega, hamount, htakes, r.accrued, r.lp, hacc, hadm⟩
  · rintro ⟨hpos, hamount, htakes, p₁, lp, hacc, hadm⟩
    exact hvalid.deposit_ok hlocked hnext ha hclock hsupply hpos hamount htakes hacc hadm

end

/-! ## A junior deposit on a used record -/

namespace Sample

def crowded : List Action :=
  [enableTranches, deposit alice 100000, depositJunior bob 50000, .send 777]

def bobDeposit : DepositAccounts where
  user := signer (key bob)
  poolPda := writable pool
  userAta := writable (ata bob)
  vault := writable vault
  lpMint := writable lpMint
  userLpAta := writable (lpAta bob)
  vaultAuth := readonly (ctx.vaultAuthority pool)
  depositPda := writable (ctx.depositPda pool (key bob))
  tokenProgram := readonly splTokenId
  clockSysvar := readonly clockSysvarId
  systemProgram := readonly systemProgramId

theorem crowded_state : (run crowded).isSome = true ∧
    (process ctx (after crowded) (depositAccounts bob)
      (.depositJunior 20000)).toOption.isSome = true ∧
    ((after crowded).pool ctx.programId pool).map (fun p => (p.lpMint, p.vault, p.collateralMint)) =
      some (lpMint, vault, collateralMint) ∧
    (after crowded).token vault =
      some ⟨collateralMint, ctx.vaultAuthority pool, 150777, .initialized⟩ ∧
    (after crowded).mint lpMint = some ⟨some (ctx.vaultAuthority pool), 149000, 6, true⟩ ∧
    (after crowded).token (lpAta bob) = some ⟨lpMint, key bob, 50000, .initialized⟩ ∧
    (after crowded).token (ata bob) = some ⟨collateralMint, key bob, 950000, .initialized⟩ ∧
    ((after crowded).record ctx.programId (ctx.depositPda pool (key bob))).isSome = true ∧
    (after crowded).data bobDeposit.clockSysvar = .clock ⟨100, 1⟩ := by decide +kernel

theorem deposit_admitted_crowded :
    ∃ p p₁ lp, (after crowded).pool ctx.programId pool = some p ∧
      accrueFeesInner p 150777 = .ok p₁ ∧ Admits p p₁ true 20000 lp := by
  obtain ⟨hrun, hdeposit, hpool, hvault, hmint, hlp, hata, hrecord, hclock⟩ := crowded_state
  obtain ⟨p, hp, hfields⟩ := Option.map_eq_some_iff.mp hpool
  obtain ⟨d, hd⟩ := Option.isSome_iff_exists.mp hrecord
  simp only [Prod.mk.injEq] at hfields
  obtain ⟨h1, h2, h3⟩ := hfields
  rw [← h2] at hvault
  rw [← h1] at hmint
  have hcorrect : bobDeposit.Correct ctx pool (after crowded) p
      ⟨collateralMint, key bob, 950000, .initialized⟩ ⟨lpMint, key bob, 50000, .initialized⟩ :=
    ⟨rfl, by decide, rfl, rfl, hata, h3.symm, rfl, rfl, rfl, h2.symm, rfl, h1.symm, rfl, hlp,
      h1.symm, rfl, rfl, rfl, rfl, rfl, rfl, .inl ⟨d, hd⟩, rfl, rfl⟩
  have hnext : DepositAccounts.next (depositAccounts bob) = .ok bobDeposit := rfl
  obtain ⟨w', hw'⟩ := Option.isSome_iff_exists.mp hdeposit
  have hok : process ctx (after crowded) (depositAccounts bob) (.depositInto true 20000) = .ok w' :=
    toOption_eq_some.mp hw'
  obtain ⟨-, -, -, p₁, lp, hacc, hadmits⟩ := (deposit_admitted (after_reached hrun) hp hvault hmint
    hnext hcorrect (readClock_eq_ok.mpr ⟨rfl, hclock⟩) ⟨by decide, by decide⟩).mp ⟨w', hok⟩
  exact ⟨p, p₁, lp, hp, hacc, hadmits⟩

end Sample

end PercolatorStake
