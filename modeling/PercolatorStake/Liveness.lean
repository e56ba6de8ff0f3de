import PercolatorStake.Dilution
import PercolatorStake.HwmDrain
import PercolatorStake.Timelock

/-!
# Withdrawals go through

A withdrawal that is due is rejected for three reasons only: it rounds to nothing,
it would take the pool below its high-water-mark floor, or the counter of all
withdrawals is full.  Every other check and every other counter update is covered
by what holds of a reachable ledger.
-/

namespace PercolatorStake

open Result Word

/-! ## What a withdrawal does -/

section

variable {ctx : Context} {π : Pubkey} {w w' : World} {p : StakePool} {t : TokenAccount} {m : Mint}

theorem processBurn_token {account mint authority k : Pubkey} {amount : UInt64}
    (h : SplToken.processBurn w account mint authority amount = .ok w') (hk : k ≠ account) :
    w'.token k = w.token k := by
  obtain ⟨s, m, sA, su, hs, -, -, hm, -, -, -, -, rfl⟩ := SplToken.processBurn_eq_ok.mp h
  have hm' : (SplToken.setToken w account { s with amount := sA }).mint mint = some m :=
    (SplToken.mint_setToken hs).trans hm
  rw [SplToken.token_setMint hm', SplToken.token_setToken_of_ne hk]

theorem moveTokens_token {source dest k : Pubkey} {amount : UInt64} (hne : source ≠ dest)
    (h : SplToken.moveTokens w source dest amount = .ok w') (hsource : k ≠ source)
    (hdest : k ≠ dest) : w'.token k = w.token k := by
  obtain ⟨s, d, sA, dA, -, -, -, -, -, -, -, rfl⟩ := (SplToken.moveTokens_eq_ok hne).mp h
  rw [SplToken.token_setToken_of_ne hdest, SplToken.token_setToken_of_ne hsource]

theorem moveTokens_dest {source dest : Pubkey} {amount : UInt64} {d : TokenAccount}
    (hne : source ≠ dest) (h : SplToken.moveTokens w source dest amount = .ok w')
    (hd : w.token dest = some d) : ∃ b : UInt64, b.toNat = d.amount.toNat + amount.toNat ∧
      w'.token dest = some { d with amount := b } := by
  obtain ⟨s, d', sA, b, -, -, hd', -, -, -, hb, rfl⟩ := (SplToken.moveTokens_eq_ok hne).mp h
  obtain rfl : d = d' := Option.some_inj.mp (hd.symm.trans hd')
  exact ⟨b, hb, SplToken.token_setToken_self⟩

/-- A payout touches three token accounts, and credits that of the user. -/
theorem payOut_token {a : WithdrawAccounts} {lp amount : UInt64}
    (hne : a.vault.key ≠ a.userAta.key) (h : payOut ctx w a p lp amount = .ok w') :
    (∀ k, k ≠ a.userLpAta.key → k ≠ a.vault.key → k ≠ a.userAta.key →
      w'.token k = w.token k) ∧
    ∀ s, a.userAta.key ≠ a.userLpAta.key → w.token a.userAta.key = some s →
      ∃ b : UInt64, b.toNat = s.amount.toNat + amount.toNat ∧
        w'.token a.userAta.key = some { s with amount := b } := by
  unfold payOut Context.invoke at h
  simp only [bind_eq_ok] at h
  obtain ⟨w₁, hburn, _, -, hpay⟩ := h
  have hburnt := fun {k} (hk : k ≠ a.userLpAta.key) =>
    processBurn_token (Context.burn_of_invokeSigned hburn) hk
  by_cases hpos : amount > 0
  · rw [if_pos hpos] at hpay
    obtain ⟨-, hmove⟩ := SplToken.processTransfer_eq_ok.mp (Context.transfer_of_invokeSigned hpay)
    refine ⟨?_, ?_⟩
    · intro k hlp hvault hata
      rw [moveTokens_token hne hmove hvault hata, hburnt hlp]
    · intro s hlp hs
      exact moveTokens_dest hne hmove ((hburnt hlp).trans hs)
  · rw [if_neg hpos] at hpay
    cases hpay
    have hzero : amount.toNat = 0 := Nat.eq_zero_of_not_pos fun e => hpos (pos_iff.mpr e)
    refine ⟨fun k hlp _ _ => hburnt hlp, ?_⟩
    intro s hlp hs
    exact ⟨s.amount, by omega, (hburnt hlp).trans hs⟩

/-- Writing what is not a token account over what is not one. -/
theorem token_set {k k' : Pubkey} {o : Account} (hold : w.token k = none)
    (hnew : ∀ t, o ≠ ⟨splTokenId, .token t⟩) : (w.set k o).token k' = w.token k' := by
  by_cases hk : k' = k
  · rw [hk, hold]
    cases ht : (w.set k o).token k with
    | none => rfl
    | some t =>
      rw [World.token_eq_some, World.account_set_self] at ht
      exact (hnew t ht).elim
  · rw [World.token, World.token, World.account_set_of_ne hk]

/-- A withdrawal writes the record of its user and no other. -/
theorem WithdrawRun.record_final {accounts : List AccountInfo} {lp : UInt64}
    (r : WithdrawRun ctx w accounts lp w') (h : Standing ctx π w p t m)
    (hpool : ∃ a, accounts[1]? = some a ∧ a.key = π) {j : Pubkey} :
    w'.record ctx.programId j = if j = ctx.depositPda π r.a.user.key then some r.debited
      else w.record ctx.programId j := by
  obtain ⟨hπ, -, -⟩ := r.standing_eq h hpool
  obtain ⟨_, _, -, -, -, -, -, hw', hpaid, -⟩ := r.settled h hpool
  obtain ⟨hpda, hrec⟩ := r.record_eq
  rw [hpda, hπ] at hrec
  have hne : ctx.depositPda π r.a.user.key ≠ π := by
    intro e
    rw [e, World.pool_eq_some.mp h.pool_eq] at hrec
    cases congrArg Account.data hrec
  refine (congrArg (fun u => World.record u ctx.programId j) hw').trans ?_
  rw [record_set_set hne ((hpaid.pool_eq ctx.programId π).trans h.pool_eq), hpaid.record_eq]

/-- The record and the pool are written over no token account. -/
theorem WithdrawRun.token_paid {accounts : List AccountInfo} {lp : UInt64}
    (r : WithdrawRun ctx w accounts lp w') (h : Standing ctx π w p t m)
    (hpool : ∃ a, accounts[1]? = some a ∧ a.key = π) (k : Pubkey) :
    w'.token k = r.paid.token k := by
  obtain ⟨_, _, -, -, -, -, -, hw', hpaid, -⟩ := r.settled h hpool
  obtain ⟨hπ, -, -⟩ := r.standing_eq h hpool
  obtain ⟨hpda, hrec⟩ := r.record_eq
  rw [hpda, hπ] at hrec
  have hrec₁ : r.paid.account (ctx.depositPda π r.a.user.key) =
      ⟨ctx.programId, .deposit r.deposit⟩ :=
    (hpaid.account_iff (fun _ e => by cases e) (fun _ e => by cases e)).mpr hrec
  have hrecord : r.paid.token (ctx.depositPda π r.a.user.key) = none := by
    rw [World.token, hrec₁]
  have hpoolEq : (r.paid.set (ctx.depositPda π r.a.user.key)
      ⟨ctx.programId, .deposit r.debited⟩).pool ctx.programId π = some p := by
    rw [pool_setRecord (.inl ⟨_, hrec₁⟩), hpaid.pool_eq]
    exact h.pool_eq
  have hπtoken : (r.paid.set (ctx.depositPda π r.a.user.key)
      ⟨ctx.programId, .deposit r.debited⟩).token π = none := by
    rw [World.token, World.pool_eq_some.mp hpoolEq]
  refine (congrArg (fun u => World.token u k) hw').trans ?_
  rw [token_set hπtoken (fun _ e => by cases congrArg Account.data e),
    token_set hrecord (fun _ e => by cases congrArg Account.data e)]

end

/-- The account arguments are the correct ones: the pool's accounts and the user's
own, with the access the instruction asks for.  `lpAta` and `ata` are the contents of
the user's two token accounts. -/
structure WithdrawAccounts.Correct (ctx : Context) (π : Pubkey) (w : World) (p : StakePool)
    (lpAta ata : TokenAccount) (a : WithdrawAccounts) : Prop where
  user_signs : a.user.isSigner = true
  pool_eq : a.poolPda.key = π
  pool_writable : a.poolPda.isWritable = true
  lpAta_eq : w.token a.userLpAta.key = some lpAta
  lpAta_mint : lpAta.mint = p.lpMint
  lpAta_owner : lpAta.owner = a.user.key
  lpAta_live : lpAta.state = .initialized
  lpAta_writable : a.userLpAta.isWritable = true
  lpMint_eq : a.lpMint.key = p.lpMint
  lpMint_writable : a.lpMint.isWritable = true
  vault_eq : a.vault.key = p.vault
  vault_writable : a.vault.isWritable = true
  ata_eq : w.token a.userAta.key = some ata
  ata_mint : ata.mint = p.collateralMint
  ata_live : ata.state = .initialized
  ata_writable : a.userAta.isWritable = true
  ata_ne : a.userAta.key ≠ p.vault
  vaultAuth_eq : a.vaultAuth.key = ctx.vaultAuthority π
  deposit_eq : a.depositPda.key = ctx.depositPda π a.user.key
  deposit_writable : a.depositPda.isWritable = true
  tokenProgram_eq : a.tokenProgram.key = splTokenId

/-- The record of the user is initialized, cooled down and large enough, and the user
holds the LP. -/
structure Due (ctx : Context) (π : Pubkey) (w : World) (p : StakePool) (clock : Clock)
    (user : Pubkey) (d : StakeDeposit) (lpAta : TokenAccount) (lp : UInt64) : Prop where
  record_eq : w.record ctx.programId (ctx.depositPda π user) = some d
  initialized : d.isInitialized = 1
  user_eq : d.user = user
  cooled : saturatingAdd d.lastDepositSlot p.cooldownSlots ≤ clock.slot
  pos : 0 < lp
  le_record : lp ≤ d.lpAmount
  le_balance : lp ≤ lpAta.amount

/-- What the token program keeps of its own accounts: no account holds more than the
supply of its mint, and two accounts of one mint together hold no more than fits. -/
structure TokenSupply (t : TokenAccount) (m : Mint) (lpAta ata : TokenAccount) : Prop where
  lp_le : lpAta.amount ≤ m.supply
  collateral_fits : ata.amount.toNat + t.amount.toNat < 2 ^ 64

/-- The holder got `x` out of the vault for `lp`. -/
structure PaysOut (ctx : Context) (π : Pubkey) (w' : World) (p : StakePool) (t : TokenAccount)
    (a : WithdrawAccounts) (ata : TokenAccount) (d : StakeDeposit) (lp x : UInt64) : Prop where
  vault : ∃ t', w'.token p.vault = some t' ∧ t'.amount.toNat + x.toNat = t.amount.toNat
  credited : ∃ s, w'.token a.userAta.key = some s ∧
    s.amount.toNat = ata.amount.toNat + x.toNat
  debited : ∃ d', w'.record ctx.programId (ctx.depositPda π a.user.key) = some d' ∧
    d'.lpAmount.toNat + lp.toNat = d.lpAmount.toNat

section

variable {ctx : Context} {π : Pubkey} {w w' : World} {p p₁ : StakePool} {t lpAta ata : TokenAccount}
  {m : Mint} {a : WithdrawAccounts} {d : StakeDeposit} {clock : Clock} {lp x : UInt64}

/-! ## Checks -/

theorem validateTokenMint_ok {a : AccountInfo} {t : TokenAccount} {mint : Pubkey} {e : StakeError}
    (h : w.token a.key = some t) (hm : t.mint = mint) : validateTokenMint w a mint e = .ok () := by
  rw [World.token_eq_some] at h
  unfold validateTokenMint World.owner World.data
  rw [h]
  simp only [SplToken.header, bind_eq_ok, rejectIf_eq_ok, ok_eq_ok, not_not]
  exact ⟨(), trivial, _, rfl, congrArg Vector.toList hm⟩

theorem validateWithdraw_ok (ha : a.Correct ctx π w p lpAta ata)
    (hrecord : w.record ctx.programId (ctx.depositPda π a.user.key) = some d) :
    validateWithdraw ctx w a p = .ok () := by
  have hlp := World.token_eq_some.mp ha.lpAta_eq
  have hr := World.record_eq_some.mp hrecord
  rw [← ha.deposit_eq] at hr
  have hheader : SplToken.header (w.data a.userLpAta) =
      .ok (lpAta.mint.toList, lpAta.owner.toList) := by
    rw [World.data, hlp]
    rfl
  have hlen : ¬(w.data a.depositPda).len < stakeDepositSize := by
    rw [World.data, hr]
    exact Nat.lt_irrefl _
  have hauth : a.vaultAuth.key =
      (ctx.derivation.deriveVaultAuthority ctx.programId a.poolPda.key).1 := by
    rw [ha.vaultAuth_eq, ha.pool_eq]
    rfl
  have hpda : a.depositPda.key =
      (ctx.derivation.deriveDepositPda ctx.programId a.poolPda.key a.user.key).1 := by
    rw [ha.deposit_eq, ha.pool_eq]
    rfl
  unfold validateWithdraw verifyTokenProgram validateAccountWritable
  simp only [bind_eq_ok, rejectIf_eq_ok, not_not, Bool.not_eq_false, hheader, ok_eq_ok]
  refine ⟨(), ha.lpMint_eq.symm, (), ha.vault_eq.symm, (), ha.tokenProgram_eq, _, rfl, (), ?_, (),
    ?_, (), ?_, (), validateTokenMint_ok ha.ata_eq ha.ata_mint, (), hauth, (), hpda, (), ?_, (),
    hlen, ha.deposit_writable⟩
  · exact congrArg Vector.toList ha.lpAta_mint
  · exact congrArg Vector.toList ha.lpAta_owner
  · rw [ha.vault_eq]
    exact ha.ata_ne
  · rw [World.owner, hr]

theorem checkRecord_ok (h : Standing ctx π w p t m) (ha : a.Correct ctx π w p lpAta ata)
    (hdue : Due ctx π w p clock a.user.key d lpAta lp) : checkRecord w a p clock lp = .ok d := by
  have hr := World.record_eq_some.mp hdue.record_eq
  rw [← ha.deposit_eq] at hr
  obtain ⟨hpool, hdisc⟩ := h.record_eq a.user.key d hdue.record_eq
  rw [checkRecord_eq_ok]
  refine ⟨by rw [World.data, hr], hdisc, ⟨hdue.initialized, hdue.user_eq, ?_⟩, hdue.cooled,
    hdue.le_record⟩
  rw [ha.pool_eq]
  exact hpool

/-! ## Tokens -/

/-- The LP of the user burns. -/
theorem Standing.burn_ok (h : Standing ctx π w p t m) (ha : a.Correct ctx π w p lpAta ata)
    (hsupply : TokenSupply t m lpAta ata) (hlp : lp ≤ lpAta.amount) :
    ∃ w₁ s, ctx.invoke w (SplToken.burn a.userLpAta.key a.lpMint.key a.user.key lp)
        [a.userLpAta, a.lpMint, a.user, a.tokenProgram] = .ok w₁ ∧
      Standing ctx π w₁ p t { m with supply := s } ∧
      w₁.token a.userAta.key = some ata := by
  rw [UInt64.le_iff_toNat_le] at hlp
  have hle := UInt64.le_iff_toNat_le.mp hsupply.lp_le
  obtain ⟨sAmount, hsAmount⟩ := exists_toNat (n := lpAta.amount.toNat - lp.toNat)
    (by have := lpAta.amount.toNat_lt; omega)
  obtain ⟨s, hs⟩ := exists_toNat (n := m.supply.toNat - lp.toNat)
    (by have := m.supply.toNat_lt; omega)
  have hburn : SplToken.processBurn w a.userLpAta.key p.lpMint a.user.key lp =
      .ok (SplToken.setMint (SplToken.setToken w a.userLpAta.key
        { lpAta with amount := sAmount }) p.lpMint { m with supply := s }) :=
    SplToken.processBurn_eq_ok.mpr ⟨lpAta, m, sAmount, s, ha.lpAta_eq, ha.lpAta_live,
      ha.lpAta_owner, h.mint_eq, h.mint_live, ha.lpAta_mint, by omega, by omega, rfl⟩
  have hauth : ctx.Authorized [a.userLpAta, a.lpMint, a.user, a.tokenProgram] [] a.userLpAta
      a.lpMint a.user.key :=
    ⟨⟨by simp, ha.lpAta_writable⟩, ⟨by simp, ha.lpMint_writable⟩,
      .inl ⟨a.user, by simp, rfl, ha.user_signs⟩⟩
  obtain ⟨s', -, -, h₁⟩ := h.burn hburn
  refine ⟨_, s', hauth.burn.mpr ?_, h₁, ?_⟩
  · rw [ha.lpMint_eq]
    exact hburn
  · -- the two accounts of the user are of different mints
    have hne : a.userAta.key ≠ a.userLpAta.key := by
      intro e
      have heq := ha.ata_eq
      rw [e, ha.lpAta_eq, Option.some_inj] at heq
      exact h.chartered.mints (ha.lpAta_mint.symm.trans (heq ▸ ha.ata_mint))
    rw [SplToken.token_setMint ((SplToken.mint_setToken ha.lpAta_eq).trans h.mint_eq),
      SplToken.token_setToken_of_ne hne]
    exact ha.ata_eq

/-- LP burned and collateral out, for a payout the vault holds. -/
theorem Standing.payOut_ok (h : Standing ctx π w p t m) (ha : a.Correct ctx π w p lpAta ata)
    (hsupply : TokenSupply t m lpAta ata) (hlp : lp ≤ lpAta.amount) (hx : x ≤ t.amount)
    (hbump : p₁.vaultAuthorityBump = p.vaultAuthorityBump) :
    ∃ w', PercolatorStake.payOut ctx w a p₁ lp x = .ok w' := by
  obtain ⟨w₁, s, hburn, h₁, hata⟩ := h.burn_ok ha hsupply hlp
  have hb : p₁.vaultAuthorityBump =
      (ctx.derivation.deriveVaultAuthority ctx.programId a.poolPda.key).2 := by
    rw [hbump, ha.pool_eq]
    exact h.chartered.authority_bump
  unfold PercolatorStake.payOut
  rw [hburn, ok_bind, rejectIf_neg (not_not.mpr hb), ok_bind]
  by_cases hpos : x > 0
  · rw [if_pos hpos]
    rw [UInt64.le_iff_toNat_le] at hx
    have hfits := hsupply.collateral_fits
    have hsigner : ctx.derivation.createProgramAddress
        (Derivation.vaultAuthSeeds a.poolPda.key p₁.vaultAuthorityBump) ctx.programId =
        some a.vaultAuth.key := by
      rw [hb, ctx.derivation.create_vaultAuthSeeds, ha.vaultAuth_eq, ha.pool_eq]
      rfl
    have hauth : ctx.Authorized [a.vault, a.userAta, a.vaultAuth, a.tokenProgram]
        [Derivation.vaultAuthSeeds a.poolPda.key p₁.vaultAuthorityBump] a.vault a.userAta
        a.vaultAuth.key :=
      ⟨⟨by simp, ha.vault_writable⟩, ⟨by simp, ha.ata_writable⟩,
        .inr ⟨_, List.mem_singleton_self _, hsigner⟩⟩
    obtain ⟨v, hv⟩ := exists_toNat (n := t.amount.toNat - x.toNat)
      (by have := t.amount.toNat_lt; omega)
    obtain ⟨r, hr⟩ := exists_toNat (n := ata.amount.toNat + x.toNat) (by omega)
    have hvault : w₁.token a.vault.key = some t := by
      rw [ha.vault_eq]
      exact h₁.vault_eq
    have hne : a.vault.key ≠ a.userAta.key := by
      rw [ha.vault_eq]
      exact ha.ata_ne.symm
    have hmove := (SplToken.moveTokens_eq_ok (w := w₁) hne).mpr ⟨t, ata, v, r, hvault,
      h.vault_live, hata, ha.ata_live, h.vault_mint.trans ha.ata_mint.symm, by omega, hr, rfl⟩
    have howner := h.vault_owner.trans ha.vaultAuth_eq.symm
    exact ⟨_, hauth.transfer.mpr
      (SplToken.processTransfer_eq_ok.mpr ⟨⟨t, hvault, h.vault_live, howner⟩, hmove⟩)⟩
  · rw [if_neg hpos]
    exact ⟨w₁, rfl⟩

/-! ## Books -/

/-- The loss a last junior forfeits fits both counters: it is within what is out, and
what is realized is within what is back. -/
theorem settleForfeitedLoss_ok (hle : p.book.recovered + p.book.realized ≤ p.book.returned) :
    ∃ p', settleForfeitedLoss p = .ok p' := by
  have hle : p.totalRecoveredFromWrapper.toNat + p.realizedJuniorLoss.toNat ≤
    p.totalReturned.toNat := hle
  have hflushed := p.totalFlushed.toNat_lt
  unfold settleForfeitedLoss
  simp only
  by_cases hnet : saturatingSub p.totalFlushed p.totalReturned > 0
  · rw [if_pos hnet]
    rw [gt_iff_lt, pos_iff, toNat_saturatingSub] at hnet
    generalize hf : lesser (saturatingSub p.juniorBalance p.effectiveJuniorBalance)
      (saturatingSub p.totalFlushed p.totalReturned) = f
    have hfle : f.toNat ≤ p.totalFlushed.toNat - p.totalReturned.toNat := by
      rw [← hf, toNat_lesser, toNat_saturatingSub p.totalFlushed]
      exact Nat.min_le_right ..
    by_cases hpos : f > 0
    · rw [if_pos hpos]
      obtain ⟨r, hr⟩ := exists_toNat (n := p.totalReturned.toNat + f.toNat) (by omega)
      obtain ⟨l, hl⟩ := exists_toNat (n := p.realizedJuniorLoss.toNat + f.toNat) (by omega)
      rw [okOr_eq_ok.mpr (checkedAdd_eq_some.mpr hr), ok_bind]
      have hadd : checkedAdd (StakePool.realizedJuniorLoss { p with totalReturned := r }) f =
          some l := checkedAdd_eq_some.mpr hl
      rw [okOr_eq_ok.mpr hadd, ok_bind]
      exact ⟨_, rfl⟩
    · rw [if_neg hpos]
      exact ⟨p, rfl⟩
  · rw [if_neg hnet]
    exact ⟨p, rfl⟩

theorem bookJuniorWithdraw_ok (hle : p.book.recovered + p.book.realized ≤ p.book.returned)
    (hlp : lp.toNat ≤ p.book.juniorLp) (hx : x.toNat ≤ p.book.juniorBalance) :
    ∃ p', bookJuniorWithdraw p lp x = .ok p' := by
  have hlt := p.juniorTotalLp.toNat_lt
  have hlp : lp.toNat ≤ p.juniorTotalLp.toNat := hlp
  obtain ⟨jl, hjl⟩ := exists_toNat (n := p.juniorTotalLp.toNat - lp.toNat) (by omega)
  unfold bookJuniorWithdraw
  rw [okOr_eq_ok.mpr (checkedSub_eq_some.mpr (show p.juniorTotalLp.toNat = jl.toNat + lp.toNat by
    omega)), ok_bind]
  by_cases h0 : jl = 0
  · rw [if_pos h0]
    have hle' : (p.setJuniorTotalLp jl).book.recovered + (p.setJuniorTotalLp jl).book.realized ≤
        (p.setJuniorTotalLp jl).book.returned := by
      rw [StakePool.book_setJuniorTotalLp]
      exact hle
    obtain ⟨p₁, hp₁⟩ := settleForfeitedLoss_ok hle'
    rw [hp₁, ok_bind]
    exact ⟨_, rfl⟩
  · rw [if_neg h0]
    have hbal : (p.setJuniorTotalLp jl).juniorBalance = p.juniorBalance :=
      StakePool.word_setWord_of_disjoint (by decide) (by decide) jl
    have hx : x.toNat ≤ p.juniorBalance.toNat := hx
    have hlt' := p.juniorBalance.toNat_lt
    obtain ⟨jb, hjb⟩ := exists_toNat (n := p.juniorBalance.toNat - x.toNat) (by omega)
    rw [hbal, okOr_eq_ok.mpr (checkedSub_eq_some.mpr
      (show p.juniorBalance.toNat = jb.toNat + x.toNat by omega)), ok_bind]
    exact ⟨_, rfl⟩

/-- Of all the counters only that of all withdrawals can be full. -/
theorem bookWithdraw_ok_or {junior : Bool}
    (hle : p.book.recovered + p.book.realized ≤ p.book.returned)
    (hsupply : lp.toNat ≤ p.book.supply) (hlp : junior = true → lp.toNat ≤ p.book.juniorLp)
    (hx : junior = true → x.toNat ≤ p.book.juniorBalance) :
    (∃ p', bookWithdraw p junior lp x = .ok p') ∨
      bookWithdraw p junior lp x = .error ↑StakeError.overflow ∧
        2 ^ 64 ≤ p.totalWithdrawn.toNat + x.toNat := by
  unfold bookWithdraw
  by_cases hfull : p.totalWithdrawn.toNat + x.toNat < 2 ^ 64
  · left
    have hsupply : lp.toNat ≤ p.totalLpSupply.toNat := hsupply
    have hlt := p.totalLpSupply.toNat_lt
    obtain ⟨wd, hwd⟩ := exists_toNat hfull
    obtain ⟨s, hs⟩ := exists_toNat (n := p.totalLpSupply.toNat - lp.toNat) (by omega)
    have hsub : checkedSub p.totalLpSupply lp = some s := checkedSub_eq_some.mpr (by omega)
    rw [okOr_eq_ok.mpr (checkedAdd_eq_some.mpr hwd), ok_bind]
    simp only [okOr_eq_ok.mpr hsub, ok_bind]
    by_cases hj : StakePool.trancheEnabled
        { p with totalWithdrawn := wd, totalLpSupply := s } = true ∧ junior = true
    · rw [if_pos hj]
      exact bookJuniorWithdraw_ok hle (hlp hj.2) (hx hj.2)
    · rw [if_neg hj]
      exact ⟨_, rfl⟩
  · right
    have hnone : checkedAdd p.totalWithdrawn x = none := checkedAdd_eq_none.mpr (by omega)
    rw [hnone]
    exact ⟨rfl, by omega⟩

theorem debitRecord_ok (h : lp ≤ d.lpAmount) : ∃ d', debitRecord d lp = .ok d' := by
  rw [UInt64.le_iff_toNat_le] at h
  have hlt := d.lpAmount.toNat_lt
  obtain ⟨r, hr⟩ := exists_toNat (n := d.lpAmount.toNat - lp.toNat) (by omega)
  have hsub : checkedSub d.lpAmount lp = some r := checkedSub_eq_some.mpr (by omega)
  unfold debitRecord
  rw [okOr_eq_ok.mpr hsub, ok_bind]
  by_cases h0 : r = 0
  · rw [if_pos h0]
    exact ⟨_, rfl⟩
  · rw [if_neg h0]
    exact ⟨_, rfl⟩

/-- The floor rejects a payout within the value for one reason only. -/
theorem enforceHwmFloor_ok_or (hv : 0 ≤ p.book.value ∧ p.book.value < 2 ^ 64)
    (hx : (x.toNat : Int) ≤ p.book.value) :
    (∃ p', enforceHwmFloor p clock x = .ok p') ∨
      enforceHwmFloor p clock x = .error ↑StakeError.withdrawalBelowHwmFloor ∧
        ∃ v, p.totalPoolValue = some v ∧ v.toNat - x.toNat <
          (p.refreshHwm clock.epoch v).2.toNat * p.hwmFloorBps.toNat / 10000 := by
  obtain ⟨v, hv, e⟩ := StakePool.totalPoolValue_isSome (p := p) hv.1 hv.2
  obtain ⟨r, hr⟩ := exists_toNat (n := v.toNat - x.toNat) (by have := v.toNat_lt; omega)
  have hsub : checkedSub v x = some r := checkedSub_eq_some.mpr (by omega)
  have hbps : (p.refreshHwm clock.epoch v).1.hwmFloorBps = p.hwmFloorBps :=
    congrArg Settings.hwmFloorBps (StakePool.settings_refreshHwm ..)
  unfold enforceHwmFloor
  rw [hv, okOr_eq_ok.mpr rfl, ok_bind]
  simp only [okOr_eq_ok.mpr hsub, ok_bind, hbps]
  cases hallowed : Math.hwmWithdrawalAllowed r (p.refreshHwm clock.epoch v).2 p.hwmFloorBps with
  | true => exact .inl ⟨_, rfl⟩
  | false =>
    refine .inr ⟨rfl, v, rfl, ?_⟩
    rw [← hr, ← Nat.not_le, ← Math.hwmWithdrawalAllowed_iff, hallowed]
    exact Bool.false_ne_true

/-! ## The instruction -/

/-- The last stages of a withdrawal: tokens, books, record. -/
def settleWithdraw (ctx : Context) (w : World) (a : WithdrawAccounts) (pool : StakePool)
    (isJunior : Bool) (lpAmount withdrawalAmount : UInt64) : Except ProgramError World := do
  let w ← payOut ctx w a pool lpAmount withdrawalAmount
  let pool ← bookWithdraw pool isJunior lpAmount withdrawalAmount
  let record ← depositFromData (w.data a.depositPda)
  let record ← debitRecord record lpAmount
  let w ← w.store a.depositPda (.deposit record)
  w.store a.poolPda (.pool pool)

/-- A withdrawal that passes its checks and is priced comes down to the two rejections
and the last stages. -/
theorem processWithdraw_eq {accounts : List AccountInfo} (h : Standing ctx π w p t m)
    (hnext : WithdrawAccounts.next accounts = .ok a) (ha : a.Correct ctx π w p lpAta ata)
    (hclock : readClock w a.clockSysvar = .ok clock)
    (hdue : Due ctx π w p clock a.user.key d lpAta lp)
    (hacc : preAccrueFeeModes w p a.vault = .ok p₁)
    (hprice : priceWithdraw p₁ d.isJuniorDeposit lp = .ok x) :
    process ctx w accounts (.withdraw lp) =
      if x = 0 ∧ fullyWipedJuniorExit p₁ d.isJuniorDeposit x = false then
        .error ↑StakeError.zeroAmount
      else if p₁.hwmEnabled = true ∧ fullyWipedJuniorExit p₁ d.isJuniorDeposit x = false then do
        let p₂ ← enforceHwmFloor p₁ clock x
        settleWithdraw ctx w a p₂ d.isJuniorDeposit lp x
      else settleWithdraw ctx w a p₁ d.isJuniorDeposit lp x := by
  have hlp : ¬lp = 0 := by
    intro e
    have hpos := hdue.pos
    rw [e] at hpos
    exact UInt64.lt_irrefl _ hpos
  obtain ⟨howner, hdata, hread⟩ := h.readPool_eq ha.pool_eq
  have hsigner : requireSigner a.user = .ok () :=
    rejectIf_neg (by rw [ha.user_signs]; decide)
  have hnotEmpty : validateAccountNotEmpty w a.poolPda = .ok () :=
    rejectIf_neg (by rw [hdata]; exact fun e => by cases e)
  have howner' : validateAccountOwner w a.poolPda ctx.programId = .ok () :=
    rejectIf_neg (not_not.mpr howner)
  have hwritable : validateAccountWritable a.poolPda = .ok () :=
    rejectIf_neg (by rw [ha.pool_writable]; decide)
  have hvalidate := validateWithdraw_ok ha hdue.record_eq
  have hrecord := checkRecord_ok h ha hdue
  show processWithdraw ctx w accounts lp = _
  unfold processWithdraw
  simp only [rejectIf_neg hlp, hnext, hsigner, hnotEmpty, howner', hwritable, hread, hvalidate,
    hclock, hrecord, hacc, hprice, ok_bind]
  by_cases hzero : x = 0 ∧ fullyWipedJuniorExit p₁ d.isJuniorDeposit x = false
  · rw [if_pos hzero, rejectIf_pos hzero, error_bind]
  · rw [if_neg hzero, rejectIf_neg hzero, ok_bind]
    rfl

theorem settleWithdraw_ok_or (h : Standing ctx π w p t m) (ha : a.Correct ctx π w p lpAta ata)
    (hdue : Due ctx π w p clock a.user.key d lpAta lp) (hsupply : TokenSupply t m lpAta ata)
    (hx : x ≤ t.amount) {p₂ : StakePool} {junior : Bool} (hcharter : p₂.charter = p.charter)
    (hbook : (∃ p', bookWithdraw p₂ junior lp x = .ok p') ∨
      bookWithdraw p₂ junior lp x = .error ↑StakeError.overflow ∧
        2 ^ 64 ≤ p₂.totalWithdrawn.toNat + x.toNat) :
    (∃ w', settleWithdraw ctx w a p₂ junior lp x = .ok w') ∨
      settleWithdraw ctx w a p₂ junior lp x = .error ↑StakeError.overflow ∧
        2 ^ 64 ≤ p₂.totalWithdrawn.toNat + x.toNat := by
  obtain ⟨w₁, hpay⟩ := h.payOut_ok ha hsupply hdue.le_balance hx
    (congrArg Charter.vaultAuthorityBump hcharter)
  obtain ⟨v, s, -, -, hw₁, h₁⟩ := h.payOut ha.vault_eq.symm ha.lpMint_eq.symm
    (by rw [ha.vault_eq]; exact ha.ata_ne) hpay
  unfold settleWithdraw
  rw [hpay, ok_bind]
  rcases hbook with ⟨p₃, hbook⟩ | ⟨hbook, hfull⟩
  · left
    have hr : w₁.record ctx.programId (ctx.depositPda π a.user.key) = some d :=
      (hw₁.record_eq _ _).trans hdue.record_eq
    have hr' := World.record_eq_some.mp hr
    rw [← ha.deposit_eq] at hr'
    have hdata : depositFromData (w₁.data a.depositPda) = .ok d := by
      rw [World.data, hr']
      rfl
    obtain ⟨d', hd'⟩ := debitRecord_ok hdue.le_record
    rw [hbook, ok_bind, hdata, ok_bind, hd', ok_bind]
    rw [(store_record_eq_ok hr').mpr ⟨ha.deposit_writable, rfl⟩, ok_bind]
    exact ⟨_, World.store_eq_ok.mpr ⟨ha.pool_writable, rfl⟩⟩
  · right
    rw [hbook]
    exact ⟨rfl, hfull⟩

/-- The accrual in front of a withdrawal leaves a sound ledger with all of the vault on
its books. -/
theorem Valid.accrued {X : Nat} (h : Valid ctx π X w p t m) (hs : 0 ≤ p.book.senior)
    (hacc : accrueFeesInner p t.amount = .ok p₁) :
    Ledger.Sound X ⟨p₁.book, t.amount.toNat, w.positions ctx.programId π⟩ ∧
      0 ≤ p₁.book.senior := by
  obtain ⟨-, ms, hms, hrun⟩ := accrueFeesInner_run (f := w.positions ctx.programId π) hacc
  have hsound := Ledger.Sound.run h.sound hrun
  rw [hms.sum_eq_zero fun _ _ => rfl, Nat.add_zero] at hsound
  refine ⟨hsound, ?_⟩
  rcases hms with rfl | ⟨f, j, rfl⟩
  · have hbook : p.book = p₁.book := congrArg Ledger.book hrun
    rwa [← hbook]
  · obtain ⟨l₁, hm, rfl⟩ := hrun
    exact (h.sound.toMatched.senior_step hs hm fun _ e => by cases e).1

/-- A payout within the sub-pool of the record, as the program reads its value. -/
theorem own_of_le {v : Nat} {f : Pubkey → Position} {junior : Bool}
    (h : Ledger.Matched ⟨p.book, v, f⟩) (hv : p.book.value < 2 ^ 64) (hs : 0 ≤ p.book.senior)
    (hx : x.toNat ≤ if junior = true then p.book.effectiveJunior else p.book.senior.toNat) :
    ∃ own, (if junior = true then some p.effectiveJuniorBalance else p.ownBalance) = some own ∧
      x ≤ own ∧ (x.toNat : Int) ≤ p.book.value := by
  have hsum : p.book.senior = p.book.value - p.book.effectiveJunior := rfl
  cases junior with
  | true =>
    have hx : x.toNat ≤ p.book.effectiveJunior := hx
    refine ⟨p.effectiveJuniorBalance, rfl, UInt64.le_iff_toNat_le.mpr ?_, by omega⟩
    rwa [StakePool.toNat_effectiveJuniorBalance]
  | false =>
    have hx : x.toNat ≤ p.book.senior.toNat := hx
    obtain ⟨-, own, hown, e⟩ := StakePool.own_eq h hv hs
    exact ⟨own, hown, UInt64.le_iff_toNat_le.mpr (by omega), by omega⟩

/-- What a withdrawal that is due did. -/
structure WithdrawRun.Took {accounts : List AccountInfo} (π : Pubkey) (a : WithdrawAccounts)
    (d : StakeDeposit) (p₁ : StakePool) (r : WithdrawRun ctx w accounts lp w') : Prop where
  pool : ∃ i, accounts[1]? = some i ∧ i.key = π
  accounts_eq : r.a = a
  accrued_eq : r.accrued = p₁
  deposit_eq : r.deposit = d

theorem WithdrawRun.took {accounts : List AccountInfo} (r : WithdrawRun ctx w accounts lp w')
    (h : Standing ctx π w p t m) (hnext : WithdrawAccounts.next accounts = .ok a)
    (ha : a.Correct ctx π w p lpAta ata) (hdue : Due ctx π w p clock a.user.key d lpAta lp)
    (hacc : accrueFeesInner p t.amount = .ok p₁) : r.Took π a d p₁ := by
  have hpool : ∃ i, accounts[1]? = some i ∧ i.key = π :=
    ⟨_, (WithdrawAccounts.next_eq_ok hnext).2, ha.pool_eq⟩
  have hra : r.a = a := Except.ok.inj (r.next_eq.symm.trans hnext)
  obtain ⟨hπ, -, hacc'⟩ := r.standing_eq h hpool
  refine ⟨hpool, hra, Except.ok.inj (hacc'.symm.trans hacc), ?_⟩
  obtain ⟨hpda, hrec⟩ := r.record_eq
  rw [hpda, hπ, hra] at hrec
  exact Option.some_inj.mp ((World.record_eq_some.mpr hrec).symm.trans hdue.record_eq)

/-- A withdrawal that goes through pays the price of the LP. -/
theorem WithdrawRun.paysOut {accounts : List AccountInfo} (r : WithdrawRun ctx w accounts lp w')
    (h : Standing ctx π w p t m) (hr : r.Took π a d p₁) (ha : a.Correct ctx π w p lpAta ata)
    (hprice : priceWithdraw p₁ d.isJuniorDeposit lp = .ok x) :
    PaysOut ctx π w' p t a ata d lp x := by
  obtain ⟨hpool, hra, haccrued, hdeposit⟩ := hr
  have hamount : r.amount = x := by
    have hprice' := r.price_eq
    rw [haccrued, hdeposit] at hprice'
    exact Except.ok.inj (hprice'.symm.trans hprice)
  obtain ⟨v, _, hv, -, h', hcharter, hsame, -⟩ := r.settled h hpool
  -- the two accounts of the user are of different mints
  have hne : a.userAta.key ≠ a.userLpAta.key := by
    intro e
    have heq := ha.ata_eq
    rw [e, ha.lpAta_eq, Option.some_inj] at heq
    exact h.chartered.mints (ha.lpAta_mint.symm.trans (heq ▸ ha.ata_mint))
  have hpay := r.pay_eq
  rw [hra] at hpay
  obtain ⟨-, hcredit⟩ := payOut_token (by rw [ha.vault_eq]; exact ha.ata_ne.symm) hpay
  obtain ⟨b, hb, htoken⟩ := hcredit ata hne ha.ata_eq
  have hvault := h'.vault_eq
  rw [vault_of_charter hcharter] at hvault
  refine ⟨⟨_, hvault, ?_⟩, ⟨_, (r.token_paid h hpool _).trans htoken, ?_⟩, r.debited, ?_, ?_⟩
  · rw [← hamount]
    exact hv.symm
  · rw [← hamount]
    exact hb
  · rw [r.record_final h hpool, hra]
    exact if_pos rfl
  · have hdebit := r.debit_eq
    rw [hsame, hdeposit] at hdebit
    obtain ⟨-, -, hle, hposition⟩ := debitRecord_eq_ok hdebit
    have hlp : r.debited.lpAmount.toNat = (Position.debit ⟨d.lpAmount.toNat,
        d.isJuniorDeposit, d.isInitialized == 1⟩ lp.toNat).lp :=
      congrArg Position.lp hposition
    rw [hlp, Position.lp_debit]
    exact Nat.sub_add_cancel hle

/-- From every reachable state with a defined senior value, if tranches are on, and
an accrual that goes through: a withdrawal that is due pays its price, or rounds to nothing
without being the exit of a wiped junior, or would take the value below the
high-water-mark floor, or does not fit the counter of all withdrawals.  The payout is
within the value of the user's own sub-pool and within the vault. -/
theorem withdraw_live {es : List Event} {accounts : List AccountInfo}
    (h : ctx.Reached π es w) (hp : w.pool ctx.programId π = some p)
    (hvault : w.token p.vault = some t) (hmint : w.mint p.lpMint = some m)
    (hs : p.trancheEnabled = true → p.seniorBalance.isSome = true)
    (hnext : WithdrawAccounts.next accounts = .ok a) (ha : a.Correct ctx π w p lpAta ata)
    (hclock : readClock w a.clockSysvar = .ok clock)
    (hdue : Due ctx π w p clock a.user.key d lpAta lp) (hsupply : TokenSupply t m lpAta ata)
    (hacc : preAccrueFeeModes w p a.vault = .ok p₁) :
    ∃ x own, priceWithdraw p₁ d.isJuniorDeposit lp = .ok x ∧
      (if d.isJuniorDeposit = true then some p₁.effectiveJuniorBalance else p₁.ownBalance) =
        some own ∧ x ≤ own ∧ x ≤ t.amount ∧
      ((∃ w', process ctx w accounts (.withdraw lp) = .ok w' ∧
          PaysOut ctx π w' p t a ata d lp x) ∨
        process ctx w accounts (.withdraw lp) = .error ↑StakeError.zeroAmount ∧ x = 0 ∧
          fullyWipedJuniorExit p₁ d.isJuniorDeposit x = false ∨
        process ctx w accounts (.withdraw lp) = .error ↑StakeError.withdrawalBelowHwmFloor ∧
          p₁.hwmEnabled = true ∧ x ≠ 0 ∧ (∃ v, p₁.totalPoolValue = some v ∧
            v.toNat - x.toNat <
              (p₁.refreshHwm clock.epoch v).2.toNat * p₁.hwmFloorBps.toNat / 10000) ∨
        process ctx w accounts (.withdraw lp) = .error ↑StakeError.overflow ∧
          2 ^ 64 ≤ p₁.totalWithdrawn.toNat + x.toNat) := by
  obtain ⟨q, t₀, m₀, hvalid⟩ := h.stands
  obtain rfl : p = q := Option.some_inj.mp (hp.symm.trans hvalid.standing.pool_eq)
  obtain rfl : t = t₀ := Option.some_inj.mp (hvault.symm.trans hvalid.standing.vault_eq)
  obtain rfl : m = m₀ := Option.some_inj.mp (hmint.symm.trans hvalid.standing.mint_eq)
  have hinner := hacc
  rw [hvalid.standing.preAccrue ha.vault_eq.symm] at hinner
  obtain ⟨hcharter, -⟩ := accrueFeesInner_book hinner
  obtain ⟨hsound, hsenior⟩ := hvalid.accrued (hvalid.senior_nonneg hs) hinner
  have hle : p₁.book.value ≤ t.amount.toNat := hsound.toBalanced.value_le
  have hlt := t.amount.toNat_lt
  have hvalue : 0 ≤ p₁.book.value := hsound.value_nonneg
  -- the record as a position
  have hpos := pos_iff.mp hdue.pos
  have hrecord := UInt64.le_iff_toNat_le.mp hdue.le_record
  obtain ⟨hpi, -⟩ := hvalid.standing.record_eq _ d hdue.record_eq
  have hposition := positions_of_record hdue.record_eq hpi
  have hlp : lp.toNat ≤ (w.positions ctx.programId π (ctx.depositPda π a.user.key)).lp := by
    rw [hposition]
    exact hrecord
  obtain ⟨x, hprice, hxval⟩ := priceWithdraw_ok hsound.toMatched hsenior (by omega) hpos hlp
  have hxle := redemption_le_own hsound.toMatched hlp
  have hbooked := lp_le_supply hsound.toMatched hlp
  rw [← hxval] at hxle
  rw [hposition] at hprice hxle hbooked
  obtain ⟨own, hown, hxown, hxvalue⟩ := own_of_le hsound.toMatched (by omega) hsenior hxle
  have hxt : x ≤ t.amount := UInt64.le_iff_toNat_le.mpr (by omega)
  refine ⟨x, own, hprice, hown, hxown, hxt, ?_⟩
  have hpays : ∀ w', process ctx w accounts (.withdraw lp) = .ok w' →
      PaysOut ctx π w' p t a ata d lp x := by
    intro w' hok
    obtain ⟨r⟩ := processWithdraw_eq_ok.mp hok
    exact r.paysOut hvalid.standing (r.took hvalid.standing hnext ha hdue hinner) ha hprice
  rw [processWithdraw_eq hvalid.standing hnext ha hclock hdue hacc hprice] at hpays ⊢
  have hsettle : ∀ {p₂ : StakePool}, p₂.charter = p₁.charter → p₂.book = p₁.book →
      (∃ w', settleWithdraw ctx w a p₂ d.isJuniorDeposit lp x = .ok w') ∨
        settleWithdraw ctx w a p₂ d.isJuniorDeposit lp x = .error ↑StakeError.overflow ∧
          2 ^ 64 ≤ p₁.totalWithdrawn.toNat + x.toNat := by
    intro p₂ hc hb
    have hwithdrawn : p₂.totalWithdrawn.toNat = p₁.totalWithdrawn.toNat :=
      congrArg Book.withdrawn hb
    rw [← hwithdrawn]
    refine settleWithdraw_ok_or hvalid.standing ha hdue hsupply hxt (hc.trans hcharter)
      (bookWithdraw_ok_or ?_ ?_ ?_ ?_)
    · rw [hb]
      exact hsound.settled_le_returned
    · rw [hb]
      exact hbooked.1
    · rw [hb]
      exact hbooked.2
    · intro hj
      rw [if_pos hj] at hxle
      rw [hb]
      exact hxle.trans p₁.book.effectiveJunior_le
  by_cases hzero : x = 0 ∧ fullyWipedJuniorExit p₁ d.isJuniorDeposit x = false
  · rw [if_pos hzero]
    exact .inr (.inl ⟨rfl, hzero⟩)
  rw [if_neg hzero] at hpays ⊢
  by_cases hhwm : p₁.hwmEnabled = true ∧
      fullyWipedJuniorExit p₁ d.isJuniorDeposit x = false
  · rw [if_pos hhwm] at hpays ⊢
    have hfloor : (∃ p₂, enforceHwmFloor p₁ clock x = .ok p₂) ∨ _ :=
      enforceHwmFloor_ok_or ⟨hvalue, by omega⟩ hxvalue
    rcases hfloor with ⟨p₂, hp₂⟩ | ⟨hfloor, hbelow⟩
    · obtain ⟨hc, hb⟩ := enforceHwmFloor_book hp₂
      rw [hp₂, ok_bind] at hpays ⊢
      rcases hsettle hc hb with ⟨w', hok⟩ | hfull
      · exact .inl ⟨w', hok, hpays w' hok⟩
      · exact .inr (.inr (.inr hfull))
    · rw [hfloor, error_bind]
      exact .inr (.inr (.inl ⟨rfl, hhwm.1, fun e => hzero ⟨e, hhwm.2⟩, hbelow⟩))
  · rw [if_neg hhwm] at hpays ⊢
    rcases hsettle rfl rfl with ⟨w', hok⟩ | hfull
    · exact .inl ⟨w', hok, hpays w' hok⟩
    · exact .inr (.inr (.inr hfull))

end

/-! ## A withdrawal -/

namespace Sample

def idle : List Action := [deposit alice 100000, .send 500, .tick ⟨200, 1⟩]

def aliceAccounts : WithdrawAccounts where
  user := signer (key alice)
  poolPda := writable pool
  userLpAta := writable (lpAta alice)
  lpMint := writable lpMint
  vault := writable vault
  userAta := writable (ata alice)
  vaultAuth := readonly (ctx.vaultAuthority pool)
  depositPda := writable (ctx.depositPda pool (key alice))
  tokenProgram := readonly splTokenId
  clockSysvar := readonly clockSysvarId

theorem alice_correct {p : StakePool}
    (hlp : (after idle).token (lpAta alice) = some ⟨lpMint, key alice, 99000, .initialized⟩)
    (hata : (after idle).token (ata alice) = some ⟨collateralMint, key alice, 900000, .initialized⟩)
    (hp : p.lpMint = lpMint ∧ p.vault = vault ∧ p.collateralMint = collateralMint) :
    aliceAccounts.Correct ctx pool (after idle) p ⟨lpMint, key alice, 99000, .initialized⟩
      ⟨collateralMint, key alice, 900000, .initialized⟩ := by
  obtain ⟨h1, h2, h3⟩ := hp
  refine ⟨rfl, rfl, rfl, hlp, h1.symm, rfl, rfl, rfl, h1.symm, rfl, h2.symm, rfl,
    hata, h3.symm, rfl,
    rfl, ?_, rfl, rfl, rfl, rfl⟩
  rw [h2]
  decide

theorem withdraw_live_alice :
    ∃ p p₁ t d x own, (after idle).pool ctx.programId pool = some p ∧
      (after idle).token p.vault = some t ∧
      preAccrueFeeModes (after idle) p aliceAccounts.vault = .ok p₁ ∧
      priceWithdraw p₁ false 50000 = .ok x ∧ p₁.ownBalance = some own ∧ x ≤ own ∧
      x ≤ 100500 ∧
      ((∃ w', process ctx (after idle) (withdrawAccounts alice) (.withdraw 50000) = .ok w' ∧
          PaysOut ctx pool w' p t aliceAccounts ⟨collateralMint, key alice, 900000, .initialized⟩
            d 50000 x) ∨
        process ctx (after idle) (withdrawAccounts alice) (.withdraw 50000) =
          .error ↑StakeError.zeroAmount ∧ x = 0 ∧ fullyWipedJuniorExit p₁ false x = false ∨
        process ctx (after idle) (withdrawAccounts alice) (.withdraw 50000) =
          .error ↑StakeError.withdrawalBelowHwmFloor ∧ p₁.hwmEnabled = true ∧ x ≠ 0 ∧
          (∃ v, p₁.totalPoolValue = some v ∧ v.toNat - x.toNat <
            (p₁.refreshHwm 1 v).2.toNat * p₁.hwmFloorBps.toNat / 10000) ∨
        process ctx (after idle) (withdrawAccounts alice) (.withdraw 50000) =
          .error ↑StakeError.overflow ∧ 2 ^ 64 ≤ p₁.totalWithdrawn.toNat + x.toNat) := by
  have hrun : (run idle).isSome = true := by decide +kernel
  have hpool : ((after idle).pool ctx.programId pool).map (fun p => (p.lpMint, p.vault,
      p.collateralMint, p.trancheEnabled, p.cooldownSlots,
      (preAccrueFeeModes (after idle) p aliceAccounts.vault).toOption.isSome)) =
      some (lpMint, vault, collateralMint, false, 1, true) := by decide +kernel
  have hvault : (after idle).token vault =
      some ⟨collateralMint, ctx.vaultAuthority pool, 100500, .initialized⟩ := by decide +kernel
  have hmint : (after idle).mint lpMint =
      some ⟨some (ctx.vaultAuthority pool), 99000, 6, true⟩ := by
    decide +kernel
  have hlp : (after idle).token (lpAta alice) =
      some ⟨lpMint, key alice, 99000, .initialized⟩ := by decide +kernel
  have hata : (after idle).token (ata alice) =
      some ⟨collateralMint, key alice, 900000, .initialized⟩ := by decide +kernel
  have hrecord : ((after idle).record ctx.programId (ctx.depositPda pool (key alice))).map
      (fun d => (d.isInitialized, d.user, d.lastDepositSlot, d.lpAmount, d.isJuniorDeposit)) =
      some (1, key alice, 100, 100000, false) := by decide +kernel
  have hclock : (after idle).data aliceAccounts.clockSysvar = .clock ⟨200, 1⟩ := by decide +kernel
  obtain ⟨p, hp, hfields⟩ := Option.map_eq_some_iff.mp hpool
  obtain ⟨d, hd, hdfields⟩ := Option.map_eq_some_iff.mp hrecord
  simp only [Prod.mk.injEq] at hfields hdfields
  obtain ⟨h1, h2, h3, htranche, hcooldown, hacc⟩ := hfields
  obtain ⟨hinit, huser, hslot, hlpAmount, hjunior⟩ := hdfields
  obtain ⟨p₁, hp₁⟩ : ∃ p₁, preAccrueFeeModes (after idle) p aliceAccounts.vault = .ok p₁ := by
    cases hx : preAccrueFeeModes (after idle) p aliceAccounts.vault with
    | ok p₁ => exact ⟨p₁, rfl⟩
    | error e =>
      rw [hx] at hacc
      cases hacc
  rw [← h2] at hvault
  rw [← h1] at hmint
  have hdue : Due ctx pool (after idle) p ⟨200, 1⟩ aliceAccounts.user.key d
      ⟨lpMint, key alice, 99000, .initialized⟩ 50000 :=
    ⟨hd, hinit, huser, by rw [hslot, hcooldown]; decide, by decide, by rw [hlpAmount]; decide,
      by decide⟩
  have hnext : WithdrawAccounts.next (withdrawAccounts alice) = .ok aliceAccounts := rfl
  obtain ⟨x, own, hprice, hown, hxown, hxt, hcases⟩ := withdraw_live (after_reached hrun) hp hvault
    hmint (fun ht => by rw [htranche] at ht; cases ht) hnext
    (alice_correct hlp hata ⟨h1, h2, h3⟩) (readClock_eq_ok.mpr ⟨rfl, hclock⟩) hdue
    ⟨by decide, by decide⟩ hp₁
  rw [hjunior] at hprice hown hcases
  exact ⟨p, p₁, _, d, x, own, hp, hvault, hp₁, hprice, hown, hxown, hxt, hcases⟩

end Sample

end PercolatorStake
