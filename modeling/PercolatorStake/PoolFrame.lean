import PercolatorStake.Effect.Settings

/-!
# What the pool account does not decide

The token program, the clock and the deposit records do not read the account of the
pool.  So a stage that succeeds does the same with another pool stored there.
-/

namespace PercolatorStake

open Result Word

/-- The world with `q` stored at `π`. -/
def Context.withPool (ctx : Context) (π : Pubkey) (q : StakePool) (w : World) : World :=
  w.set π ⟨ctx.programId, .pool q⟩

section

variable {ctx : Context} {π : Pubkey} {w w' : World} {p q : StakePool}

theorem withPool_withPool (q' : StakePool) (w : World) :
    ctx.withPool π q (ctx.withPool π q' w) = ctx.withPool π q w :=
  World.set_set w π _ _

theorem pool_withPool (q : StakePool) (w : World) :
    (ctx.withPool π q w).pool ctx.programId π = some q :=
  World.pool_eq_some.mpr (World.account_set_self ..)

theorem withPool_set {k : Pubkey} {x : Account} (hk : k ≠ π) :
    ctx.withPool π q (w.set k x) = (ctx.withPool π q w).set k x := by
  unfold Context.withPool World.set
  congr 1
  funext k'
  by_cases h : k' = π
  · simp only [if_pos h, if_neg (h ▸ hk.symm)]
  · simp only [if_neg h]

theorem account_withPool {k : Pubkey} (hk : k ≠ π) :
    (ctx.withPool π q w).account k = w.account k :=
  World.account_set_of_ne hk

/-- Storing the pool last is storing it over whatever pool was there. -/
theorem store_withPool {a : AccountInfo} {p' : StakePool} (hk : a.key = π)
    (h : w.store a (.pool p) = .ok w') :
    (ctx.withPool π q w).store a (.pool p') = .ok (ctx.withPool π p' w') := by
  obtain ⟨hwritable, rfl⟩ := World.store_eq_ok.mp h
  refine (store_pool_eq_ok hk (pool_withPool q w)).mpr ⟨hwritable, ?_⟩
  rw [hk]
  unfold Context.withPool
  rw [World.set_set, World.set_set]

/-! ## Reading -/

theorem token_withPool (hp : w.pool ctx.programId π = some p) (k : Pubkey) :
    (ctx.withPool π q w).token k = w.token k := by
  by_cases hk : k = π
  · rw [hk, World.token, World.token, World.pool_eq_some.mp hp,
      World.pool_eq_some.mp (pool_withPool q w)]
  · rw [World.token, account_withPool hk, World.token]

theorem mint_withPool (hp : w.pool ctx.programId π = some p) (k : Pubkey) :
    (ctx.withPool π q w).mint k = w.mint k :=
  mint_setPool hp

theorem owner_withPool (hp : w.pool ctx.programId π = some p) (a : AccountInfo) :
    (ctx.withPool π q w).owner a = w.owner a := by
  by_cases hk : a.key = π
  · rw [World.owner, World.owner, hk, World.pool_eq_some.mp hp,
      World.pool_eq_some.mp (pool_withPool q w)]
  · rw [World.owner, account_withPool hk, World.owner]

/-- A reader that treats all pools alike reads what it read. -/
theorem read_withPool {α : Type} (f : AccountData → α) (hf : f (.pool q) = f (.pool p))
    (hp : w.pool ctx.programId π = some p) (a : AccountInfo) :
    f ((ctx.withPool π q w).data a) = f (w.data a) := by
  by_cases hk : a.key = π
  · rw [World.data, World.data, hk, World.pool_eq_some.mp hp,
      World.pool_eq_some.mp (pool_withPool q w)]
    exact hf
  · rw [World.data, account_withPool hk, World.data]

theorem readClock_withPool (hp : w.pool ctx.programId π = some p) (a : AccountInfo) :
    readClock (ctx.withPool π q w) a = readClock w a := by
  by_cases hk : a.key = π
  · unfold readClock
    rw [World.data, World.data, hk, World.pool_eq_some.mp hp,
      World.pool_eq_some.mp (pool_withPool q w)]
  · unfold readClock
    rw [World.data, account_withPool hk, World.data]

theorem header_withPool (hp : w.pool ctx.programId π = some p) (a : AccountInfo) :
    SplToken.header ((ctx.withPool π q w).data a) = SplToken.header (w.data a) :=
  read_withPool (q := q) (p := p) SplToken.header rfl hp a

theorem validateTokenMint_withPool (hp : w.pool ctx.programId π = some p) (a : AccountInfo)
    (mint : Pubkey) (e : StakeError) :
    validateTokenMint (ctx.withPool π q w) a mint e = validateTokenMint w a mint e := by
  unfold validateTokenMint
  rw [owner_withPool hp, header_withPool hp]

theorem validateTokenAccount_withPool (hp : w.pool ctx.programId π = some p) (a : AccountInfo)
    (mint owner : Pubkey) (e : StakeError) :
    validateTokenAccount (ctx.withPool π q w) a mint owner e =
      validateTokenAccount w a mint owner e := by
  unfold validateTokenAccount
  rw [validateTokenMint_withPool hp, header_withPool hp]

/-! ## Token movements -/

theorem ne_of_token (hp : w.pool ctx.programId π = some p) {k : Pubkey} {t : TokenAccount}
    (ht : w.token k = some t) : k ≠ π := by
  intro hk
  rw [hk, World.token_eq_some, World.pool_eq_some.mp hp] at ht
  have hdata := congrArg Account.data ht
  cases hdata

theorem ne_of_mint (hp : w.pool ctx.programId π = some p) {k : Pubkey} {m : Mint}
    (hm : w.mint k = some m) : k ≠ π := by
  intro hk
  rw [hk, World.mint_eq_some, World.pool_eq_some.mp hp] at hm
  have hdata := congrArg Account.data hm
  cases hdata

theorem moveTokens_withPool (hp : w.pool ctx.programId π = some p) {source dest : Pubkey}
    {amount : UInt64} (h : SplToken.moveTokens w source dest amount = .ok w') :
    SplToken.moveTokens (ctx.withPool π q w) source dest amount = .ok (ctx.withPool π q w') := by
  by_cases hne : source = dest
  · have hlive : ∀ k, SplToken.liveToken (ctx.withPool π q w) k = SplToken.liveToken w k := by
      intro k
      unfold SplToken.liveToken
      rw [token_withPool hp]
    unfold SplToken.moveTokens at h ⊢
    simp only [hlive, if_pos hne, bind_eq_ok, ok_eq_ok] at h ⊢
    obtain ⟨s, hs, d, hd, u, hu, x, hx, rfl⟩ := h
    exact ⟨s, hs, d, hd, u, hu, x, hx, rfl⟩
  · obtain ⟨s, d, sA, dA, hs, hss, hd, hds, hm, hsA, hdA, rfl⟩ :=
      (SplToken.moveTokens_eq_ok hne).mp h
    refine (SplToken.moveTokens_eq_ok hne).mpr ⟨s, d, sA, dA, (token_withPool hp _).trans hs, hss,
      (token_withPool hp _).trans hd, hds, hm, hsA, hdA, ?_⟩
    unfold SplToken.setToken
    rw [withPool_set (ne_of_token hp hd), withPool_set (ne_of_token hp hs)]

theorem processTransfer_withPool (hp : w.pool ctx.programId π = some p)
    {source dest authority : Pubkey} {amount : UInt64}
    (h : SplToken.processTransfer w source dest authority amount = .ok w') :
    SplToken.processTransfer (ctx.withPool π q w) source dest authority amount =
      .ok (ctx.withPool π q w') := by
  obtain ⟨⟨t, ht, hlive, howner⟩, hmove⟩ := SplToken.processTransfer_eq_ok.mp h
  exact SplToken.processTransfer_eq_ok.mpr
    ⟨⟨t, (token_withPool hp _).trans ht, hlive, howner⟩, moveTokens_withPool hp hmove⟩

theorem processMintTo_withPool (hp : w.pool ctx.programId π = some p)
    {mint dest authority : Pubkey} {amount : UInt64}
    (h : SplToken.processMintTo w mint dest authority amount = .ok w') :
    SplToken.processMintTo (ctx.withPool π q w) mint dest authority amount =
      .ok (ctx.withPool π q w') := by
  obtain ⟨d, m, dA, s, hd, hds, hm, hi, hdm, ha, hdA, hs, rfl⟩ :=
    SplToken.processMintTo_eq_ok.mp h
  refine SplToken.processMintTo_eq_ok.mpr ⟨d, m, dA, s, (token_withPool hp _).trans hd, hds,
    (mint_withPool hp _).trans hm, hi, hdm, ha, hdA, hs, ?_⟩
  unfold SplToken.setMint SplToken.setToken
  rw [withPool_set (ne_of_mint hp hm), withPool_set (ne_of_token hp hd)]

theorem processBurn_withPool (hp : w.pool ctx.programId π = some p)
    {account mint authority : Pubkey} {amount : UInt64}
    (h : SplToken.processBurn w account mint authority amount = .ok w') :
    SplToken.processBurn (ctx.withPool π q w) account mint authority amount =
      .ok (ctx.withPool π q w') := by
  obtain ⟨d, m, dA, s, hd, hds, ha, hm, hi, hdm, hdA, hs, rfl⟩ := SplToken.processBurn_eq_ok.mp h
  refine SplToken.processBurn_eq_ok.mpr ⟨d, m, dA, s, (token_withPool hp _).trans hd, hds, ha,
    (mint_withPool hp _).trans hm, hi, hdm, hdA, hs, ?_⟩
  unfold SplToken.setMint SplToken.setToken
  rw [withPool_set (ne_of_mint hp hm), withPool_set (ne_of_token hp hd)]

/-- What the token program does, an invocation of it does. -/
theorem invokeSigned_withPool {ix : Instruction} {infos : List AccountInfo}
    {seeds : List (List (List UInt8))} (hid : ix.programId = splTokenId)
    (hprocess : ctx.tokenProgram.process w ix = .ok w' →
      ctx.tokenProgram.process (ctx.withPool π q w) ix = .ok (ctx.withPool π q w'))
    (h : ctx.invokeSigned w ix infos seeds = .ok w') :
    ctx.invokeSigned (ctx.withPool π q w) ix infos seeds = .ok (ctx.withPool π q w') := by
  obtain ⟨hprivileged, hdone⟩ := Context.invokeSigned_eq_ok.mp h
  rw [if_pos hid] at hdone
  refine Context.invokeSigned_eq_ok.mpr ⟨hprivileged, ?_⟩
  rw [if_pos hid]
  exact hprocess hdone

theorem collectDeposit_withPool (hp : w.pool ctx.programId π = some p) {a : DepositAccounts}
    {amount mintAmount : UInt64} (h : collectDeposit ctx w a amount mintAmount = .ok w') :
    collectDeposit ctx (ctx.withPool π q w) a amount mintAmount = .ok (ctx.withPool π q w') := by
  unfold collectDeposit Context.invoke at h ⊢
  rw [bind_eq_ok] at h ⊢
  obtain ⟨w₁, htransfer, hmint⟩ := h
  have hchanges := SplToken.processTransfer_changes (Context.transfer_of_invokeSigned htransfer)
  have hp₁ := (hchanges.pool_eq ctx.programId π).trans hp
  refine ⟨ctx.withPool π q w₁, invokeSigned_withPool rfl ?_ htransfer,
    invokeSigned_withPool rfl ?_ hmint⟩
  · intro hdone
    rw [ctx.tokenProgram.transfer] at hdone ⊢
    exact processTransfer_withPool hp hdone
  · intro hdone
    rw [ctx.tokenProgram.mintTo] at hdone ⊢
    exact processMintTo_withPool hp₁ hdone

theorem payOut_withPool (hp : w.pool ctx.programId π = some p) {a : WithdrawAccounts}
    {pool pool' : StakePool} (hbump : pool'.vaultAuthorityBump = pool.vaultAuthorityBump)
    {lp amount : UInt64} (h : payOut ctx w a pool lp amount = .ok w') :
    payOut ctx (ctx.withPool π q w) a pool' lp amount = .ok (ctx.withPool π q w') := by
  unfold payOut Context.invoke at h ⊢
  rw [hbump]
  simp only [bind_eq_ok] at h ⊢
  obtain ⟨w₁, hburn, u, hu, h⟩ := h
  have hchanges := SplToken.processBurn_changes (Context.burn_of_invokeSigned hburn)
  have hp₁ := (hchanges.pool_eq ctx.programId π).trans hp
  refine ⟨ctx.withPool π q w₁, invokeSigned_withPool rfl ?_ hburn, u, hu, ?_⟩
  · intro hdone
    rw [ctx.tokenProgram.burn] at hdone ⊢
    exact processBurn_withPool hp hdone
  · by_cases hpays : amount > 0
    · rw [if_pos hpays] at h ⊢
      refine invokeSigned_withPool rfl (fun hdone => ?_) h
      rw [ctx.tokenProgram.transfer] at hdone ⊢
      exact processTransfer_withPool hp₁ hdone
    · rw [if_neg hpays, ok_eq_ok] at h ⊢
      rw [h]

/-! ## The record -/

/-- A pool pays nobody's rent. -/
theorem payShortfall_withPool (hp : w.pool ctx.programId π = some p) {target payer : AccountInfo}
    {space : Nat} (h : ctx.payShortfall w target payer space = .ok w') :
    ctx.payShortfall (ctx.withPool π q w) target payer space = .ok (ctx.withPool π q w') := by
  rw [Context.payShortfall_eq_ok] at h ⊢
  split at h
  · rename_i hlow
    obtain ⟨hflags, hpay⟩ := h
    obtain ⟨hplain, rest, sum, hrest, hsum, rfl⟩ := World.pay_eq_ok.mp hpay
    have hne : payer.key ≠ π := by
      rintro rfl
      rw [World.pool_eq_some.mp hp] at hplain
      cases congrArg Account.data hplain
    exact (if_pos hlow).mpr ⟨hflags, World.pay_eq_ok.mpr
      ⟨(account_withPool hne).trans hplain, rest, sum, hrest, hsum, rfl⟩⟩
  · rename_i hlow
    exact (if_neg hlow).mpr (congrArg (ctx.withPool π q) h)

/-- The check of a record does not read the world it hands on. -/
theorem freshOrChecked_world {u : World} {d d' : StakeDeposit}
    (h : (if d.isInitialized ≠ 1 then .ok (w, d.setDiscriminator)
      else do
        rejectIf (d.validateDiscriminator = false) ↑StakeError.invalidAccount
        .ok (w, d)) = (.ok (w', d') : Except ProgramError (World × StakeDeposit))) :
    (if d.isInitialized ≠ 1 then .ok (u, d.setDiscriminator)
      else do
        rejectIf (d.validateDiscriminator = false) ↑StakeError.invalidAccount
        .ok (u, d)) = (.ok (u, d') : Except ProgramError (World × StakeDeposit)) := by
  by_cases hi : d.isInitialized ≠ 1
  · rw [if_pos hi] at h ⊢
    cases h
    rfl
  · simp only [if_neg hi, bind_eq_ok, ok_eq_ok, Prod.mk.injEq] at h ⊢
    obtain ⟨x, hx, -, hd⟩ := h
    exact ⟨x, hx, trivial, hd⟩

theorem openRecord_ne (hp : w.pool ctx.programId π = some p) {accounts : List AccountInfo}
    {a : DepositAccounts} {d : StakeDeposit} (h : openRecord ctx w accounts a = .ok (w', d)) :
    a.depositPda.key ≠ π := by
  intro hk
  obtain ⟨-, ⟨d₀, hd₀⟩ | hempty, -⟩ := openRecord_eq_ok h
  · rw [hk, World.pool_eq_some.mp hp] at hd₀
    have hdata := congrArg Account.data hd₀
    cases hdata
  · rw [hk, World.pool_eq_some.mp hp] at hempty
    have hdata := congrArg Account.data hempty
    cases hdata

theorem openRecord_withPool (hp : w.pool ctx.programId π = some p) {accounts : List AccountInfo}
    {a : DepositAccounts} {d : StakeDeposit} (h : openRecord ctx w accounts a = .ok (w', d)) :
    openRecord ctx (ctx.withPool π q w) accounts a = .ok (ctx.withPool π q w', d) := by
  have hne := openRecord_ne hp h
  have hdata : (ctx.withPool π q w).data a.depositPda = w.data a.depositPda :=
    congrArg Account.data (account_withPool hne)
  unfold openRecord at h ⊢
  rw [hdata, owner_withPool hp]
  simp only [bind_eq_ok] at h ⊢
  obtain ⟨u₁, hkey, u₂, howner, h⟩ := h
  refine ⟨u₁, hkey, u₂, howner, ?_⟩
  by_cases hempty : w.data a.depositPda = .empty
  · simp only [if_pos hempty, bind_eq_ok] at h ⊢
    obtain ⟨w₁, hcreate, d₁, hd₁, h⟩ := h
    obtain ⟨hcallee, hauth, hblank, u, hpaid, hw₁⟩ := Context.createOrAdoptPda_eq_ok.mp hcreate
    refine ⟨ctx.withPool π q w₁, Context.createOrAdoptPda_eq_ok.mpr ⟨hcallee, hauth,
      (account_withPool hne).trans hblank, _, payShortfall_withPool hp hpaid, ?_⟩, d₁, ?_, ?_⟩
    · rw [hw₁, withPool_set hne]
    · rw [World.data, account_withPool hne]
      exact hd₁
    · obtain ⟨rfl, -⟩ := freshOrChecked_eq_ok h
      exact freshOrChecked_world h
  · simp only [if_neg hempty, bind_eq_ok, ok_eq_ok] at h ⊢
    obtain ⟨w₁, hw₁, d₁, hd₁, h⟩ := h
    subst hw₁
    refine ⟨_, rfl, d₁, hdata ▸ hd₁, ?_⟩
    obtain ⟨rfl, -⟩ := freshOrChecked_eq_ok h
    exact freshOrChecked_world h

theorem recordDeposit_withPool (hp : w.pool ctx.programId π = some p)
    {accounts : List AccountInfo} {a : DepositAccounts} {c : Clock} {lp : UInt64}
    (h : recordDeposit ctx w accounts a c lp = .ok w') :
    recordDeposit ctx (ctx.withPool π q w) accounts a c lp = .ok (ctx.withPool π q w') := by
  unfold recordDeposit at h ⊢
  simp only [bind_eq_ok, Prod.exists, World.store_eq_ok] at h ⊢
  obtain ⟨w₁, d, hopen, u, hu, d', hcredit, hwritable, rfl⟩ := h
  have hne := openRecord_ne hp hopen
  refine ⟨ctx.withPool π q w₁, d, openRecord_withPool hp hopen, u, hu, d', hcredit,
    hwritable, ?_⟩
  rw [withPool_set hne, account_withPool hne]

theorem recordDepositJunior_withPool (hp : w.pool ctx.programId π = some p)
    {accounts : List AccountInfo} {a : DepositAccounts} {c : Clock} {lp : UInt64}
    (h : recordDepositJunior ctx w accounts a c lp = .ok w') :
    recordDepositJunior ctx (ctx.withPool π q w) accounts a c lp = .ok (ctx.withPool π q w') := by
  unfold recordDepositJunior at h ⊢
  simp only [bind_eq_ok, Prod.exists, World.store_eq_ok] at h ⊢
  obtain ⟨w₁, d, hopen, u, hu, d', hcredit, hwritable, rfl⟩ := h
  have hne := openRecord_ne hp hopen
  refine ⟨ctx.withPool π q w₁, d, openRecord_withPool hp hopen, u, hu, d', hcredit,
    hwritable, ?_⟩
  rw [withPool_set hne, account_withPool hne]

/-! ## Checks

The checks in front of a pricing see the charter and the settings of the pool, and the
cap its principal. -/

variable {p₁ p₂ : StakePool}

theorem validateDeposit_withPool (hp : w.pool ctx.programId π = some p)
    (hcharter : p₂.charter = p₁.charter) (hsettings : p₂.settings = p₁.settings)
    (hprincipal : p₂.principalTvl = p₁.principalTvl) (a : DepositAccounts) (amount : UInt64)
    (e : StakeError) : validateDeposit ctx (ctx.withPool π q w) a p₂ amount e =
      validateDeposit ctx w a p₁ amount e := by
  have hcap : checkDepositCap p₂ amount = checkDepositCap p₁ amount := by
    unfold checkDepositCap
    rw [show p₂.depositCap = p₁.depositCap from congrArg Settings.depositCap hsettings, hprincipal]
  have hresolved : p₂.marketResolved = p₁.marketResolved :=
    congrArg Settings.marketResolved hsettings
  unfold validateDeposit validateLpRecipientAccount
  rw [hcap, hresolved, lpMint_of_charter hcharter, vault_of_charter hcharter,
    collateralMint_of_charter hcharter, validateTokenAccount_withPool hp,
    validateTokenAccount_withPool hp]

theorem validateWithdraw_withPool (hp : w.pool ctx.programId π = some p)
    (hcharter : p₂.charter = p₁.charter) (a : WithdrawAccounts) :
    validateWithdraw ctx (ctx.withPool π q w) a p₂ = validateWithdraw ctx w a p₁ := by
  have hlen : ((ctx.withPool π q w).data a.depositPda).len = (w.data a.depositPda).len :=
    read_withPool (q := q) (p := p) AccountData.len rfl hp a.depositPda
  unfold validateWithdraw
  rw [hlen, lpMint_of_charter hcharter, vault_of_charter hcharter,
    collateralMint_of_charter hcharter, header_withPool hp, validateTokenMint_withPool hp,
    owner_withPool hp]

theorem checkRecord_withPool (hp : w.pool ctx.programId π = some p)
    (hsettings : p₂.settings = p₁.settings) (a : WithdrawAccounts) (c : Clock) (lp : UInt64) :
    checkRecord (ctx.withPool π q w) a p₂ c lp = checkRecord w a p₁ c lp := by
  have hdata : depositFromData ((ctx.withPool π q w).data a.depositPda) =
      depositFromData (w.data a.depositPda) :=
    read_withPool (q := q) (p := p) depositFromData rfl hp a.depositPda
  unfold checkRecord
  rw [hdata, show p₂.cooldownSlots = p₁.cooldownSlots from
    congrArg Settings.cooldownSlots hsettings]

end

end PercolatorStake
