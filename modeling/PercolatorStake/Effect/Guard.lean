import PercolatorStake.Effect.Settings

/-!
# What an owner keeps

Tokens leave an account on the signature of its owner, and a mint issues on that of its
authority.  An instruction carries the signatures of its transaction and adds one of its
own, that of the vault authority of the pool it names.  So whoever is not among them
keeps what they have.

The wrapper pays a recovery out of an account of its own, by its own signature.  That it
pays out of nobody else's is what `WrapperSpares` says.
-/

namespace PercolatorStake

open Result Word

/-- What `A` owns is safe: its token accounts lose nothing and stay its own, and the mints
under its authority issue nothing. -/
structure World.Guarded (A : Pubkey) (w w' : World) : Prop where
  token_le : ∀ {k t}, w.token k = some t → t.owner = A → t.state = .initialized →
    ∃ amount : UInt64, t.amount.toNat ≤ amount.toNat ∧
      w'.token k = some { t with amount := amount }
  mint_le : ∀ {k m}, w.mint k = some m → m.mintAuthority = some A → m.isInitialized = true →
    ∃ supply : UInt64, supply.toNat ≤ m.supply.toNat ∧
      w'.mint k = some { m with supply := supply }

/-- The wrapper does not pay out of an account of `A`. -/
def Context.WrapperSpares (ctx : Context) (A : Pubkey) : Prop :=
  ∀ w ix source t, ctx.wrapper.accepts w ix = true →
    ix.data.head? = some Cpi.tagWithdrawInsuranceAsset → ix.accounts[3]? = some source →
    w.token source.pubkey = some t → t.owner ≠ A

namespace World.Guarded

variable {A : Pubkey} {w w' w'' : World}

theorem of_same (ht : ∀ k, w'.token k = w.token k) (hm : ∀ k, w'.mint k = w.mint k) :
    Guarded A w w' := by
  refine ⟨?_, ?_⟩
  · intro k t hk _ _
    exact ⟨t.amount, Nat.le_refl _, (ht k).trans hk⟩
  · intro k m hk _ _
    exact ⟨m.supply, Nat.le_refl _, (hm k).trans hk⟩

theorem refl (A : Pubkey) (w : World) : Guarded A w w :=
  of_same (fun _ => rfl) fun _ => rfl

theorem trans (h : Guarded A w w') (h' : Guarded A w' w'') : Guarded A w w'' := by
  refine ⟨?_, ?_⟩
  · intro k t hk ho hs
    obtain ⟨a, ha, hk'⟩ := h.token_le hk ho hs
    obtain ⟨b, hb, hk''⟩ := h'.token_le hk' ho hs
    exact ⟨b, Nat.le_trans ha hb, hk''⟩
  · intro k m hk ho hs
    obtain ⟨a, ha, hk'⟩ := h.mint_le hk ho hs
    obtain ⟨b, hb, hk''⟩ := h'.mint_le hk' ho hs
    exact ⟨b, Nat.le_trans hb ha, hk''⟩

theorem withLamports (l : Pubkey → UInt64) : Guarded A w (w.withLamports l) :=
  of_same (fun _ => rfl) fun _ => rfl

/-- Writing an account that holds neither tokens nor a mint. -/
theorem set {k : Pubkey} {x : Account} (ht : w.token k = none) (hm : w.mint k = none) :
    Guarded A w (w.set k x) := by
  have hne : ∀ {k'}, w.token k' ≠ none ∨ w.mint k' ≠ none → k' ≠ k := by
    intro k' h hk
    rw [hk] at h
    exact h.elim (fun e => e ht) (fun e => e hm)
  refine ⟨?_, ?_⟩
  · intro k' t hk _ _
    refine ⟨t.amount, Nat.le_refl _, ?_⟩
    rw [World.token, World.account_set_of_ne (hne (.inl (by rw [hk]; exact Option.some_ne_none t))),
      ← World.token, hk]
  · intro k' m hk _ _
    refine ⟨m.supply, Nat.le_refl _, ?_⟩
    rw [World.mint, World.account_set_of_ne (hne (.inr (by rw [hk]; exact Option.some_ne_none m))),
      ← World.mint, hk]

/-- A token account is rewritten: no loss where `A` owns it. -/
theorem setToken {k : Pubkey} {t : TokenAccount} {v : UInt64} (ht : w.token k = some t)
    (hv : t.owner = A → t.amount.toNat ≤ v.toNat) :
    Guarded A w (SplToken.setToken w k { t with amount := v }) := by
  refine ⟨?_, ?_⟩
  · intro k' t' hk ho _
    by_cases he : k' = k
    · subst he
      obtain rfl : t = t' := Option.some_inj.mp (ht.symm.trans hk)
      exact ⟨v, hv ho, SplToken.token_setToken_self⟩
    · exact ⟨t'.amount, Nat.le_refl _, (SplToken.token_setToken_of_ne he).trans hk⟩
  · intro k' m hk _ _
    exact ⟨m.supply, Nat.le_refl _, (SplToken.mint_setToken ht).trans hk⟩

/-- A mint is rewritten: nothing is issued where `A` is the authority. -/
theorem setMint {k : Pubkey} {m : Mint} {s : UInt64} (hm : w.mint k = some m)
    (hs : m.mintAuthority = some A → s.toNat ≤ m.supply.toNat) :
    Guarded A w (SplToken.setMint w k { m with supply := s }) := by
  refine ⟨?_, ?_⟩
  · intro k' t hk _ _
    exact ⟨t.amount, Nat.le_refl _, (SplToken.token_setMint hm).trans hk⟩
  · intro k' m' hk ho _
    by_cases he : k' = k
    · subst he
      obtain rfl : m = m' := Option.some_inj.mp (hm.symm.trans hk)
      exact ⟨s, hs ho, SplToken.mint_setMint_self⟩
    · exact ⟨m'.supply, Nat.le_refl _, (SplToken.mint_setMint_of_ne he).trans hk⟩

end World.Guarded

/-! ## The token program -/

section

variable {A : Pubkey} {ctx : Context} {w w' : World} {amount : UInt64}

theorem moveTokens_guarded {source dest : Pubkey}
    (hsource : ∀ t, w.token source = some t → t.owner ≠ A)
    (h : SplToken.moveTokens w source dest amount = .ok w') : World.Guarded A w w' := by
  by_cases hne : source = dest
  · unfold SplToken.moveTokens at h
    simp only [if_pos hne, bind_eq_ok, ok_eq_ok] at h
    obtain ⟨_, -, _, -, _, -, _, -, rfl⟩ := h
    exact .refl A w
  · obtain ⟨s, d, sA, dA, hs, -, hd, -, -, -, hdA, rfl⟩ := (SplToken.moveTokens_eq_ok hne).mp h
    have h₁ : World.Guarded A w (SplToken.setToken w source { s with amount := sA }) :=
      .setToken hs fun ho => (hsource s hs ho).elim
    have hd' := (SplToken.token_setToken_of_ne (w := w) (t := { s with amount := sA })
      (Ne.symm hne)).trans hd
    exact h₁.trans (.setToken hd' fun _ => by omega)

theorem processTransfer_guarded {source dest authority : Pubkey} (ha : authority ≠ A)
    (h : SplToken.processTransfer w source dest authority amount = .ok w') :
    World.Guarded A w w' := by
  obtain ⟨⟨t, ht, -, ho⟩, hmove⟩ := SplToken.processTransfer_eq_ok.mp h
  apply moveTokens_guarded _ hmove
  intro t' ht' ho'
  obtain rfl : t = t' := Option.some_inj.mp (ht.symm.trans ht')
  exact ha (ho.symm.trans ho')

theorem processMintTo_guarded {mint dest authority : Pubkey} (ha : authority ≠ A)
    (h : SplToken.processMintTo w mint dest authority amount = .ok w') : World.Guarded A w w' := by
  obtain ⟨d, m, dA, s, hd, -, hm, -, -, hauth, hdA, -, rfl⟩ := SplToken.processMintTo_eq_ok.mp h
  have h₁ : World.Guarded A w (SplToken.setToken w dest { d with amount := dA }) :=
    .setToken hd fun _ => by omega
  refine h₁.trans (.setMint ((SplToken.mint_setToken hd).trans hm) ?_)
  intro ho
  exact (ha (Option.some_inj.mp (hauth.symm.trans ho))).elim

theorem processBurn_guarded {account mint authority : Pubkey} (ha : authority ≠ A)
    (h : SplToken.processBurn w account mint authority amount = .ok w') : World.Guarded A w w' := by
  obtain ⟨d, m, dA, s, hd, -, ho, hm, -, -, -, hs, rfl⟩ := SplToken.processBurn_eq_ok.mp h
  have h₁ : World.Guarded A w (SplToken.setToken w account { d with amount := dA }) :=
    .setToken hd fun ho' => (ha (ho.symm.trans ho')).elim
  exact h₁.trans (.setMint ((SplToken.mint_setToken hd).trans hm) fun _ => by omega)

/-! ## The handlers -/

theorem collectDeposit_guarded {a : DepositAccounts} {mintAmount : UInt64}
    (huser : a.user.key ≠ A) (hauth : a.vaultAuth.key ≠ A)
    (h : collectDeposit ctx w a amount mintAmount = .ok w') : World.Guarded A w w' := by
  unfold collectDeposit Context.invoke at h
  rw [bind_eq_ok] at h
  obtain ⟨w₁, htransfer, hmint⟩ := h
  have h₁ := processTransfer_guarded huser (Context.transfer_of_invokeSigned htransfer)
  exact h₁.trans (processMintTo_guarded hauth (Context.mintTo_of_invokeSigned hmint))

theorem payOut_guarded {a : WithdrawAccounts} {p : StakePool} {lp x : UInt64}
    (huser : a.user.key ≠ A) (hauth : a.vaultAuth.key ≠ A)
    (h : payOut ctx w a p lp x = .ok w') : World.Guarded A w w' := by
  unfold payOut Context.invoke at h
  simp only [bind_eq_ok] at h
  obtain ⟨w₁, hburn, _, -, h⟩ := h
  have h₁ := processBurn_guarded huser (Context.burn_of_invokeSigned hburn)
  by_cases hx : x > 0
  · rw [if_pos hx] at h
    exact h₁.trans (processTransfer_guarded hauth (Context.transfer_of_invokeSigned h))
  · rw [if_neg hx] at h
    cases h
    exact h₁

theorem validateWithdraw_authority {a : WithdrawAccounts} {p : StakePool} {u : Unit}
    (h : validateWithdraw ctx w a p = .ok u) :
    a.vaultAuth.key = ctx.vaultAuthority a.poolPda.key := by
  unfold validateWithdraw at h
  simp only [bind_eq_ok, rejectIf_eq_ok, not_not] at h
  obtain ⟨_, -, _, -, _, -, _, -, _, -, _, -, _, -, _, -, _, hauth, -⟩ := h
  exact hauth

/-- The accounts a new pool initializes belonged to nobody. -/
theorem createTokenAccounts_guarded {a : InitAccounts}
    (h : createTokenAccounts ctx w a = .ok w') : World.Guarded A w w' := by
  unfold createTokenAccounts at h
  simp only [bind_eq_ok] at h
  obtain ⟨_, -, decimals, -, w₁, hmint, hvault⟩ := h
  have hmint := Context.initializeMint_of_invokeSigned hmint
  have hvault := Context.initializeAccount_of_invokeSigned hvault
  rw [SplToken.processInitializeMint_eq_ok] at hmint
  rw [SplToken.processInitializeAccount_eq_ok] at hvault
  obtain ⟨m₀, hm₀, hnew, rfl⟩ := hmint
  obtain ⟨t₀, _, ht₀, hblank, -, -, rfl⟩ := hvault
  have ht : w.token a.vault.key = some t₀ := (SplToken.token_setMint hm₀).symm.trans ht₀
  refine ⟨?_, ?_⟩
  · intro k t hk _ hs
    have hne : k ≠ a.vault.key := by
      rintro rfl
      obtain rfl : t₀ = t := Option.some_inj.mp (ht.symm.trans hk)
      cases hblank.symm.trans hs
    refine ⟨t.amount, Nat.le_refl _, ?_⟩
    rw [SplToken.token_setToken_of_ne hne, SplToken.token_setMint hm₀, hk]
  · intro k m hk _ hi
    have hne : k ≠ a.lpMint.key := by
      rintro rfl
      obtain rfl : m₀ = m := Option.some_inj.mp (hm₀.symm.trans hk)
      cases hnew.symm.trans hi
    refine ⟨m.supply, Nat.le_refl _, ?_⟩
    rw [SplToken.mint_setToken ht₀, SplToken.mint_setMint_of_ne hne, hk]

/-- A flush pays out of the vault on the signature of the vault authority. -/
theorem processFlushToInsurance_signed {accounts : List AccountInfo}
    (h : processFlushToInsurance ctx w accounts amount = .ok w') :
    ∃ a p w₁ p₁, accounts[1]? = some a ∧ w.pool ctx.programId a.key = some p ∧
      (∃ source dest, SplToken.processTransfer w source dest (ctx.vaultAuthority a.key) amount =
        .ok w₁) ∧ w₁.store a (.pool p₁) = .ok w' := by
  unfold processFlushToInsurance at h
  simp only [bind_eq_ok, rejectIf_eq_ok, validateAccountOwner_eq_ok, readPool_eq_ok, not_not] at h
  obtain ⟨_, -, a, ha, _, -, _, howner, _, -, _, -, _, -, p, ⟨hp, -⟩, _, -, _, -, _, -, _, -, _, -,
    _, -, _, -, _, -, _, -, _, hauth, w₁, hcpi, p₁, -, hstore⟩ := h
  obtain ⟨-, -, htransfer⟩ := Context.topUp_of_invokeSigned hcpi
  rw [hauth] at htransfer
  exact ⟨a.poolPda, p, w₁, p₁, FlushAccounts.next_eq_ok ha, pool_of_read howner hp,
    ⟨_, _, htransfer⟩, hstore⟩

theorem Cpi.withdrawInsuranceAsset_guarded {program signer slab dest source wrapperVaultAuth
    tokenProgram : Pubkey} {infos : List AccountInfo} {seeds : List (List (List UInt8))}
    (hw : ctx.WrapperSpares A)
    (h : ctx.invokeSigned w (Cpi.withdrawInsuranceAsset program signer slab dest source
      wrapperVaultAuth tokenProgram amount) infos seeds = .ok w') : World.Guarded A w w' := by
  obtain ⟨haccepts, -, hmove⟩ := Context.withdraw_of_invokeSigned h
  apply moveTokens_guarded _ hmove
  intro t ht
  exact hw w _ (.writable source false) t haccepts rfl rfl ht

/-- A recovery is paid by the wrapper. -/
theorem processRecoverFlushedInsurance_signed {accounts : List AccountInfo}
    (hw : ctx.WrapperSpares A)
    (h : processRecoverFlushedInsurance ctx w accounts amount = .ok w') :
    ∃ a p w₁ p₁, accounts[1]? = some a ∧ w.pool ctx.programId a.key = some p ∧
      World.Guarded A w w₁ ∧ World.TokensOnly w w₁ ∧ w₁.store a (.pool p₁) = .ok w' := by
  unfold processRecoverFlushedInsurance at h
  simp only [bind_eq_ok, rejectIf_eq_ok, validateAccountOwner_eq_ok, readPool_eq_ok, not_not] at h
  obtain ⟨a, ha, _, -, _, howner, _, -, _, -, p, ⟨hp, -⟩, _, -, _, -, _, -, _, -, _, -, _, -, w₁,
    hcpi, p₁, -, hstore⟩ := h
  exact ⟨a.poolPda, p, w₁, p₁, RecoverAccounts.next_eq_ok ha, pool_of_read howner hp,
    Cpi.withdrawInsuranceAsset_guarded hw hcpi,
    (moveTokens_tokensOnly (Context.withdraw_of_invokeSigned hcpi).2.2).1, hstore⟩

end

/-! ## Every instruction -/

section

variable {A : Pubkey} {ctx : Context} {w w₁ w' : World} {accounts : List AccountInfo}
  {ix : StakeInstruction}

theorem World.Guarded.setPool {k : Pubkey} {p : StakePool} (hp : w.pool ctx.programId k = some p)
    (x : Account) : World.Guarded A w (w.set k x) := by
  rw [World.pool_eq_some] at hp
  apply World.Guarded.set
  · rw [World.token, hp]
  · rw [World.mint, hp]

theorem World.Guarded.setRecord {k : Pubkey}
    (hk : (∃ d, w.account k = ⟨ctx.programId, .deposit d⟩) ∨
    w.account k = ⟨systemProgramId, .empty⟩) (x : Account) : World.Guarded A w (w.set k x) := by
  rcases hk with ⟨d, hd⟩ | hd
  · exact .set (by rw [World.token, hd]) (by rw [World.mint, hd])
  · exact .set (by rw [World.token, hd]) (by rw [World.mint, hd])

/-- A movement, and then the pool is stored. -/
theorem World.Guarded.store {a : AccountInfo} {p p₁ : StakePool} (h : World.Guarded A w w₁)
    (hw : World.TokensOnly w w₁) (hp : w.pool ctx.programId a.key = some p)
    (hstore : w₁.store a (.pool p₁) = .ok w') : World.Guarded A w w' := by
  have hp₁ := (hw.pool_eq ctx.programId a.key).trans hp
  obtain ⟨-, rfl⟩ := (store_pool_eq_ok rfl hp₁).mp hstore
  exact h.trans (.setPool hp₁ _)

/-- The instructions that move tokens or create a pool. -/
def StakeInstruction.transfers : StakeInstruction → Bool
  | .flushToInsurance _ | .returnInsurance _ | .recoverFlushedInsurance _ => true
  | ix => ix.mints

/-- Every other instruction writes the pool it names, and nothing else. -/
theorem process_configured (h : process ctx w accounts ix = .ok w') (hix : ix.transfers = false) :
    ∃ R, ctx.Configured w accounts R w' := by
  cases ix with
  | initPool | initTradingPool | deposit | depositJunior | withdraw | flushToInsurance |
    returnInsurance | recoverFlushedInsurance => cases hix
  | updateConfig => exact ⟨_, processUpdateConfig_configured h⟩
  | proposeAdmin => exact ⟨_, processProposeAdmin_configured h⟩
  | acceptAdmin => exact ⟨_, processAcceptAdmin_configured h⟩
  | proposeCooldownIncrease => exact ⟨_, processProposeCooldownIncrease_configured h⟩
  | commitCooldownIncrease => exact ⟨_, processCommitCooldownIncrease_configured h⟩
  | cancelCooldownIncrease => exact ⟨_, processCancelCooldownIncrease_configured h⟩
  | accrueFees => exact ⟨_, processAccrueFees_configured h⟩
  | adminSetHwmConfig => exact ⟨_, processAdminSetHwmConfig_configured h⟩
  | adminSetTrancheConfig => exact ⟨_, processAdminSetTrancheConfig_configured h⟩
  | setMarketResolved => exact ⟨_, processSetMarketResolved_configured h⟩
  | burnAssetAdmin => exact ⟨_, processBurnAssetAdmin_configured h⟩
  | rotateInsuranceOperator | rotateInsuranceAuthority =>
    exact ⟨_, rotateRole_configured (fun _ _ _ _ => rfl) h⟩
  | adminResolveMarket => exact ⟨_, processAdminResolveMarket_configured h⟩
  | bindInsuranceAuthority => exact ⟨_, processBindInsuranceAuthority_configured h⟩
  | adminUpdateFeeSplit => exact ⟨_, processAdminUpdateFeeSplit_configured h⟩
  | adminUpdateMaintenanceFeePerSlot =>
    exact ⟨_, processAdminUpdateMaintenanceFeePerSlot_configured h⟩
  | adminUpdateBackingFeePolicy => exact ⟨_, processAdminUpdateBackingFeePolicy_configured h⟩
  | adminUpdateTradeFeePolicy => exact ⟨_, processAdminUpdateTradeFeePolicy_configured h⟩

/-- A creation, up to the token accounts of the pool and its own. -/
theorem processInitPool_guarded {slots cap : UInt64}
    (h : processInitPool ctx w accounts slots cap = .ok w') : World.Guarded A w w' := by
  obtain ⟨a, w₁, l, -, hval, hcreate, rfl⟩ := processInitPool_stages h
  have hempty := (validateInit_eq_ok hval).2.2.1
  have hset : World.Guarded A w (w.set a.poolPda.key ⟨ctx.programId, .pool .zeroed⟩) := by
    apply World.Guarded.set
    · unfold World.token
      split
      · rename_i hk
        rw [World.data, hk] at hempty
        cases hempty
      · rfl
    · unfold World.mint
      split
      · rename_i hk
        rw [World.data, hk] at hempty
        cases hempty
      · rfl
  have hp₁ : w₁.pool ctx.programId a.poolPda.key = some .zeroed := by
    rw [(createTokenAccounts_eq_ok hcreate).1.pool_eq, World.pool_eq_some, World.account_set_self]
  have hopened : World.Guarded A w
      ((w.withLamports l).set a.poolPda.key ⟨ctx.programId, .pool .zeroed⟩) :=
    hset.trans (.withLamports l)
  exact (hopened.trans (createTokenAccounts_guarded hcreate)).trans (.setPool hp₁ _)

theorem DepositRun.guarded {junior : Bool} {amount : UInt64}
    (r : DepositRun ctx w accounts junior amount w')
    (hsign : ∀ a ∈ accounts, a.isSigner = true → a.key ≠ A)
    (hauth : ctx.vaultAuthority r.a.poolPda.key ≠ A) : World.Guarded A w w' := by
  have hkey := (validateDeposit_eq_ok r.valid).2.2.2.1
  obtain ⟨huser, -⟩ := DepositAccounts.next_eq_ok r.next_eq
  have hpaid : World.Guarded A w r.paid := collectDeposit_guarded
    (hsign _ (List.mem_of_getElem? huser) r.user_signs) (hkey ▸ hauth) r.collect_eq
  obtain ⟨d, -, -, hacc, ⟨l, hrecorded⟩, -⟩ := r.credited.writes
  have hrecord : World.Guarded A r.paid r.recorded := by
    rw [hrecorded]
    exact (World.Guarded.setRecord hacc _).trans (.withLamports l)
  have hp : r.recorded.pool ctx.programId r.a.poolPda.key = some r.pool := by
    rw [hrecorded, pool_setRecord (w := r.paid.withLamports l) hacc, World.pool_withLamports,
      (collectDeposit_changes r.collect_eq).pool_eq, r.pool_eq]
  exact (hpaid.trans hrecord).trans ((World.Guarded.refl A _).store (.refl _) hp r.store_eq)

theorem WithdrawRun.guarded {lp : UInt64} (r : WithdrawRun ctx w accounts lp w')
    (hsign : ∀ a ∈ accounts, a.isSigner = true → a.key ≠ A)
    (hauth : ctx.vaultAuthority r.a.poolPda.key ≠ A) : World.Guarded A w w' := by
  have hkey := validateWithdraw_authority r.valid
  obtain ⟨huser, -⟩ := WithdrawAccounts.next_eq_ok r.next_eq
  have hpaid : World.Guarded A w r.paid := payOut_guarded
    (hsign _ (List.mem_of_getElem? huser) r.user_signs) (hkey ▸ hauth) r.pay_eq
  have htokens := payOut_changes r.pay_eq
  have hrec : r.paid.account r.a.depositPda.key = ⟨ctx.programId, .deposit r.deposit⟩ :=
    (htokens.account_iff (fun _ e => by cases e) (fun _ e => by cases e)).mpr r.record_eq.2
  obtain ⟨-, hrecorded⟩ := (store_record_eq_ok hrec).mp r.store_record
  have hrecord : World.Guarded A r.paid r.recorded := by
    rw [hrecorded]
    exact .setRecord (.inl ⟨_, hrec⟩) _
  have hp : r.recorded.pool ctx.programId r.a.poolPda.key = some r.pool := by
    rw [hrecorded, pool_setRecord (.inl ⟨_, hrec⟩), htokens.pool_eq, r.pool_eq]
  exact (hpaid.trans hrecord).trans ((World.Guarded.refl A _).store (.refl _) hp r.store_eq)

/-- An instruction takes from nobody who does not sign it, the vault authority of its own
pool apart. -/
theorem process_guarded (h : process ctx w accounts ix = .ok w')
    (hsign : ∀ a ∈ accounts, a.isSigner = true → a.key ≠ A)
    (hpool : ∀ a, ix.poolAccount accounts = some a → ctx.vaultAuthority a.key ≠ A)
    (hw : ctx.WrapperSpares A) : World.Guarded A w w' := by
  cases hix : ix.transfers with
  | false =>
    obtain ⟨R, a, p, p', -, hp, -, rfl⟩ := process_configured h hix
    exact .setPool hp _
  | true =>
    cases ix with
    | initPool => exact processInitPool_guarded h
    | initTradingPool slots cap =>
      unfold process processInitTradingPool at h
      simp only [bind_eq_ok] at h
      obtain ⟨w₁, hinit, a', ha', _, -, q, -, _, -, hstore⟩ := h
      obtain ⟨a, ha, hc⟩ := processInitPool_creates hinit
      obtain rfl : a = a' := Except.ok.inj (ha.symm.trans ha')
      exact (processInitPool_guarded hinit).trans
        ((World.Guarded.refl A _).store (.refl _) hc.after hstore)
    | deposit =>
      obtain ⟨r⟩ := processDeposit_eq_ok.mp h
      exact r.guarded hsign (hpool _ (DepositAccounts.next_eq_ok r.next_eq).2)
    | depositJunior =>
      obtain ⟨r⟩ := processDepositJunior_eq_ok.mp h
      exact r.guarded hsign (hpool _ (DepositAccounts.next_eq_ok r.next_eq).2)
    | withdraw =>
      obtain ⟨r⟩ := processWithdraw_eq_ok.mp h
      exact r.guarded hsign (hpool _ (WithdrawAccounts.next_eq_ok r.next_eq).2)
    | flushToInsurance =>
      obtain ⟨a, p, w₁, p₁, ha, hp, ⟨_, _, htransfer⟩, hstore⟩ := processFlushToInsurance_signed h
      exact (processTransfer_guarded (hpool a ha) htransfer).store
        (moveTokens_tokensOnly (SplToken.processTransfer_eq_ok.mp htransfer).2).1 hp hstore
    | returnInsurance =>
      obtain ⟨r⟩ := processReturnInsurance_run h
      have hadmin := hsign _ (List.mem_of_getElem? (ReturnAccounts.next_eq_ok r.next_eq).1)
        r.admin_signs
      exact (processTransfer_guarded hadmin r.transfer_eq).store
        (moveTokens_tokensOnly (SplToken.processTransfer_eq_ok.mp r.transfer_eq).2).1 r.pool_eq
        r.store_eq
    | recoverFlushedInsurance =>
      obtain ⟨a, p, w₁, p₁, -, hp, hguarded, htokens, hstore⟩ :=
        processRecoverFlushedInsurance_signed hw h
      exact hguarded.store htokens hp hstore
    | _ => cases hix

end

end PercolatorStake
