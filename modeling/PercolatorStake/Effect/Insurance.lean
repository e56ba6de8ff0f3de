import PercolatorStake.Effect.Tokens

/-!
# What the insurance instructions do

A flush, a return and a recovery are one move of the ledger each.  Resolution
moves nothing.
-/

namespace PercolatorStake

open Result Word

section

variable {ctx : Context} {π : Pubkey} {w w₁ w' : World} {p p' : StakePool} {t t₁ : TokenAccount}
  {m m₁ : Mint} {accounts : List AccountInfo} {amount : UInt64} {ms : List (Move Pubkey)}

/-- An instruction that moves tokens and then writes the pool. -/
theorem Standing.simulated (h₁ : Standing ctx π w₁ p t₁ m₁) (hw : World.TokensOnly w w₁)
    {a : AccountInfo} (hk : a.key = π) (hstore : w₁.store a (.pool p') = .ok w')
    (hcharter : p'.charter = p.charter)
    (hrun : Transition.Run Ledger.Step (ledgerOf ctx π w p t) ms
      ⟨p'.book, t₁.amount.toNat, w.positions ctx.programId π⟩) :
    Simulated ctx π w p t ms w' := by
  obtain ⟨-, rfl⟩ := (store_pool_eq_ok hk h₁.pool_eq).mp hstore
  refine ⟨p', t₁, m₁, h₁.setPool hcharter, hcharter, ?_⟩
  rwa [ledgerOf, ledgerOf, h₁.positions_setPool, hw.positions_eq]

/-! ## FlushToInsurance -/

theorem FlushAccounts.next_eq_ok {a : FlushAccounts} (h : FlushAccounts.next accounts = .ok a) :
    accounts[1]? = some a.poolPda := by
  unfold FlushAccounts.next at h
  split at h
  · cases h
    rfl
  · cases h

theorem bookFlush_book (h : bookFlush p amount = .ok p') :
    p'.charter = p.charter ∧
      p'.book = { p.book with flushed := p.book.flushed + amount.toNat } := by
  unfold bookFlush at h
  simp only [bind_eq_ok, okOr_eq_ok, ok_eq_ok, checkedAdd_eq_some] at h
  obtain ⟨f, hf, rfl⟩ := h
  have hf : f.toNat = p.book.flushed + amount.toNat := hf
  refine ⟨StakePool.charter_setEpochHighWaterTvl _ _, ?_⟩
  rw [StakePool.book_setEpochHighWaterTvl, ← hf]
  rfl

/-- A successful flush.  `paid` is the world after the tokens moved and `final` the
pool it stores. -/
structure FlushRun (ctx : Context) (w : World) (accounts : List AccountInfo) (amount : UInt64)
    (w' : World) where
  a : FlushAccounts
  pool : StakePool
  paid : World
  final : StakePool
  amount_pos : 0 < amount.toNat
  next_eq : FlushAccounts.next accounts = .ok a
  pool_eq : w.pool ctx.programId a.poolPda.key = some pool
  vault_eq : pool.vault = a.vault.key
  unresolved : pool.marketResolved = false
  amount_le : (amount.toNat : Int) ≤ pool.book.value
  move_eq : a.vault.key ≠ a.wrapperVault.key ∧
    SplToken.moveTokens w a.vault.key a.wrapperVault.key amount = .ok paid
  book_eq : bookFlush pool amount = .ok final
  store_eq : paid.store a.poolPda (.pool final) = .ok w'

theorem processFlushToInsurance_run (hd : processFlushToInsurance ctx w accounts amount = .ok w') :
    Nonempty (FlushRun ctx w accounts amount w') := by
  unfold processFlushToInsurance at hd
  simp only [bind_eq_ok, rejectIf_eq_ok, validateAccountOwner_eq_ok, readPool_eq_ok, okOr_eq_ok,
    StakePool.totalPoolValue_eq_some, not_not, eq_zero_iff, gt_iff_lt, UInt64.not_lt,
    UInt64.le_iff_toNat_le, Bool.not_eq_true] at hd
  obtain ⟨_, hamount, a, ha, _, -, _, howner, _, -, _, -, _, -, q, ⟨hq, -⟩, _, -, _, -, _, hvault,
    _, -, _, -, _, hresolved, _, -, v, hv, _, hle, _, -, w₁, hcpi, p₁, hbook, hstore⟩ := hd
  -- tag 9 takes exactly the amount out of the vault
  obtain ⟨-, hne, htransfer⟩ := Context.topUp_of_invokeSigned hcpi
  obtain ⟨-, hmove⟩ := SplToken.processTransfer_eq_ok.mp htransfer
  exact ⟨⟨a, q, w₁, p₁, by omega, ha, pool_of_read howner hq, hvault, hresolved, by omega,
    ⟨hne, hmove⟩, hbook, hstore⟩⟩

theorem Standing.flush (h : Standing ctx π w p t m)
    (hpool : ∃ a, accounts[1]? = some a ∧ a.key = π)
    (hd : processFlushToInsurance ctx w accounts amount = .ok w') :
    Simulated ctx π w p t [.flush amount.toNat] w' := by
  obtain ⟨r⟩ := processFlushToInsurance_run hd
  obtain ⟨hk, rfl⟩ := h.pool_read hpool (FlushAccounts.next_eq_ok r.next_eq) r.pool_eq
  have hmove := r.move_eq
  rw [← r.vault_eq] at hmove
  obtain ⟨b, hb, hw₁, h₁⟩ := h.moveOut hmove.1 hmove.2
  obtain ⟨hcharter, hbook⟩ := bookFlush_book r.book_eq
  refine h₁.simulated hw₁ hk r.store_eq hcharter ⟨_, .flush r.amount_pos r.amount_le ?_, ?_⟩
  · show amount.toNat ≤ t.amount.toNat
    omega
  · have e : t.amount.toNat - amount.toNat = b.toNat := by omega
    rw [hbook]
    show Ledger.mk _ (t.amount.toNat - amount.toNat) _ = Ledger.mk _ b.toNat _
    rw [e]
    rfl

/-! ## ReturnInsurance -/

theorem ReturnAccounts.next_eq_ok {a : ReturnAccounts} (h : ReturnAccounts.next accounts = .ok a) :
    accounts[0]? = some a.admin ∧ accounts[1]? = some a.poolPda := by
  unfold ReturnAccounts.next at h
  split at h
  · cases h
    exact ⟨rfl, rfl⟩
  · cases h

theorem bookReturn_book (h : bookReturn p amount = .ok p') :
    p'.charter = p.charter ∧
      p'.book = { p.book with returned := p.book.returned + amount.toNat } := by
  unfold bookReturn at h
  simp only [bind_eq_ok, okOr_eq_ok, ok_eq_ok, checkedAdd_eq_some] at h
  obtain ⟨r, hr, rfl⟩ := h
  have hr : r.toNat = p.book.returned + amount.toNat := hr
  refine ⟨rfl, ?_⟩
  rw [← hr]
  rfl

/-- A successful return from the admin's own wallet. -/
structure ReturnRun (ctx : Context) (w : World) (accounts : List AccountInfo) (amount : UInt64)
    (w' : World) where
  a : ReturnAccounts
  pool : StakePool
  paid : World
  final : StakePool
  amount_pos : 0 < amount.toNat
  next_eq : ReturnAccounts.next accounts = .ok a
  admin_signs : a.admin.isSigner = true
  pool_eq : w.pool ctx.programId a.poolPda.key = some pool
  vault_eq : pool.vault = a.vault.key
  amount_le : amount.toNat ≤ pool.book.flushed - pool.book.returned
  transfer_eq : SplToken.processTransfer w a.adminAta.key a.vault.key a.admin.key amount = .ok paid
  book_eq : bookReturn pool amount = .ok final
  store_eq : paid.store a.poolPda (.pool final) = .ok w'

theorem processReturnInsurance_run (hd : processReturnInsurance ctx w accounts amount = .ok w') :
    Nonempty (ReturnRun ctx w accounts amount w') := by
  unfold processReturnInsurance requireSigner Context.invoke at hd
  simp only [bind_eq_ok, rejectIf_eq_ok, validateAccountOwner_eq_ok, readPool_eq_ok, not_not,
    eq_zero_iff, gt_iff_lt, UInt64.not_lt, UInt64.le_iff_toNat_le, toNat_saturatingSub,
    Bool.not_eq_false] at hd
  obtain ⟨_, hamount, a, ha, _, hsigner, _, -, _, howner, _, -, _, -, _, -, q, ⟨hq, -⟩, _, -, _,
    hvault, _, -, _, hle, _, -, w₁, htransfer, p₁, hbook, hstore⟩ := hd
  exact ⟨⟨a, q, w₁, p₁, by omega, ha, hsigner, pool_of_read howner hq, hvault, hle,
    Context.transfer_of_invokeSigned htransfer, hbook, hstore⟩⟩

theorem Standing.returnInsurance (h : Standing ctx π w p t m)
    (hpool : ∃ a, accounts[1]? = some a ∧ a.key = π)
    (hsign : ∀ a ∈ accounts, a.isSigner = true → a.key ≠ ctx.vaultAuthority π)
    (hd : processReturnInsurance ctx w accounts amount = .ok w') :
    Simulated ctx π w p t [.giveBack amount.toNat] w' := by
  obtain ⟨r⟩ := processReturnInsurance_run hd
  obtain ⟨hfirst, hsecond⟩ := ReturnAccounts.next_eq_ok r.next_eq
  obtain ⟨hk, rfl⟩ := h.pool_read hpool hsecond r.pool_eq
  have htransfer := r.transfer_eq
  rw [← r.vault_eq] at htransfer
  have hadmin := hsign r.a.admin (List.mem_of_getElem? hfirst) r.admin_signs
  obtain ⟨b, hb, hw₁, h₁⟩ := h.transferIn hadmin htransfer
  obtain ⟨hcharter, hbook⟩ := bookReturn_book r.book_eq
  refine h₁.simulated hw₁ hk r.store_eq hcharter ⟨_, .giveBack r.amount_pos r.amount_le, ?_⟩
  rw [hbook]
  show Ledger.mk _ (t.amount.toNat + amount.toNat) _ = Ledger.mk _ b.toNat _
  rw [hb]
  rfl

/-! ## RecoverFlushedInsurance -/

theorem RecoverAccounts.next_eq_ok {a : RecoverAccounts}
    (h : RecoverAccounts.next accounts = .ok a) : accounts[1]? = some a.poolPda := by
  unfold RecoverAccounts.next at h
  split at h
  · cases h
    rfl
  · cases h

theorem bookRecover_book (h : bookRecover p amount = .ok p') :
    p'.charter = p.charter ∧ p'.book = { p.book with
      returned := p.book.returned + amount.toNat
      recovered := p.book.recovered + amount.toNat } := by
  unfold bookRecover at h
  simp only [bind_eq_ok, okOr_eq_ok, ok_eq_ok, checkedAdd_eq_some] at h
  obtain ⟨r, hr, c, hc, rfl⟩ := h
  have hr : r.toNat = p.book.returned + amount.toNat := hr
  have hc : c.toNat = p.book.recovered + amount.toNat := hc
  refine ⟨rfl, ?_⟩
  rw [← hr, ← hc]
  rfl

theorem checkRecoverCap_eq_ok {u : Unit} :
    checkRecoverCap p amount = .ok u ↔
      0 < p.book.recoverable ∧ amount.toNat ≤ p.book.recoverable := by
  unfold checkRecoverCap
  simp only [bind_eq_ok, rejectIf_eq_ok, eq_zero_iff, gt_iff_lt, BitVec.lt_def, toNat_widen,
    StakePool.toNat_wrapperRecoverable, Nat.not_lt]
  constructor
  · rintro ⟨-, h0, h⟩
    exact ⟨Nat.pos_of_ne_zero h0, h⟩
  · intro h
    exact ⟨(), h.1.ne', h.2⟩

/-- A successful recovery from the wrapper. -/
structure RecoverRun (ctx : Context) (w : World) (accounts : List AccountInfo) (amount : UInt64)
    (w' : World) where
  a : RecoverAccounts
  pool : StakePool
  paid : World
  final : StakePool
  amount_pos : 0 < amount.toNat
  next_eq : RecoverAccounts.next accounts = .ok a
  pool_eq : w.pool ctx.programId a.poolPda.key = some pool
  vault_eq : pool.vault = a.vault.key
  amount_le : amount.toNat ≤ pool.book.recoverable
  move_eq : a.wrapperVault.key ≠ a.vault.key ∧
    SplToken.moveTokens w a.wrapperVault.key a.vault.key amount = .ok paid
  book_eq : bookRecover pool amount = .ok final
  store_eq : paid.store a.poolPda (.pool final) = .ok w'

theorem processRecoverFlushedInsurance_run
    (hd : processRecoverFlushedInsurance ctx w accounts amount = .ok w') :
    Nonempty (RecoverRun ctx w accounts amount w') := by
  unfold processRecoverFlushedInsurance at hd
  simp only [bind_eq_ok, rejectIf_eq_ok, validateAccountOwner_eq_ok, readPool_eq_ok, not_not,
    eq_zero_iff, checkRecoverCap_eq_ok] at hd
  obtain ⟨a, ha, _, -, _, howner, _, -, _, -, q, ⟨hq, -⟩, _, -, _, hamount, _, ⟨-, hle⟩, _, -, _,
    hvault, _, -, w₁, hcpi, p₁, hbook, hstore⟩ := hd
  -- tag 57 brings exactly the amount into the vault
  exact ⟨⟨a, q, w₁, p₁, by omega, ha, pool_of_read howner hq, hvault, hle,
    (Context.withdraw_of_invokeSigned hcpi).2, hbook, hstore⟩⟩

/-- A recovery, with the pool it leaves behind. -/
theorem Standing.recover_pool (h : Standing ctx π w p t m)
    (hpool : ∃ a, accounts[1]? = some a ∧ a.key = π)
    (hd : processRecoverFlushedInsurance ctx w accounts amount = .ok w') :
    (∃ p', bookRecover p amount = .ok p' ∧ w'.pool ctx.programId π = some p') ∧
      Simulated ctx π w p t [.recover amount.toNat] w' := by
  obtain ⟨r⟩ := processRecoverFlushedInsurance_run hd
  obtain ⟨hk, rfl⟩ := h.pool_read hpool (RecoverAccounts.next_eq_ok r.next_eq) r.pool_eq
  have hmove := r.move_eq
  rw [← r.vault_eq] at hmove
  obtain ⟨b, hb, hw₁, h₁⟩ := h.moveIn hmove.1 hmove.2
  obtain ⟨hcharter, hbooks⟩ := bookRecover_book r.book_eq
  refine ⟨⟨r.final, r.book_eq, ?_⟩,
    h₁.simulated hw₁ hk r.store_eq hcharter ⟨_, .recover r.amount_pos r.amount_le, ?_⟩⟩
  · obtain ⟨-, hw'⟩ := (store_pool_eq_ok hk h₁.pool_eq).mp r.store_eq
    have h₂ := (h₁.setPool hcharter).pool_eq
    rwa [← hw'] at h₂
  · rw [hbooks]
    show Ledger.mk _ (t.amount.toNat + amount.toNat) _ = Ledger.mk _ b.toNat _
    rw [hb]
    rfl

theorem Standing.recover (h : Standing ctx π w p t m)
    (hpool : ∃ a, accounts[1]? = some a ∧ a.key = π)
    (hd : processRecoverFlushedInsurance ctx w accounts amount = .ok w') :
    Simulated ctx π w p t [.recover amount.toNat] w' :=
  (h.recover_pool hpool hd).2

end

end PercolatorStake
