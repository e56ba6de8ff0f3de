import PercolatorStake.Runtime

/-!
# What the shared stages do

Reading a pool, and accruing fees.  An accrual is one move of the ledger, or none
when there is nothing to accrue, and after it everything in the vault is on the
books.
-/

namespace PercolatorStake

open Result Word

/-! ## Reading -/

theorem poolFromData_eq_ok {x : AccountData} {p : StakePool} :
    poolFromData x = .ok p ↔ x = .pool p := by
  unfold poolFromData
  split
  · rw [ok_eq_ok, AccountData.pool.injEq]
  · rename_i h
    refine ⟨fun e => ?_, fun e => (h p e).elim⟩
    split at e <;> cases e

theorem depositFromData_eq_ok {x : AccountData} {d : StakeDeposit} :
    depositFromData x = .ok d ↔ x = .deposit d := by
  unfold depositFromData
  split
  · rw [ok_eq_ok, AccountData.deposit.injEq]
  · rename_i h
    refine ⟨fun e => ?_, fun e => (h d e).elim⟩
    split at e <;> cases e

theorem readPool_eq_ok {w : World} {a : AccountInfo} {p : StakePool} :
    readPool w a = .ok p ↔ w.data a = .pool p ∧ p.isInitialized = 1 ∧
      p.validateDiscriminator = true ∧ p.version = StakePool.currentVersion := by
  unfold readPool validatePoolVersion
  simp only [bind_eq_ok, rejectIf_eq_ok, ok_eq_ok, poolFromData_eq_ok, not_not,
    Bool.not_eq_false]
  refine ⟨?_, ?_⟩
  · rintro ⟨q, hq, -, h1, -, h2, -, h3, rfl⟩
    exact ⟨hq, h1, h2, h3⟩
  · rintro ⟨hq, h1, h2, h3⟩
    exact ⟨p, hq, (), h1, (), h2, (), h3, rfl⟩

theorem validateAccountOwner_eq_ok {w : World} {a : AccountInfo} {id : Pubkey} {u : Unit} :
    validateAccountOwner w a id = .ok u ↔ w.owner a = id := by
  unfold validateAccountOwner
  rw [rejectIf_eq_ok, not_not]

/-- The account a handler reads its pool from, once its owner is checked. -/
theorem pool_of_read {w : World} {a : AccountInfo} {id : Pubkey} {p : StakePool}
    (ho : w.owner a = id) (hd : w.data a = .pool p) : w.pool id a.key = some p :=
  World.pool_eq_some.mpr (World.account_eq ho hd)

/-- The pool an instruction reads is the one that stands. -/
theorem Standing.pool_read {ctx : Context} {π : Pubkey} {w : World} {p q : StakePool}
    {t : TokenAccount} {m : Mint} (h : Standing ctx π w p t m) {accounts : List AccountInfo}
    {i : Nat} {b : AccountInfo} (hpool : ∃ a, accounts[i]? = some a ∧ a.key = π)
    (hb : accounts[i]? = some b) (hq : w.pool ctx.programId b.key = some q) :
    b.key = π ∧ p = q := by
  obtain ⟨a, ha, hπ⟩ := hpool
  obtain rfl : b = a := Option.some_inj.mp (hb.symm.trans ha)
  rw [hπ] at hq
  exact ⟨hπ, Option.some_inj.mp (h.pool_eq.symm.trans hq)⟩

/-- The pool that stands passes every check of its account. -/
theorem Standing.readPool_eq {ctx : Context} {π : Pubkey} {w : World} {p : StakePool}
    {t : TokenAccount} {m : Mint} (h : Standing ctx π w p t m) {a : AccountInfo}
    (hk : a.key = π) :
    w.owner a = ctx.programId ∧ w.data a = .pool p ∧ readPool w a = .ok p := by
  have hπ := World.pool_eq_some.mp h.pool_eq
  have hdata : w.data a = .pool p := by rw [World.data, hk, hπ]
  refine ⟨by rw [World.owner, hk, hπ], hdata, readPool_eq_ok.mpr ⟨hdata, ?_, ?_, ?_⟩⟩
  · exact h.chartered.initialized
  · exact beq_iff_eq.mpr h.chartered.discriminator
  · exact h.chartered.version

/-- Storing a pool where a pool is. -/
theorem store_pool_eq_ok {w w' : World} {a : AccountInfo} {id π : Pubkey} {p p' : StakePool}
    (hk : a.key = π) (h : w.pool id π = some p) :
    w.store a (.pool p') = .ok w' ↔ a.isWritable = true ∧ w' = w.set π ⟨id, .pool p'⟩ := by
  rw [World.pool_eq_some] at h
  rw [World.store_eq_ok, hk, h]

/-- Storing a record where a record is. -/
theorem store_record_eq_ok {w w' : World} {a : AccountInfo} {id : Pubkey} {d d' : StakeDeposit}
    (h : w.account a.key = ⟨id, .deposit d⟩) :
    w.store a (.deposit d') = .ok w' ↔
      a.isWritable = true ∧ w' = w.set a.key ⟨id, .deposit d'⟩ := by
  rw [World.store_eq_ok, h]

theorem readClock_eq_ok {w : World} {a : AccountInfo} {c : Clock} :
    readClock w a = .ok c ↔ a.key = clockSysvarId ∧ w.data a = .clock c := by
  unfold readClock
  rw [bind_eq_ok]
  refine ⟨?_, ?_⟩
  · rintro ⟨u, hk, h⟩
    rw [rejectIf_eq_ok, not_not] at hk
    refine ⟨hk, ?_⟩
    split at h
    · rename_i c' hc
      rw [hc]
      cases h
      rfl
    · cases h
  · rintro ⟨hk, h⟩
    refine ⟨(), rejectIf_eq_ok.mpr (not_not.mpr hk), ?_⟩
    rw [h]

theorem clock_of_read {w : World} {a : AccountInfo} {c : Clock} (h : readClock w a = .ok c) :
    w.clock = some c := by
  obtain ⟨hk, hd⟩ := readClock_eq_ok.mp h
  rw [World.clock_eq_some, ← hk]
  exact hd

/-- The balance a handler reads is that of the vault. -/
theorem vaultBalance_eq_ok {w : World} {a : AccountInfo} {t : TokenAccount}
    (h : w.token a.key = some t) (hl : t.state = .initialized) {b : UInt64} :
    vaultBalance w a = .ok b ↔ b = t.amount := by
  rw [World.token_eq_some] at h
  unfold vaultBalance World.owner World.data
  rw [h]
  simp only [SplToken.unpackAccount, hl, bind_eq_ok, rejectIf_eq_ok, ok_eq_ok]
  refine ⟨?_, ?_⟩
  · rintro ⟨-, -, x, rfl, -, -, rfl⟩
    rfl
  · rintro rfl
    exact ⟨(), fun e => e rfl, _, rfl, (), fun e => e rfl, rfl⟩

/-! ## Accrual -/

theorem accrueJuniorFee_eq_ok {p p₁ : StakePool} {sj ss f : UInt64} :
    accrueJuniorFee p sj ss f = .ok p₁ ↔ ∃ jb pv : UInt64,
      jb.toNat = p.juniorBalance.toNat +
        (Math.distributeFees sj ss p.juniorFeeMultBps f).1.toNat ∧
      p.book.value = pv.toNat ∧ jb.toNat ≤ pv.toNat ∧ p₁ = p.setJuniorBalance jb := by
  have hbal : ∀ jb, (p.setJuniorBalance jb).juniorBalance = jb :=
    fun jb => StakePool.word_setWord_self (by decide) jb
  have hval : ∀ jb, (p.setJuniorBalance jb).book.value = p.book.value := fun jb => by
    rw [StakePool.book_setJuniorBalance, Book.value_setJuniorBalance]
  unfold accrueJuniorFee
  simp only [bind_eq_ok, okOr_eq_ok, rejectIf_eq_ok, ok_eq_ok, checkedAdd_eq_some, hbal,
    StakePool.totalPoolValue_eq_some, hval, gt_iff_lt, UInt64.not_lt, UInt64.le_iff_toNat_le]
  refine ⟨?_, ?_⟩
  · rintro ⟨jb, h1, pv, h2, -, h3, rfl⟩
    exact ⟨jb, pv, h1, h2, h3, rfl⟩
  · rintro ⟨jb, pv, h1, h2, h3, rfl⟩
    exact ⟨jb, h1, pv, h2, (), h3, rfl⟩

/-- The three ways through an accrual. -/
theorem accrueFeesInner_eq_ok {p p₁ : StakePool} {b : UInt64} :
    accrueFeesInner p b = .ok p₁ ↔ ∃ v, p.totalPoolValue = some v ∧
      if v < b ∧ 0 < p.totalLpSupply then
        ∃ fees : UInt64, fees.toNat = p.totalFeesEarned.toNat + (b - v).toNat ∧
          if p.trancheEnabled = true ∧ 0 < p.juniorTotalLp then
            ∃ s, p.seniorBalance = some s ∧
              accrueJuniorFee { p with totalFeesEarned := fees } p.juniorBalance s (b - v) =
                .ok p₁
          else p₁ = { p with totalFeesEarned := fees }
      else p₁ = p := by
  unfold accrueFeesInner
  simp only [bind_eq_ok, okOr_eq_ok, gt_iff_lt]
  refine exists_congr fun v => and_congr_right fun _ => ?_
  by_cases hv : v < b ∧ 0 < p.totalLpSupply
  · rw [if_pos hv, if_pos hv]
    by_cases ht : p.trancheEnabled = true ∧ 0 < p.juniorTotalLp
    · simp only [if_pos ht, bind_eq_ok, okOr_eq_ok, checkedAdd_eq_some]
      constructor
      · rintro ⟨s, hs, f, hf, h⟩
        exact ⟨f, hf, s, hs, h⟩
      · rintro ⟨f, hf, s, hs, h⟩
        exact ⟨s, hs, f, hf, h⟩
    · simp only [if_neg ht, bind_eq_ok, okOr_eq_ok, checkedAdd_eq_some, ok_eq_ok]
      exact exists_congr fun f => and_congr_right fun _ => eq_comm
  · rw [if_neg hv, if_neg hv, ok_eq_ok]
    exact eq_comm

/-- Accrual of fees, or nothing to accrue. -/
def Accrual {K : Type} (ms : List (Move K)) : Prop := ms = [] ∨ ∃ f j, ms = [.accrue f j]

/-- Whatever is counted that an accrual has nothing of. -/
theorem Accrual.sum_eq_zero {K M : Type} [AddMonoid M] {ms : List (Move K)} {count : Move K → M}
    (h : Accrual ms) (hcount : ∀ f j, count (.accrue f j) = 0) : (ms.map count).sum = 0 := by
  rcases h with rfl | ⟨f, j, rfl⟩
  · rfl
  · rw [List.map_singleton, List.sum_singleton, hcount]

section

variable {K : Type} [DecidableEq K] {l l₁ l₂ : Ledger K} {f j f' j' : Nat}

/-- An accrual leaves nothing to accrue. -/
theorem Ledger.Step.accrued (hm : Ledger.Step l (.accrue f j) l₁) : l₁.Accrued := by
  cases hm with
  | accrue hf hv hs hj =>
    refine .inr ?_
    simp only [Book.value] at hv ⊢
    omega

theorem Ledger.Step.not_accrued (hm : Ledger.Step l (.accrue f j) l₁) : ¬l.Accrued := by
  intro hacc
  cases hm with
  | accrue hf hv hs hj => rcases hacc with h0 | h0 <;> omega

/-- The surplus of the vault and its junior part are what they are. -/
theorem Ledger.Step.accrue_unique (hm : Ledger.Step l (.accrue f j) l₁)
    (hm' : Ledger.Step l (.accrue f' j') l₂) : l₁ = l₂ := by
  cases hm with
  | accrue hf hv hs hj =>
    cases hm' with
    | accrue hf' hv' hs' hj' =>
      obtain rfl : f = f' := by omega
      have hjj : j = j' := by
        split at hj
        · rw [if_pos ‹_›] at hj'
          exact hj.2.1.trans hj'.2.1.symm
        · rw [if_neg ‹_›] at hj'
          exact hj.trans hj'.symm
      rw [hjj]

variable {ms ms' : List (Move K)}

theorem Accrual.run (h : Accrual ms) (hrun : Transition.Run Ledger.Step l ms l₁) :
    l₁ = l ∨ ∃ f j, Ledger.Step l (.accrue f j) l₁ := by
  rcases h with rfl | ⟨f, j, rfl⟩
  · cases hrun
    exact .inl rfl
  · obtain ⟨l₂, hm, rfl⟩ := hrun
    exact .inr ⟨f, j, hm⟩

/-- A vault is accrued in one way. -/
theorem Accrual.unique (h : Accrual ms) (h' : Accrual ms')
    (hrun : Transition.Run Ledger.Step l ms l₁) (hrun' : Transition.Run Ledger.Step l ms' l₂)
    (h₁ : l₁.Accrued) (h₂ : l₂.Accrued) : l₁ = l₂ := by
  rcases h.run hrun with rfl | ⟨f, j, hm⟩
  · rcases h'.run hrun' with rfl | ⟨f', j', hm'⟩
    · rfl
    · exact (hm'.not_accrued h₁).elim
  · rcases h'.run hrun' with rfl | ⟨f', j', hm'⟩
    · exact (hm.not_accrued h₂).elim
    · exact hm.accrue_unique hm'

end

/-- The books after an accrual of `f`, of which `j` goes to the junior side. -/
def Book.accrued (b : Book) (f j : Nat) : Book :=
  { b with fees := b.fees + f, juniorBalance := b.juniorBalance + j }

theorem Book.accrued_zero (b : Book) (f : Nat) :
    b.accrued f 0 = { b with fees := b.fees + f } := rfl

theorem accrueJuniorFee_book {p p₁ : StakePool} {s fees f : UInt64}
    (hs : p.seniorBalance = some s) (hfees : fees.toNat = p.book.fees + f.toNat)
    (h : accrueJuniorFee { p with totalFeesEarned := fees } p.juniorBalance s f = .ok p₁) :
    p₁.charter = p.charter ∧ 0 ≤ p.book.senior ∧
      p₁.book = p.book.accrued f.toNat (p.book.juniorShare f.toNat) ∧
      (p.book.juniorBalance + p.book.juniorShare f.toNat : Int) ≤ p.book.value + f.toNat := by
  obtain ⟨jb, pv, hjb, hpv, hle, rfl⟩ := accrueJuniorFee_eq_ok.mp h
  have hsenior := StakePool.senior_of_seniorBalance hs
  have hshare : jb.toNat = p.book.juniorBalance + p.book.juniorShare f.toNat := by
    rw [Book.juniorShare, hsenior, Int.toNat_natCast]
    exact hjb.trans (congrArg _ (Math.distributeFees_junior _ _ _ _))
  rw [StakePool.book_fees, Book.value_fees, hfees] at hpv
  refine ⟨StakePool.charter_setJuniorBalance _ _, by omega, ?_, by omega⟩
  rw [StakePool.book_setJuniorBalance, StakePool.book_fees, hfees, hshare, Book.accrued]

/-- The pool after an accrual differs from the one before in the fees and the
junior balance only. -/
theorem accrueFeesInner_book {p p₁ : StakePool} {b : UInt64} (h : accrueFeesInner p b = .ok p₁) :
    p₁.charter = p.charter ∧
      ((p₁.book = p.book ∧ (p.book.supply = 0 ∨ (b.toNat : Int) ≤ p.book.value)) ∨
        ∃ f j : Nat, 0 < f ∧ 0 < p.book.supply ∧ (b.toNat : Int) = p.book.value + f ∧
          p₁.book = p.book.accrued f j ∧
          if p.book.tranches = true ∧ 0 < p.book.juniorLp then
            0 ≤ p.book.senior ∧ j = p.book.juniorShare f ∧
              (p.book.juniorBalance + j : Int) ≤ p.book.value + f
          else j = 0) := by
  obtain ⟨v, hv, h⟩ := accrueFeesInner_eq_ok.mp h
  rw [StakePool.totalPoolValue_eq_some] at hv
  by_cases hb : v < b ∧ 0 < p.totalLpSupply
  · rw [if_pos hb] at h
    obtain ⟨fees, hfees, h⟩ := h
    have hlt : v.toNat < b.toNat := UInt64.lt_iff_toNat_lt.mp hb.1
    have hdelta : (b - v).toNat = b.toNat - v.toNat :=
      UInt64.toNat_sub_of_le _ _ (UInt64.le_iff_toNat_le.mpr hlt.le)
    have hsupply : 0 < p.book.supply := pos_iff.mp hb.2
    by_cases ht : p.trancheEnabled = true ∧ 0 < p.juniorTotalLp
    · rw [if_pos ht] at h
      obtain ⟨s, hs, h⟩ := h
      obtain ⟨hcharter, hnonneg, hbook, hle⟩ := accrueJuniorFee_book hs hfees h
      refine ⟨hcharter, .inr ⟨_, _, by omega, hsupply, by omega, hbook, ?_⟩⟩
      rw [if_pos ⟨ht.1, pos_iff.mp ht.2⟩]
      exact ⟨hnonneg, rfl, hle⟩
    · rw [if_neg ht] at h
      subst h
      refine ⟨rfl, .inr ⟨(b - v).toNat, 0, by omega, hsupply, by omega, ?_, ?_⟩⟩
      · have hfees : fees.toNat = p.book.fees + (b - v).toNat := hfees
        rw [StakePool.book_fees, hfees, Book.accrued_zero]
      · rw [if_neg (fun e => ht ⟨e.1, pos_iff.mpr e.2⟩)]
  · rw [if_neg hb] at h
    subst h
    refine ⟨rfl, .inl ⟨rfl, ?_⟩⟩
    rw [not_and_or, UInt64.not_lt, UInt64.le_iff_toNat_le, pos_iff] at hb
    rcases hb with hb | hb
    · exact .inr (by omega)
    · exact .inl (Nat.eq_zero_of_not_pos hb)

theorem accrueFeesInner_tranches {p p₁ : StakePool} {b : UInt64}
    (h : accrueFeesInner p b = .ok p₁) : p₁.book.tranches = p.book.tranches := by
  obtain ⟨-, ⟨hbook, -⟩ | ⟨f, j, -, -, -, hbook, -⟩⟩ := accrueFeesInner_book h
  · rw [hbook]
  · rw [hbook]
    rfl

/-- An accrual as moves of the ledger. -/
theorem accrueFeesInner_run {p p₁ : StakePool} {b : UInt64} {f : Pubkey → Position}
    (h : accrueFeesInner p b = .ok p₁) :
    Ledger.Accrued ⟨p₁.book, b.toNat, f⟩ ∧ ∃ ms, Accrual ms ∧
      Transition.Run Ledger.Step ⟨p.book, b.toNat, f⟩ ms ⟨p₁.book, b.toNat, f⟩ := by
  obtain ⟨-, ⟨hbook, hacc⟩ | ⟨fee, j, hf, hs, hv, hbook, hj⟩⟩ := accrueFeesInner_book h
  · rw [hbook]
    exact ⟨hacc, [], .inl rfl, rfl⟩
  · rw [hbook]
    have hm : Ledger.Step ⟨p.book, b.toNat, f⟩ (.accrue fee j)
      ⟨p.book.accrued fee j, b.toNat, f⟩ := .accrue hf hv hs hj
    exact ⟨hm.accrued, [.accrue fee j], .inr ⟨_, _, rfl⟩, _, hm, rfl⟩

/-- The accrual in front of a pricing. -/
theorem Standing.preAccrue {ctx : Context} {π : Pubkey} {w : World} {p : StakePool}
    {t : TokenAccount} {m : Mint} (h : Standing ctx π w p t m) {vault : AccountInfo}
    (hvault : p.vault = vault.key) :
    preAccrueFeeModes w p vault = accrueFeesInner p t.amount := by
  have hbal : vaultBalance w vault = .ok t.amount :=
    (vaultBalance_eq_ok (hvault ▸ h.vault_eq) h.vault_live).mpr rfl
  have hmode : p.poolMode ≤ 1 := h.chartered.mode
  unfold preAccrueFeeModes
  rw [if_pos hmode, hbal]
  rfl

end PercolatorStake
