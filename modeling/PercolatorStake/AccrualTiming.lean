import PercolatorStake.PoolFrame
import PercolatorStake.HwmDrain

/-!
# When fees are accrued

The surplus of the vault is booked by `AccrueFees` and in front of every pricing.
Either way leaves everything in the vault on the books, and every operation keeps it
there.  So an `AccrueFees` before or after an operation, or a second one, finds nothing
to book and writes down only when it ran and what it saw.
-/

namespace PercolatorStake

open Result Word

/-- What `AccrueFees` writes besides the books: when it ran and the balance it saw. -/
def StakePool.stamp (p : StakePool) (slot snapshot : UInt64) : StakePool :=
  { p with lastFeeAccrualSlot := slot, lastVaultSnapshot := snapshot }

/-! ## Everything in the vault on the books -/

section

variable {p q p' : StakePool} {b v : UInt64}

theorem accrueFeesInner_idle (hv : p.totalPoolValue = some v) (hle : b ≤ v) :
    accrueFeesInner p b = .ok p := by
  apply accrueFeesInner_eq_ok.mpr
  refine ⟨v, hv, ?_⟩
  rw [if_neg]
  intro h
  exact UInt64.not_lt.mpr hle h.1

/-- With LP in circulation an accrual leaves nothing more to accrue. -/
theorem accrueFeesInner_covers (h : accrueFeesInner p b = .ok q) (hsupply : 0 < p.totalLpSupply) :
    ∃ v, q.totalPoolValue = some v ∧ b ≤ v := by
  obtain ⟨v, hv, -⟩ := accrueFeesInner_eq_ok.mp h
  obtain ⟨-, ⟨hbook, hall⟩ | ⟨f, j, -, -, hvalue, hbook, -⟩⟩ := accrueFeesInner_book h
  · refine ⟨v, ?_, ?_⟩
    · rw [StakePool.totalPoolValue_eq_some] at hv ⊢
      rw [hbook]
      exact hv
    · have hsupply : 0 < p.book.supply := pos_iff.mp hsupply
      rw [StakePool.totalPoolValue_eq_some] at hv
      rw [UInt64.le_iff_toNat_le]
      omega
  · refine ⟨b, ?_, UInt64.le_refl b⟩
    rw [StakePool.totalPoolValue_eq_some, hbook]
    simp only [Book.accrued, Book.value] at hvalue ⊢
    omega

theorem accrueFeesInner_principal (h : accrueFeesInner p b = .ok q) :
    q.principalTvl = p.principalTvl := by
  have hread : ∀ x : StakePool, x.principalTvl = some (UInt64.ofNat (max 0 (min
      ((x.book.deposited : Int) - x.book.withdrawn - x.book.flushed + x.book.returned -
        x.book.realized) (2 ^ 64 - 1))).toNat) := by
    intro x
    rfl
  obtain ⟨-, ⟨hbook, -⟩ | ⟨f, j, -, -, -, hbook, -⟩⟩ := accrueFeesInner_book h
  · rw [hread, hread, hbook]
  · rw [hread, hread, hbook]
    rfl

/-! ## The stages do not see the stamp -/

variable {junior : Bool} {amount lp slot snapshot : UInt64} {c : Clock}

theorem depositGate_stamp {u : Unit} (h : depositGate junior p = .ok u) :
    depositGate junior (p.stamp slot snapshot) = .ok u := by
  cases junior with
  | false => exact h
  | true => exact h

theorem depositPrice_stamp (h : depositPrice junior p amount = .ok lp) :
    depositPrice junior (p.stamp slot snapshot) amount = .ok lp := by
  cases junior with
  | false => exact h
  | true => exact h

theorem bookDeposit_stamp (h : bookDeposit p amount lp = .ok p') :
    bookDeposit (p.stamp slot snapshot) amount lp = .ok (p'.stamp slot snapshot) := by
  obtain ⟨d, s, hd, hs, rfl⟩ := bookDeposit_eq_ok.mp h
  exact bookDeposit_eq_ok.mpr ⟨d, s, hd, hs, rfl⟩

theorem depositBook_stamp (h : depositBook junior p amount lp = .ok p') :
    depositBook junior (p.stamp slot snapshot) amount lp = .ok (p'.stamp slot snapshot) := by
  cases junior with
  | false => exact bookDeposit_stamp h
  | true =>
    change bookDepositJunior p amount lp = .ok p' at h
    change bookDepositJunior (p.stamp slot snapshot) amount lp = _
    unfold bookDepositJunior at h ⊢
    simp only [bind_eq_ok, okOr_eq_ok, ok_eq_ok] at h ⊢
    obtain ⟨p₁, hp₁, jl, hjl, jb, hjb, rfl⟩ := h
    exact ⟨p₁.stamp slot snapshot, bookDeposit_stamp hp₁, jl, hjl, jb, hjb, rfl⟩

theorem refreshHwm_stamp (p : StakePool) (slot snapshot epoch tvl : UInt64) :
    (p.stamp slot snapshot).refreshHwm epoch tvl =
      ((p.refreshHwm epoch tvl).1.stamp slot snapshot, (p.refreshHwm epoch tvl).2) := by
  unfold StakePool.refreshHwm
  have hepoch : (p.stamp slot snapshot).hwmLastEpoch = p.hwmLastEpoch := rfl
  have hmark : (p.stamp slot snapshot).epochHighWaterTvl = p.epochHighWaterTvl := rfl
  rw [hepoch, hmark]
  by_cases hnew : epoch ≠ p.hwmLastEpoch
  · simp only [if_pos hnew]
    rfl
  · simp only [if_neg hnew]
    by_cases hrise : tvl > p.epochHighWaterTvl
    · simp only [if_pos hrise]
      rfl
    · simp only [if_neg hrise]
      rfl

theorem refreshHwmAfterDeposit_stamp (h : refreshHwmAfterDeposit p c = .ok p') :
    refreshHwmAfterDeposit (p.stamp slot snapshot) c = .ok (p'.stamp slot snapshot) := by
  unfold refreshHwmAfterDeposit at h ⊢
  have henabled : (p.stamp slot snapshot).hwmEnabled = p.hwmEnabled := rfl
  rw [henabled]
  by_cases hon : p.hwmEnabled = true
  · simp only [if_pos hon, bind_eq_ok, ok_eq_ok] at h ⊢
    obtain ⟨tvl, htvl, rfl⟩ := h
    refine ⟨tvl, htvl, ?_⟩
    rw [refreshHwm_stamp]
  · simp only [if_neg hon, ok_eq_ok] at h ⊢
    rw [h]

theorem enforceHwmFloor_stamp (h : enforceHwmFloor p c amount = .ok p') :
    enforceHwmFloor (p.stamp slot snapshot) c amount = .ok (p'.stamp slot snapshot) := by
  unfold enforceHwmFloor at h ⊢
  simp only [bind_eq_ok, refreshHwm_stamp, ok_eq_ok] at h ⊢
  obtain ⟨tvl, htvl, post, hpost, u, hu, rfl⟩ := h
  exact ⟨tvl, htvl, post, hpost, u, hu, rfl⟩

theorem settleForfeitedLoss_stamp (h : settleForfeitedLoss p = .ok p') :
    settleForfeitedLoss (p.stamp slot snapshot) = .ok (p'.stamp slot snapshot) := by
  have hflushed : (p.stamp slot snapshot).totalFlushed = p.totalFlushed := rfl
  have hreturned : (p.stamp slot snapshot).totalReturned = p.totalReturned := rfl
  have hbalance : (p.stamp slot snapshot).juniorBalance = p.juniorBalance := rfl
  have heffective : (p.stamp slot snapshot).effectiveJuniorBalance = p.effectiveJuniorBalance :=
    rfl
  unfold settleForfeitedLoss at h ⊢
  rw [hflushed, hreturned, hbalance, heffective]
  by_cases hloss : saturatingSub p.totalFlushed p.totalReturned > 0
  · simp only [if_pos hloss] at h ⊢
    by_cases hforfeited : lesser (saturatingSub p.juniorBalance p.effectiveJuniorBalance)
        (saturatingSub p.totalFlushed p.totalReturned) > 0
    · simp only [if_pos hforfeited, bind_eq_ok, ok_eq_ok] at h ⊢
      obtain ⟨returned, hr, realized, hz, rfl⟩ := h
      exact ⟨returned, hr, realized, hz, rfl⟩
    · simp only [if_neg hforfeited, ok_eq_ok] at h ⊢
      rw [h]
  · simp only [if_neg hloss, ok_eq_ok] at h ⊢
    rw [h]

theorem bookJuniorWithdraw_stamp (h : bookJuniorWithdraw p lp amount = .ok p') :
    bookJuniorWithdraw (p.stamp slot snapshot) lp amount = .ok (p'.stamp slot snapshot) := by
  have hset : ∀ x, (p.stamp slot snapshot).setJuniorTotalLp x =
      (p.setJuniorTotalLp x).stamp slot snapshot := by
    intro x
    rfl
  unfold bookJuniorWithdraw at h ⊢
  simp only [bind_eq_ok, hset] at h ⊢
  obtain ⟨jl, hjl, h⟩ := h
  refine ⟨jl, hjl, ?_⟩
  by_cases hlast : jl = 0
  · simp only [if_pos hlast, bind_eq_ok, ok_eq_ok] at h ⊢
    obtain ⟨p₁, hp₁, rfl⟩ := h
    exact ⟨p₁.stamp slot snapshot, settleForfeitedLoss_stamp hp₁, rfl⟩
  · simp only [if_neg hlast, bind_eq_ok, ok_eq_ok] at h ⊢
    obtain ⟨jb, hjb, rfl⟩ := h
    exact ⟨jb, hjb, rfl⟩

theorem bookWithdraw_stamp (h : bookWithdraw p junior lp amount = .ok p') :
    bookWithdraw (p.stamp slot snapshot) junior lp amount = .ok (p'.stamp slot snapshot) := by
  have hif : ∀ x : StakePool, (if x.trancheEnabled = true ∧ junior = true then
      bookJuniorWithdraw x lp amount else .ok x) = .ok p' →
      (if (x.stamp slot snapshot).trancheEnabled = true ∧ junior = true then
        bookJuniorWithdraw (x.stamp slot snapshot) lp amount
      else .ok (x.stamp slot snapshot)) = .ok (p'.stamp slot snapshot) := by
    intro x hx
    have htranche : (x.stamp slot snapshot).trancheEnabled = x.trancheEnabled := rfl
    rw [htranche]
    by_cases hj : x.trancheEnabled = true ∧ junior = true
    · rw [if_pos hj] at hx ⊢
      exact bookJuniorWithdraw_stamp hx
    · rw [if_neg hj, ok_eq_ok] at hx ⊢
      rw [hx]
  unfold bookWithdraw at h ⊢
  simp only [bind_eq_ok] at h ⊢
  obtain ⟨withdrawn, hw, supply, hs, h⟩ := h
  refine ⟨withdrawn, hw, supply, hs, ?_⟩
  generalize hx : ({ { p with totalWithdrawn := withdrawn } with
    totalLpSupply := supply } : StakePool) = x at h
  have hstamp : ({ { p.stamp slot snapshot with totalWithdrawn := withdrawn } with
      totalLpSupply := supply } : StakePool) = x.stamp slot snapshot := by
    rw [← hx]
    rfl
  rw [hstamp]
  exact hif x h

end

/-! ## AccrueFees at a standing pool -/

/-- The accounts of an `AccrueFees` on the pool at `π`, whose vault is `vault`. -/
structure Context.AccruesAt (ctx : Context) (π vault : Pubkey) (accounts : List AccountInfo) :
    Prop where
  named : ∃ a, AccrueAccounts.next accounts = .ok a ∧ a.pool.key = π ∧
    a.pool.isWritable = true ∧ a.vault.key = vault ∧ a.clock.key = clockSysvarId
  unsigned : ∀ a ∈ accounts, a.isSigner = true → a.key ≠ ctx.vaultAuthority π

section

variable {ctx : Context} {π : Pubkey} {w w' : World} {p q : StakePool} {t : TokenAccount}
  {m : Mint} {accounts accrual : List AccountInfo} {junior : Bool} {amount lp : UInt64}
  {c : Clock}

theorem Standing.accrues (h : Standing ctx π w p t m) (ha : ctx.AccruesAt π p.vault accrual)
    (hc : w.clock = some c) (hq : accrueFeesInner p t.amount = .ok q) :
    ctx.Step π w (.instruction .accrueFees accrual)
      (ctx.withPool π (q.stamp c.slot t.amount) w) := by
  obtain ⟨a, hnext, hk, hwritable, hvault, hclock⟩ := ha.named
  obtain ⟨howner, hdata, hread⟩ := h.readPool_eq hk
  have hbalance : vaultBalance w a.vault = .ok t.amount :=
    (vaultBalance_eq_ok (hvault ▸ h.vault_eq) h.vault_live).mpr rfl
  have hpda : (ctx.derivation.derivePoolPda ctx.programId p.slab).1 = π :=
    congrArg Prod.fst h.chartered.pool_eq
  have hmode : ¬p.poolMode > 1 := UInt8.not_lt.mpr h.chartered.mode
  have hslot : readClock w a.clock = .ok c := by
    rw [readClock_eq_ok, World.data, hclock, ← World.clock_eq_some]
    exact ⟨rfl, hc⟩
  refine ⟨⟨a.pool, AccrueAccounts.next_eq_ok hnext, hk⟩, ha.unsigned, ?_⟩
  show processAccrueFees ctx w accrual = _
  unfold processAccrueFees validateAccountNotEmpty validateAccountOwner validateAccountWritable
  simp only [bind_eq_ok, rejectIf_eq_ok, not_not, Bool.not_eq_false]
  refine ⟨a, hnext, (), ?_, (), howner, (), hwritable, p, hread, (), ?_, (), hmode, (), hvault,
    t.amount, hbalance, c, hslot, q, hq, ?_⟩
  · rw [hdata]
    intro hempty
    cases hempty
  · rw [hk, hpda]
  · exact (store_pool_eq_ok hk h.pool_eq).mpr ⟨hwritable, rfl⟩

/-- The pool in the world after it has been accrued, with a stamp, still stands. -/
theorem Standing.stamped (h : Standing ctx π w p t m) (hq : accrueFeesInner p t.amount = .ok q)
    (slot snapshot : UInt64) :
    Standing ctx π (ctx.withPool π (q.stamp slot snapshot) w) (q.stamp slot snapshot) t m :=
  h.setPool (accrueFeesInner_book hq).1

/-- A deposit does the same after an accrual, and keeps its stamp. -/
theorem DepositRun.after_accrual (r : DepositRun ctx w accounts junior amount w')
    (h : Standing ctx π w p t m)
    (hpool : ∃ a, accounts[1]? = some a ∧ a.key = π) (hsupply : 0 < p.totalLpSupply)
    (slot snapshot : UInt64) :
    Nonempty (DepositRun ctx (ctx.withPool π (r.accrued.stamp slot snapshot) w) accounts junior
      amount (ctx.withPool π (r.final.stamp slot snapshot) w')) := by
  obtain ⟨hπ, hp, hacc⟩ := r.standing_eq h hpool
  have hst := h.stamped hacc slot snapshot
  obtain ⟨howner, hdata, hread⟩ := hst.readPool_eq hπ
  have hcharter : (r.accrued.stamp slot snapshot).charter = p.charter :=
    (accrueFeesInner_book hacc).1
  have hsettings : (r.accrued.stamp slot snapshot).settings = p.settings :=
    (accrueFeesInner_settings hacc).1
  have hprincipal : (r.accrued.stamp slot snapshot).principalTvl = p.principalTvl :=
    (accrueFeesInner_principal hacc : r.accrued.principalTvl = p.principalTvl)
  have hpaid := (collectDeposit_changes r.collect_eq).pool_eq ctx.programId π
  have hvault : (r.accrued.stamp slot snapshot).vault = r.a.vault.key := by
    rw [vault_of_charter hcharter, hp]
    exact (validateDeposit_eq_ok r.valid).2.1
  obtain ⟨v, hv, hle⟩ := accrueFeesInner_covers hacc hsupply
  refine ⟨{ r with
    pool := r.accrued.stamp slot snapshot
    accrued := r.accrued.stamp slot snapshot
    paid := ctx.withPool π (r.accrued.stamp slot snapshot) r.paid
    booked := r.booked.stamp slot snapshot
    final := r.final.stamp slot snapshot
    recorded := ctx.withPool π (r.accrued.stamp slot snapshot) r.recorded
    not_empty := ?_
    owner_eq := howner
    read_eq := hread
    tranches := ?_
    valid := ?_
    accrue_eq := ?_
    gate := depositGate_stamp r.gate
    price_eq := depositPrice_stamp r.price_eq
    collect_eq := collectDeposit_withPool h.pool_eq r.collect_eq
    book_eq := depositBook_stamp r.book_eq
    clock_eq := ?_
    refresh_eq := refreshHwmAfterDeposit_stamp r.refresh_eq
    record_eq := ?_
    store_eq := store_withPool hπ r.store_eq }⟩
  · unfold validateAccountNotEmpty
    rw [rejectIf_eq_ok, hdata]
    intro hempty
    cases hempty
  · intro hjunior
    have htranches : r.accrued.trancheEnabled = p.trancheEnabled := accrueFeesInner_tranches hacc
    exact htranches.trans (hp ▸ r.tranches hjunior)
  · rw [validateDeposit_withPool h.pool_eq hcharter hsettings hprincipal, hp]
    exact r.valid
  · rw [hst.preAccrue hvault]
    exact accrueFeesInner_idle hv hle
  · rw [readClock_withPool (hpaid.trans h.pool_eq)]
    exact r.clock_eq
  · cases junior with
    | false => exact recordDeposit_withPool (hpaid.trans h.pool_eq) r.record_eq
    | true => exact recordDepositJunior_withPool (hpaid.trans h.pool_eq) r.record_eq

/-- A withdrawal does the same after an accrual, and keeps its stamp. -/
theorem WithdrawRun.after_accrual (r : WithdrawRun ctx w accounts lp w')
    (h : Standing ctx π w p t m) (hpool : ∃ a, accounts[1]? = some a ∧ a.key = π)
    (hsupply : 0 < p.totalLpSupply) (slot snapshot : UInt64) :
    Nonempty (WithdrawRun ctx (ctx.withPool π (r.accrued.stamp slot snapshot) w) accounts lp
      (ctx.withPool π (r.final.stamp slot snapshot) w')) := by
  obtain ⟨hπ, hp, hacc⟩ := r.standing_eq h hpool
  have hst := h.stamped hacc slot snapshot
  obtain ⟨howner, hdata, hread⟩ := hst.readPool_eq hπ
  have hcharter : (r.accrued.stamp slot snapshot).charter = p.charter :=
    (accrueFeesInner_book hacc).1
  have hsettings : (r.accrued.stamp slot snapshot).settings = p.settings :=
    (accrueFeesInner_settings hacc).1
  have hpaid := (payOut_changes r.pay_eq).pool_eq ctx.programId π
  have hvault : (r.accrued.stamp slot snapshot).vault = r.a.vault.key := by
    rw [vault_of_charter hcharter, hp]
    exact (validateWithdraw_eq_ok r.valid).2.1
  obtain ⟨v, hv, hle⟩ := accrueFeesInner_covers hacc hsupply
  -- the record is not at the address of the pool
  have hne : r.a.depositPda.key ≠ π := by
    intro hk
    have hrec := r.record_eq.2
    rw [hk, World.pool_eq_some.mp h.pool_eq] at hrec
    have hdata := congrArg Account.data hrec
    cases hdata
  refine ⟨{ r with
    pool := r.accrued.stamp slot snapshot
    accrued := r.accrued.stamp slot snapshot
    floored := r.floored.stamp slot snapshot
    paid := ctx.withPool π (r.accrued.stamp slot snapshot) r.paid
    final := r.final.stamp slot snapshot
    recorded := ctx.withPool π (r.accrued.stamp slot snapshot) r.recorded
    not_empty := ?_
    owner_eq := howner
    read_eq := hread
    valid := ?_
    clock_eq := ?_
    check_eq := ?_
    accrue_eq := ?_
    floor_eq := ?_
    pay_eq := payOut_withPool h.pool_eq rfl r.pay_eq
    book_eq := bookWithdraw_stamp r.book_eq
    reread_eq := ?_
    store_record := ?_
    store_eq := store_withPool hπ r.store_eq }⟩
  · unfold validateAccountNotEmpty
    rw [rejectIf_eq_ok, hdata]
    intro hempty
    cases hempty
  · rw [validateWithdraw_withPool h.pool_eq hcharter, hp]
    exact r.valid
  · rw [readClock_withPool h.pool_eq]
    exact r.clock_eq
  · rw [checkRecord_withPool h.pool_eq hsettings, hp]
    exact r.check_eq
  · rw [hst.preAccrue hvault]
    exact accrueFeesInner_idle hv hle
  · have hfloor := r.floor_eq
    by_cases hon : r.accrued.hwmEnabled = true ∧
        fullyWipedJuniorExit r.accrued r.deposit.isJuniorDeposit r.amount = false
    · rw [if_pos hon] at hfloor
      exact (if_pos hon).trans (enforceHwmFloor_stamp hfloor)
    · rw [if_neg hon, ok_eq_ok] at hfloor
      rw [← hfloor]
      exact if_neg hon
  · rw [World.data, account_withPool hne]
    exact r.reread_eq
  · obtain ⟨hwritable, hw⟩ := World.store_eq_ok.mp r.store_record
    refine World.store_eq_ok.mpr ⟨hwritable, ?_⟩
    rw [hw, withPool_set hne, account_withPool hne]

/-! ## After an operation -/

theorem clock_set {k : Pubkey} {x : Account} (hc : w.clock = some c)
    (hk : (w.account k).data ≠ .clock c) : (w.set k x).clock = some c := by
  rw [World.clock_eq_some] at hc ⊢
  rw [World.account_set_of_ne]
  · exact hc
  · intro h
    exact hk (h ▸ hc)

theorem clock_withPool (hc : w.clock = some c) (hp : w.pool ctx.programId π = some p) :
    (ctx.withPool π q w).clock = some c := by
  apply clock_set hc
  rw [World.pool_eq_some.mp hp]
  intro h
  cases h

theorem DepositRun.clock_final (r : DepositRun ctx w accounts junior amount w')
    (h : Standing ctx π w p t m) (hpool : ∃ a, accounts[1]? = some a ∧ a.key = π) :
    w.clock = some r.clock ∧ w'.clock = some r.clock := by
  obtain ⟨hπ, -, -⟩ := r.standing_eq h hpool
  have hpaid := collectDeposit_changes r.collect_eq
  have hclock := clock_of_read r.clock_eq
  obtain ⟨d, -, -, hacc, ⟨l, hrecorded⟩, -⟩ := r.credited.writes
  have hp : r.recorded.pool ctx.programId π = some p := by
    rw [hrecorded, pool_setRecord (w := r.paid.withLamports l) hacc, World.pool_withLamports,
      hpaid.pool_eq]
    exact h.pool_eq
  obtain ⟨-, hw'⟩ := (store_pool_eq_ok hπ hp).mp r.store_eq
  refine ⟨hpaid.clock_eq.symm.trans hclock, ?_⟩
  have hkept : r.recorded.clock = some r.clock := by
    rw [hrecorded]
    apply clock_set hclock
    intro hdata
    rcases hacc with ⟨d₀, hd₀⟩ | hempty
    · rw [hd₀] at hdata
      cases hdata
    · rw [hempty] at hdata
      cases hdata
  exact (congrArg World.clock hw').trans (clock_withPool hkept hp)

theorem WithdrawRun.clock_final (r : WithdrawRun ctx w accounts lp w')
    (h : Standing ctx π w p t m) (hpool : ∃ a, accounts[1]? = some a ∧ a.key = π) :
    w.clock = some r.clock ∧ w'.clock = some r.clock := by
  have hclock := clock_of_read r.clock_eq
  obtain ⟨-, -, -, -, -, -, -, hw', hpaid, -⟩ := r.settled h hpool
  obtain ⟨hπ, -, -⟩ := r.standing_eq h hpool
  obtain ⟨hpda, hrec⟩ := r.record_eq
  rw [hpda, hπ] at hrec
  have hrec₁ : r.paid.account (ctx.depositPda π r.a.user.key) =
      ⟨ctx.programId, .deposit r.deposit⟩ :=
    (hpaid.account_iff (fun _ e => by cases e) (fun _ e => by cases e)).mpr hrec
  refine ⟨hclock, (congrArg World.clock hw').trans ?_⟩
  refine clock_withPool (p := p) (clock_set (hpaid.clock_eq.trans hclock) ?_) ?_
  · rw [hrec₁]
    intro hdata
    cases hdata
  · rw [pool_setRecord (.inl ⟨_, hrec₁⟩), hpaid.pool_eq]
    exact h.pool_eq

theorem DepositRun.value_final (r : DepositRun ctx w accounts junior amount w') :
    r.final.book.value = r.accrued.book.value + amount.toNat := by
  rw [r.charter_final.2, r.book_booked.2]
  cases junior with
  | false =>
    simp only [Book.deposit, Book.value]
    omega
  | true =>
    simp only [Book.deposit, Book.value]
    omega

/-- The vault holds nothing above the value of the pool, so there is nothing to accrue. -/
theorem Valid.idle {X : Nat} (h : Valid ctx π X w p t m)
    (hle : (t.amount.toNat : Int) ≤ p.book.value) : accrueFeesInner p t.amount = .ok p := by
  obtain ⟨v, hv, hvalue⟩ :=
    StakePool.totalPoolValue_isSome (p := p) h.sound.value_nonneg h.value_lt
  apply accrueFeesInner_idle hv
  rw [UInt64.le_iff_toNat_le]
  omega

theorem accrued_covers (h : accrueFeesInner p t.amount = .ok q) (hsupply : 0 < p.totalLpSupply) :
    (t.amount.toNat : Int) ≤ q.book.value := by
  obtain ⟨v, hv, hle⟩ := accrueFeesInner_covers h hsupply
  rw [StakePool.totalPoolValue_eq_some.mp hv]
  exact Int.ofNat_le.mpr (UInt64.le_iff_toNat_le.mp hle)

/-! ## Any operation -/

/-- The operations that are priced. -/
def StakeInstruction.trades : StakeInstruction → Bool
  | .deposit _ | .depositJunior _ | .withdraw _ => true
  | _ => false

/-- What a priced operation leaves: nothing to accrue, and the same pool, but for the
stamp, when the accrual ran before it. -/
structure Settles (ctx : Context) (π : Pubkey) (w : World) (q : StakePool) (e : Event)
    (w' : World) (p' : StakePool) (t' : TokenAccount) (m' : Mint) : Prop where
  standing : Standing ctx π w' p' t' m'
  vault_eq : p'.vault = q.vault
  idle : accrueFeesInner p' t'.amount = .ok p'
  clock_eq : ∃ c, w.clock = some c ∧ w'.clock = some c
  after : ∀ slot snapshot, ctx.Step π (ctx.withPool π (q.stamp slot snapshot) w) e
    (ctx.withPool π (p'.stamp slot snapshot) w')

variable {ix : StakeInstruction} {X : Nat} {es : List Event}

theorem DepositRun.settles (r : DepositRun ctx w accounts junior amount w')
    (h : Standing ctx π w p t m) (hsupply : 0 < p.totalLpSupply)
    (hpool : ∃ a, ix.poolAccount accounts = some a ∧ a.key = π)
    (hfirst : ix.poolAccount accounts = accounts[1]?)
    (hsign : ∀ a ∈ accounts, a.isSigner = true → a.key ≠ ctx.vaultAuthority π)
    (hprocess : ∀ {u u'}, Nonempty (DepositRun ctx u accounts junior amount u') →
      process ctx u accounts ix = .ok u')
    (hvalid : ∃ X p' t' m', Valid ctx π X w' p' t' m') :
    ∃ t' m', Settles ctx π w r.accrued (.instruction ix accounts) w' r.final t' m' := by
  obtain ⟨X, p', t', m', hvalid⟩ := hvalid
  have hpool₁ := hfirst ▸ hpool
  obtain ⟨v, s, hv, -, hst, -⟩ := r.settled h hpool₁ hsign
  obtain rfl : p' = r.final := Option.some_inj.mp (hvalid.standing.pool_eq.symm.trans hst.pool_eq)
  obtain rfl : t' = { t with amount := v } :=
    Option.some_inj.mp (hvalid.standing.vault_eq.symm.trans hst.vault_eq)
  obtain ⟨-, -, hacc⟩ := r.standing_eq h hpool₁
  have hcovers := accrued_covers hacc hsupply
  refine ⟨_, m', hvalid.standing, vault_of_charter r.charter_final.1, hvalid.idle ?_,
    ⟨r.clock, r.clock_final h hpool₁⟩, ?_⟩
  · rw [r.value_final]
    show (v.toNat : Int) ≤ _
    omega
  · intro slot snapshot
    exact ⟨hpool, hsign, hprocess (r.after_accrual h hpool₁ hsupply slot snapshot)⟩

theorem Valid.settles (hvalid : Valid ctx π X w p t m)
    (hsupply : 0 < p.totalLpSupply) (htrades : ix.trades = true)
    (hs : ctx.Step π w (.instruction ix accounts) w') :
    ∃ q p' t' m', accrueFeesInner p t.amount = .ok q ∧
      Settles ctx π w q (.instruction ix accounts) w' p' t' m' := by
  obtain ⟨p₁, t₁, m₁, -, hvalid₁, -, -⟩ := hvalid.step hs
  have h := hvalid.standing
  obtain ⟨hpool, hsign, hd⟩ := hs
  cases ix with
  | deposit amount =>
    obtain ⟨r⟩ := processDeposit_eq_ok.mp hd
    obtain ⟨-, -, hacc⟩ := r.standing_eq h hpool
    obtain ⟨t', m', hsettles⟩ := r.settles h hsupply hpool rfl hsign
      processDeposit_eq_ok.mpr ⟨_, p₁, t₁, m₁, hvalid₁⟩
    exact ⟨r.accrued, r.final, t', m', hacc, hsettles⟩
  | depositJunior amount =>
    obtain ⟨r⟩ := processDepositJunior_eq_ok.mp hd
    obtain ⟨-, -, hacc⟩ := r.standing_eq h hpool
    obtain ⟨t', m', hsettles⟩ := r.settles h hsupply hpool rfl hsign
      processDepositJunior_eq_ok.mpr ⟨_, p₁, t₁, m₁, hvalid₁⟩
    exact ⟨r.accrued, r.final, t', m', hacc, hsettles⟩
  | withdraw lp =>
    obtain ⟨r⟩ := processWithdraw_eq_ok.mp hd
    obtain ⟨-, -, hacc⟩ := r.standing_eq h hpool
    obtain ⟨v, s, hv, -, hst, -⟩ := r.settled h hpool
    obtain rfl : p₁ = r.final :=
      Option.some_inj.mp (hvalid₁.standing.pool_eq.symm.trans hst.pool_eq)
    obtain rfl : t₁ = { t with amount := v } :=
      Option.some_inj.mp (hvalid₁.standing.vault_eq.symm.trans hst.vault_eq)
    have hcovers := accrued_covers hacc hsupply
    refine ⟨r.accrued, r.final, _, m₁, hacc, hvalid₁.standing, vault_of_charter r.charter_final,
      hvalid₁.idle ?_, ⟨r.clock, r.clock_final h hpool⟩, ?_⟩
    · rw [r.value_final.1]
      show (v.toNat : Int) ≤ _
      omega
    · intro slot snapshot
      exact ⟨hpool, hsign,
        processWithdraw_eq_ok.mpr (r.after_accrual h hpool hsupply slot snapshot)⟩
  | _ => cases htrades

/-! ## Timing -/

/-- `u` is `w`, except that an accrual of the pool at `π` may have run at another slot and
seen another balance. -/
def Context.Restamped (ctx : Context) (π : Pubkey) (w u : World) : Prop :=
  ∃ p slot snapshot, w.pool ctx.programId π = some p ∧
    u = ctx.withPool π (p.stamp slot snapshot) w

/-- An accrual books the surplus of the vault and nothing else, a part of it to the junior
tranche if it has LP. -/
theorem accrueFeesInner_books {q : StakePool} {b : UInt64} (h : accrueFeesInner p b = .ok q)
    (hsupply : 0 < p.totalLpSupply) : ∃ v, p.totalPoolValue = some v ∧
      q.book = p.book.accrued (b.toNat - v.toNat)
        (if p.book.tranches = true ∧ 0 < p.book.juniorLp then
          p.book.juniorShare (b.toNat - v.toNat) else 0) := by
  obtain ⟨v, hv, -⟩ := accrueFeesInner_eq_ok.mp h
  have hval := StakePool.totalPoolValue_eq_some.mp hv
  refine ⟨v, hv, ?_⟩
  obtain ⟨-, ⟨hbook, hall⟩ | ⟨f, j, -, -, hb, hbook, hj⟩⟩ := accrueFeesInner_book h
  · have hzero : b.toNat - v.toNat = 0 := by
      have hpos : 0 < p.book.supply := pos_iff.mp hsupply
      omega
    have hshare : p.book.juniorShare 0 = 0 := by
      rw [Book.juniorShare, Nat.zero_mul, Nat.zero_div]
    rw [hbook, hzero, hshare, ite_self, Book.accrued_zero]
    cases p.book
    rfl
  · have hf : b.toNat - v.toNat = f := by omega
    rw [hbook, hf]
    split at hj
    · rename_i hjunior
      rw [if_pos hjunior, hj.2.1]
    · rename_i hjunior
      rw [if_neg hjunior, hj]

theorem Standing.accrueFees_eq (h : Standing ctx π w p t m)
    (hs : ctx.Step π w (.instruction .accrueFees accrual) w') :
    ∃ q c, accrueFeesInner p t.amount = .ok q ∧ w.clock = some c ∧
      w' = ctx.withPool π (q.stamp c.slot t.amount) w := by
  obtain ⟨hpool, -, hd⟩ := hs
  obtain ⟨a, p', q', ha, hp', ⟨vault, b, c, q, hvault, hbalance, hclock, hacc, rfl⟩, rfl⟩ :=
    processAccrueFees_configured hd
  obtain ⟨hk, rfl⟩ := h.pool_read hpool ha hp'
  have htoken := h.vault_eq
  rw [← hvault] at htoken
  obtain rfl := (vaultBalance_eq_ok htoken h.vault_live).mp hbalance
  rw [hk]
  exact ⟨q, c, hacc, hclock, rfl⟩

/-- From any reachable state with LP: an operation that succeeds alone succeeds after an
`AccrueFees`, and an `AccrueFees` succeeds after it, and the worlds they end in differ
only in the stamp of the pool.  An `AccrueFees` books the surplus of the vault.  A second
one changes nothing, and if time has passed since the first, the stamp. -/
theorem accrual_timing (h : ctx.Reached π es w)
    (hp : w.pool ctx.programId π = some p) (hsupply : 0 < p.totalLpSupply)
    (haccrual : ctx.AccruesAt π p.vault accrual) :
    (∀ ix accounts w', ix.trades = true → ctx.Step π w (.instruction ix accounts) w' →
      ∃ w₁ w₂,
        Transition.Run (ctx.Step π) w
          [.instruction .accrueFees accrual, .instruction ix accounts] w₁ ∧
        Transition.Run (ctx.Step π) w
          [.instruction ix accounts, .instruction .accrueFees accrual] w₂ ∧
        ctx.Restamped π w' w₁ ∧ ctx.Restamped π w' w₂) ∧
    ∀ w₁, ctx.Step π w (.instruction .accrueFees accrual) w₁ →
      (∃ t v c, ∃ q : StakePool, w.token p.vault = some t ∧ p.totalPoolValue = some v ∧
      w.clock = some c ∧
        w₁ = ctx.withPool π (q.stamp c.slot t.amount) w ∧
        q.book = p.book.accrued (t.amount.toNat - v.toNat)
          (if p.book.tranches = true ∧ 0 < p.book.juniorLp then
            p.book.juniorShare (t.amount.toNat - v.toNat) else 0)) ∧
      ctx.Step π w₁ (.instruction .accrueFees accrual) w₁ ∧
      ∀ w₂ c, ctx.Step π w₁ (.outside 0) w₂ → w₂.clock = some c →
        ∃ w₃, ctx.Step π w₂ (.instruction .accrueFees accrual) w₃ ∧ ctx.Restamped π w₂ w₃ := by
  obtain ⟨p', t, m, hvalid⟩ := h.stands
  have hst := hvalid.standing
  obtain rfl : p = p' := Option.some_inj.mp (hp.symm.trans hst.pool_eq)
  refine ⟨?_, ?_⟩
  · intro ix accounts w' htrades hs
    obtain ⟨q, p', t', m', hacc, hsettles⟩ := hvalid.settles hsupply htrades hs
    obtain ⟨c, hc, hc'⟩ := hsettles.clock_eq
    have hvault : p'.vault = p.vault :=
      hsettles.vault_eq.trans (vault_of_charter (accrueFeesInner_book hacc).1)
    refine ⟨_, _, ⟨_, hst.accrues haccrual hc hacc, _, hsettles.after _ _, rfl⟩,
      ⟨_, hs, _, hsettles.standing.accrues (hvault ▸ haccrual) hc' hsettles.idle, rfl⟩, ?_, ?_⟩
    · exact ⟨p', _, _, hsettles.standing.pool_eq, rfl⟩
    · exact ⟨p', _, _, hsettles.standing.pool_eq, rfl⟩
  · intro w₁ hs
    obtain ⟨q, c, hacc, hc, rfl⟩ := hst.accrueFees_eq hs
    have hst₁ := hst.stamped hacc c.slot t.amount
    have hvault : (q.stamp c.slot t.amount).vault = p.vault :=
      vault_of_charter (accrueFeesInner_book hacc).1
    obtain ⟨v, hv, hle⟩ := accrueFeesInner_covers hacc hsupply
    have hidle : accrueFeesInner (q.stamp c.slot t.amount) t.amount =
        .ok (q.stamp c.slot t.amount) := accrueFeesInner_idle hv hle
    obtain ⟨value, hvalue, hbook⟩ := accrueFeesInner_books hacc hsupply
    refine ⟨⟨t, value, c, q, hst.vault_eq, hvalue, hc, rfl, hbook⟩, ?_, ?_⟩
    · have hagain := hst₁.accrues (hvault.symm ▸ haccrual) (clock_withPool hc hst.pool_eq) hidle
      rw [withPool_withPool] at hagain
      exact hagain
    · intro w₂ c₂ hs₂ hc₂
      -- nothing was sent to the vault, so the balance is still the one on the books
      obtain ⟨p₂, t₂, m₂, hst₂, -⟩ := hst₁.outside hs₂
      have ho : ctx.Outside π 0 _ w₂ := hs₂
      obtain rfl : p₂ = q.stamp c.slot t.amount :=
        Option.some_inj.mp (hst₂.pool_eq.symm.trans (ho.pool_eq.trans hst₁.pool_eq))
      obtain ⟨b, hb, ht₂⟩ := ho.vault_eq hst₁.pool_eq hst₁.vault_eq
      obtain rfl : b = t.amount := UInt64.toNat_inj.mp hb
      obtain rfl : t₂ = t := Option.some_inj.mp (hst₂.vault_eq.symm.trans ht₂)
      exact ⟨_, hst₂.accrues (hvault.symm ▸ haccrual) hc₂ hidle, _, _, _, hst₂.pool_eq, rfl⟩

end

namespace Sample

/-- Fees that nobody has booked yet, over two tranches. -/
def windfall : List Action :=
  [enableTranches, deposit alice 100000, depositJunior bob 50000, .send 777]

theorem accrual_timing_windfall : ∃ w₁ w₂,
    Transition.Run (Sample.ctx.Step pool) (after windfall)
      [.instruction .accrueFees accrueAccounts,
        .instruction (.deposit 5000) (depositAccounts alice)]
      w₁ ∧
    Transition.Run (Sample.ctx.Step pool) (after windfall)
      [.instruction (.deposit 5000) (depositAccounts alice),
        .instruction .accrueFees accrueAccounts]
      w₂ ∧
    Sample.ctx.Restamped pool (after (windfall ++ [deposit alice 5000])) w₁ ∧
    Sample.ctx.Restamped pool (after (windfall ++ [deposit alice 5000])) w₂ := by
  obtain ⟨hscript, hdeposit⟩ := after_step (s := windfall) (a := deposit alice 5000)
    (by decide +kernel)
  have hstate : ((after windfall).pool Sample.ctx.programId pool).map (fun p =>
      (decide (0 < p.totalLpSupply), p.vault)) = some (true, vault) := by decide +kernel
  obtain ⟨p, hp, h⟩ := Option.map_eq_some_iff.mp hstate
  rw [Prod.mk.injEq, decide_eq_true_eq] at h
  have haccrual : Sample.ctx.AccruesAt pool p.vault accrueAccounts := by
    rw [h.2]
    exact ⟨⟨⟨signer (key bob), writable pool, readonly vault, readonly clockSysvarId⟩, rfl, rfl,
      rfl, rfl, rfl⟩, by decide +kernel⟩
  exact (accrual_timing (after_reached hscript) hp h.1 haccrual).1 (.deposit 5000)
    (depositAccounts alice) _ rfl hdeposit

end Sample

end PercolatorStake
