import PercolatorStake.Effect.Tokens

/-!
# What a deposit does

Both deposits are an accrual and one move of the ledger on the depositor's
position.
-/

namespace PercolatorStake

open Result Word

theorem DepositAccounts.next_eq_ok {accounts : List AccountInfo} {a : DepositAccounts}
    (h : DepositAccounts.next accounts = .ok a) :
    accounts[0]? = some a.user ∧ accounts[1]? = some a.poolPda := by
  unfold DepositAccounts.next at h
  split at h
  · cases h
    exact ⟨rfl, rfl⟩
  · cases h

/-! ## Stages -/

/-- What the checks in front of the pricing establish. -/
theorem validateDeposit_eq_ok {ctx : Context} {w : World} {a : DepositAccounts} {p : StakePool}
    {amount : UInt64} {e : StakeError} {u : Unit}
    (h : validateDeposit ctx w a p amount e = .ok u) :
    p.lpMint = a.lpMint.key ∧ p.vault = a.vault.key ∧ p.marketResolved = false ∧
      a.vaultAuth.key = ctx.vaultAuthority a.poolPda.key ∧
      checkDepositCap p amount = .ok () := by
  unfold validateDeposit at h
  simp only [bind_eq_ok, rejectIf_eq_ok, not_not, Bool.not_eq_true] at h
  obtain ⟨_, h1, _, h2, _, h3, _, h4, _, h5, -⟩ := h
  exact ⟨h1, h2, h3, h4, h5⟩

theorem Standing.collectDeposit {ctx : Context} {π : Pubkey} {w w' : World} {p : StakePool}
    {t : TokenAccount} {m : Mint} (h : Standing ctx π w p t m) {a : DepositAccounts}
    {amount mintAmount : UInt64} (hvault : p.vault = a.vault.key) (hmint : p.lpMint = a.lpMint.key)
    (huser : a.user.key ≠ ctx.vaultAuthority π)
    (hc : PercolatorStake.collectDeposit ctx w a amount mintAmount = .ok w') :
    ∃ v s : UInt64, v.toNat = t.amount.toNat + amount.toNat ∧
      s.toNat = m.supply.toNat + mintAmount.toNat ∧ World.TokensOnly w w' ∧
      Standing ctx π w' p { t with amount := v } { m with supply := s } := by
  unfold PercolatorStake.collectDeposit Context.invoke at hc
  simp only [bind_eq_ok] at hc
  obtain ⟨w₁, htransfer, hmintTo⟩ := hc
  have htransfer := Context.transfer_of_invokeSigned htransfer
  have hmintTo := Context.mintTo_of_invokeSigned hmintTo
  rw [← hvault] at htransfer
  rw [← hmint] at hmintTo
  obtain ⟨v, hv, hw₁, h₁⟩ := h.transferIn huser htransfer
  obtain ⟨s, hs, hw₂, h₂⟩ := h₁.mintTo hmintTo
  exact ⟨v, s, hv, hs, hw₁.trans hw₂, h₂⟩

theorem bookDeposit_eq_ok {p p' : StakePool} {amount lp : UInt64} :
    bookDeposit p amount lp = .ok p' ↔ ∃ d s : UInt64,
      d.toNat = p.totalDeposited.toNat + amount.toNat ∧
      s.toNat = p.totalLpSupply.toNat + lp.toNat ∧
      p' = { p with totalDeposited := d, totalLpSupply := s } := by
  unfold bookDeposit
  simp only [bind_eq_ok, okOr_eq_ok, ok_eq_ok, checkedAdd_eq_some]
  constructor
  · rintro ⟨d, hd, s, hs, e⟩
    exact ⟨d, s, hd, hs, e.symm⟩
  · rintro ⟨d, s, hd, hs, e⟩
    exact ⟨d, hd, s, hs, e.symm⟩

theorem bookDeposit_book {p p' : StakePool} {amount lp : UInt64}
    (h : bookDeposit p amount lp = .ok p') :
    p'.charter = p.charter ∧ p'.book = { p.book with
      deposited := p.book.deposited + amount.toNat, supply := p.book.supply + lp.toNat } := by
  obtain ⟨d, s, hd, hs, rfl⟩ := bookDeposit_eq_ok.mp h
  have hd : d.toNat = p.book.deposited + amount.toNat := hd
  have hs : s.toNat = p.book.supply + lp.toNat := hs
  refine ⟨rfl, ?_⟩
  rw [← hd, ← hs]
  rfl

theorem bookDepositJunior_book {p p' : StakePool} {amount lp : UInt64}
    (h : bookDepositJunior p amount lp = .ok p') :
    p'.charter = p.charter ∧ p'.book = { p.book with
      deposited := p.book.deposited + amount.toNat, supply := p.book.supply + lp.toNat,
      juniorLp := p.book.juniorLp + lp.toNat,
      juniorBalance := p.book.juniorBalance + amount.toNat } := by
  unfold bookDepositJunior at h
  simp only [bind_eq_ok, okOr_eq_ok, ok_eq_ok, checkedAdd_eq_some] at h
  obtain ⟨p₁, hp₁, jl, hjl, jb, hjb, rfl⟩ := h
  obtain ⟨hcharter, hbook⟩ := bookDeposit_book hp₁
  have hjl : jl.toNat = p₁.book.juniorLp + lp.toNat := hjl
  have hjb : jb.toNat = (p₁.setJuniorTotalLp jl).book.juniorBalance + amount.toNat := hjb
  rw [StakePool.book_setJuniorTotalLp] at hjb
  refine ⟨?_, ?_⟩
  · rw [StakePool.charter_setJuniorBalance, StakePool.charter_setJuniorTotalLp, hcharter]
  · rw [StakePool.book_setJuniorBalance, StakePool.book_setJuniorTotalLp, hjl, hjb, hbook]

theorem refreshHwmAfterDeposit_book {p p' : StakePool} {c : Clock}
    (h : refreshHwmAfterDeposit p c = .ok p') : p'.charter = p.charter ∧ p'.book = p.book := by
  unfold refreshHwmAfterDeposit at h
  split at h
  · simp only [bind_eq_ok, ok_eq_ok] at h
    obtain ⟨v, -, rfl⟩ := h
    exact ⟨StakePool.charter_refreshHwm .., StakePool.book_refreshHwm ..⟩
  · cases h
    exact ⟨rfl, rfl⟩

/-! ## Pricing -/

theorem seniorDepositGate_eq_ok {p : StakePool} {u : Unit} :
    seniorDepositGate p = .ok u ↔
      (p.book.tranches = true → p.book.netLoss ≤ p.book.juniorBalance) := by
  unfold seniorDepositGate
  rw [rejectIf_eq_ok, not_and]
  refine imp_congr_right fun _ => ?_
  rw [gt_iff_lt, UInt64.not_lt, UInt64.le_iff_toNat_le, toNat_saturatingSub]
  rfl

theorem juniorDepositGate_eq_ok {p : StakePool} {u : Unit} :
    juniorDepositGate p = .ok u ↔ p.book.flushed ≤ p.book.returned - p.book.realized := by
  unfold juniorDepositGate
  simp only [rejectIf_eq_ok, gt_iff_lt]
  rw [pos_iff, toNat_saturatingSub, toNat_saturatingSub, Nat.not_lt, Nat.le_zero_eq,
    Nat.sub_eq_zero_iff_le]
  rfl

/-- A deposit is priced against the sub-pool of an unflagged position. -/
theorem priceDeposit_spec {p : StakePool} {amount lp : UInt64}
    (h : priceDeposit p amount = .ok lp) :
    0 ≤ p.book.ownValue ∧
      lp.toNat * (p.book.ownValue.toNat + 1) ≤ amount.toNat * (p.book.ownLp + 1) ∧
      (p.book.ownLp = 0 ↔ p.book.ownValue.toNat = 0) := by
  have hspec : ∀ {lpSupply v : UInt64} {value : Int} {n : Nat}, value = v.toNat →
      lpSupply.toNat = n → Math.calcLpForDeposit lpSupply v amount = some lp →
      0 ≤ value ∧ lp.toNat * (value.toNat + 1) ≤ amount.toNat * (n + 1) ∧
        (n = 0 ↔ value.toNat = 0) := by
    rintro lpSupply v value n rfl rfl hcalc
    rw [Int.toNat_natCast]
    exact ⟨Int.natCast_nonneg _, Math.calcLpForDeposit_spec hcalc⟩
  unfold priceDeposit at h
  unfold Book.ownValue Book.ownLp
  by_cases ht : p.trancheEnabled = true
  · have ht' : p.book.tranches = true := ht
    rw [if_pos ht] at h
    rw [if_pos ht', if_pos ht']
    simp only [bind_eq_ok, okOr_eq_ok] at h
    obtain ⟨s, hs, hcalc⟩ := h
    exact hspec (StakePool.senior_of_seniorBalance hs) (StakePool.toNat_seniorTotalLp p) hcalc
  · have ht' : ¬p.book.tranches = true := ht
    rw [if_neg ht, okOr_eq_ok] at h
    rw [if_neg ht', if_neg ht']
    unfold StakePool.calcLpForDeposit at h
    simp only [Option.bind_eq_bind, Option.bind_eq_some_iff] at h
    obtain ⟨v, hv, hcalc⟩ := h
    exact hspec (StakePool.totalPoolValue_eq_some.mp hv) rfl hcalc

theorem priceDepositJunior_spec {p : StakePool} {amount lp : UInt64}
    (h : priceDepositJunior p amount = .ok lp) :
    lp.toNat * (p.book.effectiveJunior + 1) ≤ amount.toNat * (p.book.juniorLp + 1) ∧
      (p.book.juniorLp = 0 ↔ p.book.effectiveJunior = 0) := by
  unfold priceDepositJunior at h
  rw [okOr_eq_ok] at h
  rw [← StakePool.toNat_effectiveJuniorBalance]
  exact Math.calcLpForDeposit_spec h

/-! ## The record -/

/-- What is at the address of a record before a deposit. -/
def World.recordOrZeroed (w : World) (id k : Pubkey) : StakeDeposit :=
  (w.record id k).getD StakeDeposit.zeroed

/-- A record leaves with a valid discriminator and is otherwise what it was. -/
theorem freshOrChecked_eq_ok {w w' : World} {d d' : StakeDeposit}
    (h : (if d.isInitialized ≠ 1 then .ok (w, d.setDiscriminator)
      else do
        rejectIf (d.validateDiscriminator = false) ↑StakeError.invalidAccount
        .ok (w, d)) = (.ok (w', d') : Except ProgramError (World × StakeDeposit))) :
    w = w' ∧ d'.validateDiscriminator = true ∧ d'.lpAmount = d.lpAmount ∧
      d'.isJuniorDeposit = d.isJuniorDeposit ∧ d'.isInitialized = d.isInitialized := by
  by_cases hi : d.isInitialized ≠ 1
  · rw [if_pos hi] at h
    cases h
    exact ⟨rfl, d.validateDiscriminator_setDiscriminator, rfl,
      d.isJuniorDeposit_setDiscriminator, rfl⟩
  · rw [if_neg hi] at h
    simp only [bind_eq_ok, rejectIf_eq_ok, Bool.not_eq_false, ok_eq_ok, Prod.mk.injEq] at h
    obtain ⟨_, hdisc, rfl, rfl⟩ := h
    exact ⟨rfl, hdisc, rfl, rfl, rfl⟩

theorem openRecord_eq_ok {ctx : Context} {w w' : World} {accounts : List AccountInfo}
    {a : DepositAccounts} {d : StakeDeposit} (h : openRecord ctx w accounts a = .ok (w', d)) :
    a.depositPda.key = ctx.depositPda a.poolPda.key a.user.key ∧
      ((∃ d₀, w.account a.depositPda.key = ⟨ctx.programId, .deposit d₀⟩) ∨
        w.account a.depositPda.key = ⟨systemProgramId, .empty⟩) ∧
      (∃ l, ∀ x, w'.set a.depositPda.key ⟨ctx.programId, x⟩ =
        (w.withLamports l).set a.depositPda.key ⟨ctx.programId, x⟩) ∧
      (w'.account a.depositPda.key).owner = ctx.programId ∧
      d.validateDiscriminator = true ∧
      ∃ d₀, d₀ = w.recordOrZeroed ctx.programId a.depositPda.key ∧
        d.lpAmount = d₀.lpAmount ∧ d.isJuniorDeposit = d₀.isJuniorDeposit ∧
        d.isInitialized = d₀.isInitialized := by
  unfold openRecord at h
  simp only [bind_eq_ok, rejectIf_eq_ok, not_not, not_and] at h
  obtain ⟨_, hkey, _, howner, h⟩ := h
  by_cases hempty : w.data a.depositPda = .empty
  · simp only [if_pos hempty, bind_eq_ok] at h
    obtain ⟨w₁, hw₁, d₁, hd₁, h⟩ := h
    obtain ⟨rfl, hdisc, hlp, hjunior, hinit⟩ := freshOrChecked_eq_ok h
    obtain ⟨hacc, l, rfl⟩ := Context.createOrAdoptPda_writes hw₁
    have hd₁ : StakeDeposit.zeroed = d₁ := by
      rw [depositFromData_eq_ok, World.data, World.account_set_self] at hd₁
      cases hd₁
      rfl
    have hrec : w.recordOrZeroed ctx.programId a.depositPda.key = d₁ := by
      unfold World.recordOrZeroed World.record
      rw [hacc, ← hd₁]
      rfl
    exact ⟨hkey, .inr hacc, ⟨l, fun x => World.set_set ..⟩, by rw [World.account_set_self], hdisc,
      d₁, hrec.symm, hlp, hjunior, hinit⟩
  · simp only [if_neg hempty, bind_eq_ok, ok_eq_ok] at h
    obtain ⟨w₁, rfl, d₁, hd₁, h⟩ := h
    obtain ⟨rfl, hdisc, hlp, hjunior, hinit⟩ := freshOrChecked_eq_ok h
    have hacc : w.account a.depositPda.key = ⟨ctx.programId, .deposit d₁⟩ :=
      World.account_eq (howner hempty) (depositFromData_eq_ok.mp hd₁)
    have hrec : w.recordOrZeroed ctx.programId a.depositPda.key = d₁ := by
      unfold World.recordOrZeroed
      rw [World.record_eq_some.mpr hacc]
      rfl
    exact ⟨hkey, .inl ⟨d₁, hacc⟩, ⟨w.lamports, fun _ => rfl⟩, by rw [hacc], hdisc, d₁, hrec.symm,
      hlp, hjunior, hinit⟩

theorem Standing.position_eq {ctx : Context} {π : Pubkey} {w : World} {p : StakePool}
    {t : TokenAccount} {m : Mint} (h : Standing ctx π w p t m) (user : Pubkey) {d : StakeDeposit}
    (hd : d = w.recordOrZeroed ctx.programId (ctx.depositPda π user)) :
    w.positions ctx.programId π (ctx.depositPda π user) =
      ⟨d.lpAmount.toNat, d.isJuniorDeposit, d.isInitialized == 1⟩ := by
  unfold World.recordOrZeroed at hd
  unfold World.positions
  cases hr : w.record ctx.programId (ctx.depositPda π user) with
  | none =>
    have hzero : Position.none = ⟨StakeDeposit.zeroed.lpAmount.toNat,
        StakeDeposit.zeroed.isJuniorDeposit, StakeDeposit.zeroed.isInitialized == 1⟩ := by decide
    rw [hr, Option.getD_none] at hd
    rw [hd]
    exact hzero
  | some d' =>
    rw [hr, Option.getD_some] at hd
    rw [hd]
    exact if_pos (h.record_eq user d' hr).1

/-- The record after a deposit of either kind: credited, and flagged `junior`. -/
structure Credited (ctx : Context) (π user : Pubkey) (w w' : World) (lp : UInt64)
    (junior : Bool) : Prop where
  writes : ∃ d, d.pool = π ∧ d.validateDiscriminator = true ∧
    ((∃ d₀, w.account (ctx.depositPda π user) = ⟨ctx.programId, .deposit d₀⟩) ∨
      w.account (ctx.depositPda π user) = ⟨systemProgramId, .empty⟩) ∧
    (∃ l, w' = (w.withLamports l).set (ctx.depositPda π user) ⟨ctx.programId, .deposit d⟩) ∧
    d.lpAmount.toNat =
      (w.recordOrZeroed ctx.programId (ctx.depositPda π user)).lpAmount.toNat + lp.toNat ∧
    d.isJuniorDeposit = junior ∧ d.isInitialized = 1

theorem creditRecord_eq_ok {ctx : Context} {a : DepositAccounts} {d d' : StakeDeposit}
    {c : Clock} {lp : UInt64} (h : creditRecord ctx a d c lp = .ok d') :
    d'.pool = a.poolPda.key ∧ d'.validateDiscriminator = d.validateDiscriminator ∧
      d'.isJuniorDeposit = d.isJuniorDeposit ∧ d'.isInitialized = 1 ∧
      d'.lpAmount.toNat = d.lpAmount.toNat + lp.toNat := by
  unfold creditRecord at h
  simp only [bind_eq_ok, okOr_eq_ok, ok_eq_ok, checkedAdd_eq_some] at h
  obtain ⟨x, hx, rfl⟩ := h
  exact ⟨rfl, rfl, rfl, rfl, hx⟩

theorem recordDeposit_eq_ok {ctx : Context} {w w' : World} {accounts : List AccountInfo}
    {a : DepositAccounts} {c : Clock} {lp : UInt64}
    (h : recordDeposit ctx w accounts a c lp = .ok w') :
    (w.recordOrZeroed ctx.programId
      (ctx.depositPda a.poolPda.key a.user.key)).isJuniorDeposit = false ∧
      Credited ctx a.poolPda.key a.user.key w w' lp false := by
  unfold recordDeposit at h
  simp only [bind_eq_ok, rejectIf_eq_ok, Prod.exists, World.store_eq_ok, Bool.not_eq_true] at h
  obtain ⟨w₁, d, hopen, _, hjunior, d', hcredit, -, rfl⟩ := h
  obtain ⟨hkey, hacc, ⟨l, hset⟩, howner, hdisc, d₀, rfl, hlp, hj, -⟩ := openRecord_eq_ok hopen
  obtain ⟨hpool, hdisc', hj', hinit', hlp'⟩ := creditRecord_eq_ok hcredit
  rw [hkey] at hacc hset howner hlp hj
  refine ⟨hj ▸ hjunior, ⟨d', hpool, hdisc'.trans hdisc, hacc, ?_, ?_, hj'.trans hjunior, hinit'⟩⟩
  · exact ⟨l, by rw [hkey, howner, hset]⟩
  · rw [hlp', hlp]

theorem recordDepositJunior_eq_ok {ctx : Context} {w w' : World} {accounts : List AccountInfo}
    {a : DepositAccounts} {c : Clock} {lp : UInt64}
    (h : recordDepositJunior ctx w accounts a c lp = .ok w') :
    ((w.recordOrZeroed ctx.programId
        (ctx.depositPda a.poolPda.key a.user.key)).isJuniorDeposit = true ∨
      (w.recordOrZeroed ctx.programId
        (ctx.depositPda a.poolPda.key a.user.key)).isInitialized ≠ 1) ∧
      Credited ctx a.poolPda.key a.user.key w w' lp true := by
  unfold recordDepositJunior at h
  simp only [bind_eq_ok, rejectIf_eq_ok, Prod.exists, World.store_eq_ok, not_and_or,
    Bool.not_eq_false] at h
  obtain ⟨w₁, d, hopen, _, hjunior, d', hcredit, -, rfl⟩ := h
  obtain ⟨hkey, hacc, ⟨l, hset⟩, howner, hdisc, d₀, rfl, hlp, hj, hinit⟩ := openRecord_eq_ok hopen
  obtain ⟨hpool, hdisc', hj', hinit', hlp'⟩ := creditRecord_eq_ok hcredit
  rw [StakeDeposit.validateDiscriminator_setJuniorDeposit] at hdisc'
  rw [StakeDeposit.isJuniorDeposit_setJuniorDeposit] at hj'
  rw [hkey] at hacc hset howner hlp hj hinit
  refine ⟨?_, ⟨d', hpool, hdisc'.trans hdisc, hacc, ?_, ?_, hj', hinit'⟩⟩
  · rw [← hj, ← hinit]
    exact hjunior
  · exact ⟨l, by rw [hkey, howner, hset]⟩
  · rw [hlp']
    exact congrArg (·.toNat + lp.toNat) hlp

/-- The record is written and the position follows. -/
theorem Standing.credit {ctx : Context} {π user : Pubkey} {w w' : World} {p : StakePool}
    {t : TokenAccount} {m : Mint} (h : Standing ctx π w p t m) {lp : UInt64} {junior : Bool}
    (hc : Credited ctx π user w w' lp junior) :
    Standing ctx π w' p t m ∧ w'.positions ctx.programId π =
      Function.update (w.positions ctx.programId π) (ctx.depositPda π user)
        ⟨(w.positions ctx.programId π (ctx.depositPda π user)).lp + lp.toNat, junior, true⟩ := by
  obtain ⟨d, hpool, hdisc, hacc, ⟨l, rfl⟩, hlp, hj, hinit⟩ := hc.writes
  refine ⟨(h.withLamports l).setRecord hacc hpool hdisc, ?_⟩
  rw [positions_setRecord, positions_withLamports, h.position_eq user rfl, positionOf, if_pos hpool,
        hlp, hj, hinit]
  rfl

/-! ## The instructions -/

def depositMintError : Bool → StakeError
  | false => .invalidMint
  | true => .invalidAccount

def depositGate : Bool → StakePool → Except ProgramError Unit
  | false => seniorDepositGate
  | true => juniorDepositGate

def depositPrice : Bool → StakePool → UInt64 → Except ProgramError UInt64
  | false => priceDeposit
  | true => priceDepositJunior

def depositBook : Bool → StakePool → UInt64 → UInt64 → Except ProgramError StakePool
  | false => bookDeposit
  | true => bookDepositJunior

def depositRecord :
    Bool → Context → World → List AccountInfo → DepositAccounts → Clock → UInt64 →
      Except ProgramError World
  | false => recordDeposit
  | true => recordDepositJunior

/-- The books after a deposit of either kind. -/
def Book.deposit (b : Book) (amount lp : Nat) : Bool → Book
  | false => { b with deposited := b.deposited + amount, supply := b.supply + lp }
  | true => { b with
    deposited := b.deposited + amount, supply := b.supply + lp
    juniorLp := b.juniorLp + lp, juniorBalance := b.juniorBalance + amount }

/-- A successful deposit of either kind, with everything it computes on the way.
`accrued` is the pool after the accrual, `booked` the pool with the deposit booked,
`final` the pool it stores.  `paid` is the world after the tokens moved and
`recorded` the one after the record was written. -/
structure DepositRun (ctx : Context) (w : World) (accounts : List AccountInfo) (junior : Bool)
    (amount : UInt64) (w' : World) where
  a : DepositAccounts
  pool : StakePool
  accrued : StakePool
  lp : UInt64
  mintAmount : UInt64
  paid : World
  booked : StakePool
  clock : Clock
  final : StakePool
  recorded : World
  amount_ne : amount ≠ 0
  next_eq : DepositAccounts.next accounts = .ok a
  user_signs : a.user.isSigner = true
  not_empty : validateAccountNotEmpty w a.poolPda = .ok ()
  owner_eq : w.owner a.poolPda = ctx.programId
  writable : validateAccountWritable a.poolPda = .ok ()
  read_eq : readPool w a.poolPda = .ok pool
  tranches : junior = true → pool.trancheEnabled = true
  valid : validateDeposit ctx w a pool amount (depositMintError junior) = .ok ()
  accrue_eq : preAccrueFeeModes w pool a.vault = .ok accrued
  gate : depositGate junior accrued = .ok ()
  price_eq : depositPrice junior accrued amount = .ok lp
  lp_ne : lp ≠ 0
  lock_eq : applyMinimumLiquidityLock accrued.totalLpSupply lp = .ok mintAmount
  collect_eq : collectDeposit ctx w a amount mintAmount = .ok paid
  book_eq : depositBook junior accrued amount lp = .ok booked
  clock_eq : readClock paid a.clockSysvar = .ok clock
  refresh_eq : refreshHwmAfterDeposit booked clock = .ok final
  record_eq : depositRecord junior ctx paid accounts a clock lp = .ok recorded
  store_eq : recorded.store a.poolPda (.pool final) = .ok w'

theorem processDeposit_eq_ok {ctx : Context} {w w' : World} {accounts : List AccountInfo}
    {amount : UInt64} : processDeposit ctx w accounts amount = .ok w' ↔
      Nonempty (DepositRun ctx w accounts false amount w') := by
  unfold processDeposit requireSigner
  simp only [bind_eq_ok, rejectIf_eq_ok, validateAccountOwner_eq_ok, Bool.not_eq_false]
  constructor
  · rintro ⟨_, hamount, a, ha, _, hsigner, _, hempty, _, howner, _, hwrite, q, hq, _, hval, p₁,
      hacc, _, hgate, lp, hprice, _, hlp, mint, hmint, w₁, hcollect, p₂, hbook, c, hc, p₃, hhwm,
      w₂, hrecord, hstore⟩
    exact ⟨⟨a, q, p₁, lp, mint, w₁, p₂, c, p₃, w₂, hamount, ha, hsigner, hempty, howner, hwrite,
      hq, fun e => (by cases e), hval, hacc, hgate, hprice, hlp, hmint, hcollect, hbook, hc, hhwm,
      hrecord, hstore⟩⟩
  · rintro ⟨r⟩
    exact ⟨(), r.amount_ne, r.a, r.next_eq, (), r.user_signs, (), r.not_empty, (), r.owner_eq, (),
      r.writable, r.pool, r.read_eq, (), r.valid, r.accrued, r.accrue_eq, (), r.gate, r.lp,
      r.price_eq, (), r.lp_ne, r.mintAmount, r.lock_eq, r.paid, r.collect_eq, r.booked, r.book_eq,
      r.clock, r.clock_eq, r.final, r.refresh_eq, r.recorded, r.record_eq, r.store_eq⟩

theorem processDepositJunior_eq_ok {ctx : Context} {w w' : World} {accounts : List AccountInfo}
    {amount : UInt64} : processDepositJunior ctx w accounts amount = .ok w' ↔
      Nonempty (DepositRun ctx w accounts true amount w') := by
  unfold processDepositJunior requireSigner
  simp only [bind_eq_ok, rejectIf_eq_ok, validateAccountOwner_eq_ok, Bool.not_eq_false]
  constructor
  · rintro ⟨_, hamount, a, ha, _, hsigner, _, hempty, _, howner, _, hwrite, q, hq, _, htranche, _,
      hval, p₁, hacc, _, hgate, lp, hprice, _, hlp, mint, hmint, w₁, hcollect, p₂, hbook, c, hc,
      p₃, hhwm, w₂, hrecord, hstore⟩
    exact ⟨⟨a, q, p₁, lp, mint, w₁, p₂, c, p₃, w₂, hamount, ha, hsigner, hempty, howner, hwrite,
      hq, fun _ => htranche, hval, hacc, hgate, hprice, hlp, hmint, hcollect, hbook, hc, hhwm,
      hrecord, hstore⟩⟩
  · rintro ⟨r⟩
    exact ⟨(), r.amount_ne, r.a, r.next_eq, (), r.user_signs, (), r.not_empty, (), r.owner_eq, (),
      r.writable, r.pool, r.read_eq, (), r.tranches rfl, (), r.valid, r.accrued, r.accrue_eq, (),
      r.gate, r.lp, r.price_eq, (), r.lp_ne, r.mintAmount, r.lock_eq, r.paid, r.collect_eq,
      r.booked, r.book_eq, r.clock, r.clock_eq, r.final, r.refresh_eq, r.recorded, r.record_eq,
      r.store_eq⟩

namespace DepositRun

variable {ctx : Context} {π : Pubkey} {w w' : World} {p : StakePool} {t : TokenAccount} {m : Mint}
  {accounts : List AccountInfo} {junior : Bool} {amount : UInt64}

theorem pool_eq (r : DepositRun ctx w accounts junior amount w') :
    w.pool ctx.programId r.a.poolPda.key = some r.pool :=
  pool_of_read r.owner_eq (readPool_eq_ok.mp r.read_eq).1

/-- The deposit is on the pool that stands. -/
theorem standing_eq (r : DepositRun ctx w accounts junior amount w')
    (h : Standing ctx π w p t m) (hpool : ∃ a, accounts[1]? = some a ∧ a.key = π) :
    r.a.poolPda.key = π ∧ p = r.pool ∧ accrueFeesInner p t.amount = .ok r.accrued := by
  obtain ⟨hπ, hp⟩ := h.pool_read hpool (DepositAccounts.next_eq_ok r.next_eq).2 r.pool_eq
  have hvault := (validateDeposit_eq_ok r.valid).2.1
  rw [← hp] at hvault
  refine ⟨hπ, hp, ?_⟩
  rw [← h.preAccrue hvault, hp]
  exact r.accrue_eq

theorem book_booked (r : DepositRun ctx w accounts junior amount w') :
    r.booked.charter = r.accrued.charter ∧
      r.booked.book = r.accrued.book.deposit amount.toNat r.lp.toNat junior := by
  cases junior with
  | false => exact bookDeposit_book r.book_eq
  | true => exact bookDepositJunior_book r.book_eq

theorem charter_final (r : DepositRun ctx w accounts junior amount w') :
    r.final.charter = r.accrued.charter ∧ r.final.book = r.booked.book := by
  obtain ⟨hcharter, hbook⟩ := refreshHwmAfterDeposit_book r.refresh_eq
  exact ⟨hcharter.trans r.book_booked.1, hbook⟩

theorem credited (r : DepositRun ctx w accounts junior amount w') :
    Credited ctx r.a.poolPda.key r.a.user.key r.paid r.recorded r.lp junior := by
  cases junior with
  | false => exact (recordDeposit_eq_ok r.record_eq).2
  | true => exact (recordDepositJunior_eq_ok r.record_eq).2

/-- Collateral in, LP out, and the position credited. -/
theorem settled (r : DepositRun ctx w accounts junior amount w') (h : Standing ctx π w p t m)
    (hpool : ∃ a, accounts[1]? = some a ∧ a.key = π)
    (hsign : ∀ a ∈ accounts, a.isSigner = true → a.key ≠ ctx.vaultAuthority π) :
    ∃ v s : UInt64, v.toNat = t.amount.toNat + amount.toNat ∧
      s.toNat = m.supply.toNat + r.mintAmount.toNat ∧
      Standing ctx π w' r.final { t with amount := v } { m with supply := s } ∧
      r.final.charter = p.charter ∧
      r.paid.recordOrZeroed ctx.programId = w.recordOrZeroed ctx.programId ∧
      w'.positions ctx.programId π = Function.update (w.positions ctx.programId π)
        (ctx.depositPda π r.a.user.key)
        ⟨(w.positions ctx.programId π (ctx.depositPda π r.a.user.key)).lp + r.lp.toNat, junior,
          true⟩ := by
  obtain ⟨hπ, hp, hacc⟩ := r.standing_eq h hpool
  obtain ⟨hmint, hvault, -⟩ := validateDeposit_eq_ok r.valid
  rw [← hp] at hmint hvault
  have hcharter : r.final.charter = p.charter :=
    r.charter_final.1.trans (accrueFeesInner_book hacc).1
  have huser := hsign r.a.user
    (List.mem_of_getElem? (DepositAccounts.next_eq_ok r.next_eq).1) r.user_signs
  obtain ⟨v, s, hv, hs, hpaid, h₁⟩ := h.collectDeposit hvault hmint huser r.collect_eq
  obtain ⟨h₂, hpos⟩ := h₁.credit (hπ ▸ r.credited)
  obtain ⟨-, hw'⟩ := (store_pool_eq_ok hπ h₂.pool_eq).mp r.store_eq
  have h₃ := h₂.setPool hcharter
  have hpos₃ := h₂.positions_setPool r.final
  rw [← hw'] at h₃ hpos₃
  refine ⟨v, s, hv, hs, h₃, hcharter, ?_, ?_⟩
  · funext k
    rw [World.recordOrZeroed, World.recordOrZeroed, hpaid.record_eq]
  · rw [hpos₃, hpos, hpaid.positions_eq]

theorem ledger_eq (r : DepositRun ctx w accounts junior amount w') {v : UInt64}
    (hv : v.toNat = t.amount.toNat + amount.toNat)
    (hpos : w'.positions ctx.programId π = Function.update (w.positions ctx.programId π)
      (ctx.depositPda π r.a.user.key)
      ⟨(w.positions ctx.programId π (ctx.depositPda π r.a.user.key)).lp + r.lp.toNat, junior,
        true⟩) :
    ledgerOf ctx π w' r.final { t with amount := v } = ⟨r.booked.book,
      t.amount.toNat + amount.toNat, Function.update (w.positions ctx.programId π)
      (ctx.depositPda π r.a.user.key)
      ⟨(w.positions ctx.programId π (ctx.depositPda π r.a.user.key)).lp + r.lp.toNat, junior,
        true⟩⟩ := by
  rw [ledgerOf, r.charter_final.2, hpos]
  exact congrArg (Ledger.mk r.booked.book · _) hv

end DepositRun

section

variable {ctx : Context} {π : Pubkey} {w w' : World} {p : StakePool} {t : TokenAccount} {m : Mint}
  {accounts : List AccountInfo} {amount : UInt64}

theorem Standing.deposit (h : Standing ctx π w p t m)
    (hpool : ∃ a, accounts[1]? = some a ∧ a.key = π)
    (hsign : ∀ a ∈ accounts, a.isSigner = true → a.key ≠ ctx.vaultAuthority π)
    (hd : processDeposit ctx w accounts amount = .ok w') :
    ∃ user acc lp, accounts[0]? = some user ∧ Accrual acc ∧ Simulated ctx π w p t
      (acc ++ [.deposit (ctx.depositPda π user.key) amount.toNat lp]) w' := by
  obtain ⟨r⟩ := processDeposit_eq_ok.mp hd
  obtain ⟨hπ, rfl, hacc⟩ := r.standing_eq h hpool
  obtain ⟨v, s, hv, -, h', hcharter, hrec, hpos⟩ := r.settled h hpool hsign
  obtain ⟨haccrued, acc, hacc', hrun⟩ := accrueFeesInner_run (f := w.positions ctx.programId π) hacc
  obtain ⟨hflag, -⟩ := recordDeposit_eq_ok r.record_eq
  rw [hπ, hrec] at hflag
  obtain ⟨hown, hle, hzero⟩ := priceDeposit_spec r.price_eq
  have hamount := r.amount_ne
  have hlp := r.lp_ne
  rw [Ne, eq_zero_iff] at hamount hlp
  refine ⟨r.a.user, acc, r.lp.toNat, (DepositAccounts.next_eq_ok r.next_eq).1, hacc', r.final, _,
    _, h', hcharter, ?_⟩
  rw [Transition.run_append]
  refine ⟨_, hrun, _, .deposit (k := ctx.depositPda π r.a.user.key) (a := amount.toNat) (by omega)
    (by omega) haccrued (seniorDepositGate_eq_ok.mp r.gate) hown hle hzero ?_, ?_⟩
  · show (w.positions ctx.programId π _).junior = false
    rw [h.position_eq r.a.user.key rfl]
    exact hflag
  · rw [r.ledger_eq hv hpos, r.book_booked.2]
    rfl

theorem Standing.depositJunior (h : Standing ctx π w p t m)
    (hpool : ∃ a, accounts[1]? = some a ∧ a.key = π)
    (hsign : ∀ a ∈ accounts, a.isSigner = true → a.key ≠ ctx.vaultAuthority π)
    (hd : processDepositJunior ctx w accounts amount = .ok w') :
    ∃ user acc lp, accounts[0]? = some user ∧ Accrual acc ∧ Simulated ctx π w p t
      (acc ++ [.depositJunior (ctx.depositPda π user.key) amount.toNat lp]) w' := by
  obtain ⟨r⟩ := processDepositJunior_eq_ok.mp hd
  obtain ⟨hπ, rfl, hacc⟩ := r.standing_eq h hpool
  obtain ⟨v, s, hv, -, h', hcharter, hrec, hpos⟩ := r.settled h hpool hsign
  obtain ⟨haccrued, acc, hacc', hrun⟩ := accrueFeesInner_run (f := w.positions ctx.programId π) hacc
  obtain ⟨hflag, -⟩ := recordDepositJunior_eq_ok r.record_eq
  rw [hπ, hrec] at hflag
  obtain ⟨hle, hzero⟩ := priceDepositJunior_spec r.price_eq
  have htranches : r.accrued.book.tranches = true :=
    (accrueFeesInner_tranches hacc).trans (r.tranches rfl)
  have hamount := r.amount_ne
  have hlp := r.lp_ne
  rw [Ne, eq_zero_iff] at hamount hlp
  refine ⟨r.a.user, acc, r.lp.toNat, (DepositAccounts.next_eq_ok r.next_eq).1, hacc', r.final, _,
    _, h', hcharter, ?_⟩
  rw [Transition.run_append]
  refine ⟨_, hrun, _, .depositJunior (k := ctx.depositPda π r.a.user.key) (a := amount.toNat)
    (by omega) (by omega) haccrued htranches (juniorDepositGate_eq_ok.mp r.gate) hle hzero ?_, ?_⟩
  · show (w.positions ctx.programId π _).junior = true ∨
        (w.positions ctx.programId π _).live = false
    rw [h.position_eq r.a.user.key rfl]
    refine hflag.imp_right fun hi => ?_
    rw [beq_eq_false_iff_ne]
    exact hi
  · rw [r.ledger_eq hv hpos, r.book_booked.2]
    rfl

end

end PercolatorStake
