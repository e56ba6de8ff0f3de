import PercolatorStake.Effect.Guard
import PercolatorStake.Timelock

/-!
# Whose record an instruction writes

A deposit and a withdrawal write one record, at the address derived from the pool they
name and the user who signs them.  No other instruction writes a record.
-/

namespace PercolatorStake

open Result Word

/-- The LP on record at `k`. -/
def World.lpAt (w : World) (id k : Pubkey) : Nat := (w.recordOrZeroed id k).lpAmount.toNat

/-- What an instruction on a record makes of the LP on it. -/
def StakeInstruction.LpMoved (old new : Nat) : StakeInstruction → Prop
  | .deposit _ | .depositJunior _ => old < new
  | .withdraw lp => old = new + lp.toNat
  | _ => False

/-- The instruction wrote the record at `k`: it is the one its signer has with the pool it
names. -/
structure Context.Writes (ctx : Context) (w : World) (ix : StakeInstruction)
    (accounts : List AccountInfo) (k : Pubkey) (w' : World) : Prop where
  written : ∃ user a d, accounts[0]? = some user ∧ ix.poolAccount accounts = some a ∧
    user.isSigner = true ∧ (∃ p, w.pool ctx.programId a.key = some p) ∧
    k = ctx.depositPda a.key user.key ∧ w'.record ctx.programId k = some d ∧
    d.pool = a.key ∧ d.user = user.key ∧
    ix.LpMoved (w.lpAt ctx.programId k) d.lpAmount.toNat ∧
    (∀ lp, ix = .withdraw lp → ∃ d₀, w.record ctx.programId k = some d₀ ∧
      d₀.isInitialized = 1 ∧ d₀.user = user.key)

section

variable {ctx : Context} {w w₁ w' : World} {accounts : List AccountInfo} {ix : StakeInstruction}
  {amount lp : UInt64} {junior : Bool}

theorem lpAt_of_record {id k : Pubkey} (h : w'.record id k = w.record id k) :
    w'.lpAt id k = w.lpAt id k := by
  unfold World.lpAt World.recordOrZeroed
  rw [h]

theorem lpAt_eq {id k : Pubkey} {d : StakeDeposit} (h : w.record id k = some d) :
    w.lpAt id k = d.lpAmount.toNat := by
  unfold World.lpAt World.recordOrZeroed
  rw [h]
  rfl

/-- Storing the pool leaves the records. -/
theorem record_store {a : AccountInfo} {p p' : StakePool}
    (hp : w₁.pool ctx.programId a.key = some p) (hstore : w₁.store a (.pool p') = .ok w')
    (k : Pubkey) : w'.record ctx.programId k = w₁.record ctx.programId k := by
  obtain ⟨-, rfl⟩ := (store_pool_eq_ok rfl hp).mp hstore
  exact record_setPool hp

theorem record_set_self {id k : Pubkey} {d : StakeDeposit} :
    (w.set k ⟨id, .deposit d⟩).record id k = some d := by
  rw [World.record_eq_some, World.account_set_self]

theorem record_set_of_ne {id k k' : Pubkey} {x : Account} (h : k' ≠ k) :
    (w.set k x).record id k' = w.record id k' := by
  rw [World.record, World.account_set_of_ne h, World.record]

/-- The record a deposit leaves is its signer's. -/
theorem DepositRun.written_user (r : DepositRun ctx w accounts junior amount w') {d : StakeDeposit}
    (h : r.recorded.record ctx.programId (ctx.depositPda r.a.poolPda.key r.a.user.key) = some d) :
    d.user = r.a.user.key := by
  have hcredit : ∀ {d₀ d₁ d' : StakeDeposit} {u : World},
      openRecord ctx r.paid accounts r.a = .ok (u, d₀) →
      creditRecord ctx r.a d₁ r.clock r.lp = .ok d' →
      u.store r.a.depositPda (.deposit d') = .ok r.recorded → d.user = r.a.user.key := by
    intro d₀ d₁ d' u hopen hcredit hstore
    obtain ⟨hkey, -, -, howner, -⟩ := openRecord_eq_ok hopen
    simp only [World.store_eq_ok] at hstore
    rw [howner, hkey] at hstore
    rw [hstore.2, record_set_self, Option.some_inj] at h
    unfold creditRecord at hcredit
    simp only [bind_eq_ok, ok_eq_ok] at hcredit
    obtain ⟨x, -, rfl⟩ := hcredit
    rw [← h]
  have hrec := r.record_eq
  cases junior with
  | false =>
    unfold depositRecord recordDeposit at hrec
    simp only [bind_eq_ok, Prod.exists] at hrec
    obtain ⟨u, d₀, hopen, _, -, d', hc, hstore⟩ := hrec
    exact hcredit hopen hc hstore
  | true =>
    unfold depositRecord recordDepositJunior at hrec
    simp only [bind_eq_ok, Prod.exists] at hrec
    obtain ⟨u, d₀, hopen, _, -, d', hc, hstore⟩ := hrec
    exact hcredit hopen hc hstore

/-- A deposit writes the record of its signer. -/
theorem DepositRun.records (r : DepositRun ctx w accounts junior amount w') (k : Pubkey)
    (hix : ix.poolAccount accounts = accounts[1]?)
    (hmoved : ∀ {old new : Nat}, old < new → ix.LpMoved old new)
    (hne : ∀ lp, ix ≠ .withdraw lp) :
    w'.record ctx.programId k = w.record ctx.programId k ∨ ctx.Writes w ix accounts k w' := by
  have hpaid := collectDeposit_changes r.collect_eq
  obtain ⟨hfirst, hsecond⟩ := DepositAccounts.next_eq_ok r.next_eq
  obtain ⟨d, hpool, -, hacc, ⟨l, hrecorded⟩, hlp, -, -⟩ := r.credited.writes
  have hp : r.recorded.pool ctx.programId r.a.poolPda.key = some r.pool := by
    rw [hrecorded, pool_setRecord (w := r.paid.withLamports l) hacc, World.pool_withLamports,
      hpaid.pool_eq, r.pool_eq]
  have hrecord := record_store hp r.store_eq k
  by_cases hk : k = ctx.depositPda r.a.poolPda.key r.a.user.key
  · right
    subst hk
    have hself : r.recorded.record ctx.programId (ctx.depositPda r.a.poolPda.key r.a.user.key) =
        some d := by
      rw [hrecorded, record_set_self]
    refine ⟨r.a.user, r.a.poolPda, d, hfirst, hix.trans hsecond, r.user_signs, ⟨_, r.pool_eq⟩, rfl,
      hrecord.trans hself, hpool, r.written_user hself, hmoved ?_, fun lp e => (hne lp e).elim⟩
    have hold : w.lpAt ctx.programId (ctx.depositPda r.a.poolPda.key r.a.user.key) =
        r.paid.lpAt ctx.programId (ctx.depositPda r.a.poolPda.key r.a.user.key) :=
      (lpAt_of_record (hpaid.record_eq _ _)).symm
    have hpos := r.lp_ne
    rw [Ne, eq_zero_iff] at hpos
    rw [hold, hlp]
    unfold World.lpAt
    omega
  · left
    rw [hrecord, hrecorded, record_set_of_ne hk, World.record_withLamports, hpaid.record_eq]

/-- A withdrawal writes the record of its signer, which was theirs already. -/
theorem WithdrawRun.records (r : WithdrawRun ctx w accounts lp w') (k : Pubkey) :
    w'.record ctx.programId k = w.record ctx.programId k ∨
      ctx.Writes w (.withdraw lp) accounts k w' := by
  have hpaid := payOut_changes r.pay_eq
  obtain ⟨hfirst, hsecond⟩ := WithdrawAccounts.next_eq_ok r.next_eq
  obtain ⟨hkey, hold⟩ := r.record_eq
  obtain ⟨-, -, ⟨hinit, huser, hpool⟩, -, -⟩ := checkRecord_eq_ok.mp r.check_eq
  have hrec : r.paid.account r.a.depositPda.key = ⟨ctx.programId, .deposit r.deposit⟩ :=
    (hpaid.account_iff (fun _ e => by cases e) (fun _ e => by cases e)).mpr hold
  obtain ⟨-, hrecorded⟩ := (store_record_eq_ok hrec).mp r.store_record
  have hp : r.recorded.pool ctx.programId r.a.poolPda.key = some r.pool := by
    rw [hrecorded, pool_setRecord (.inl ⟨_, hrec⟩), hpaid.pool_eq, r.pool_eq]
  have hrecord := record_store hp r.store_eq k
  by_cases hk : k = r.a.depositPda.key
  · right
    subst hk
    have hsame : r.deposit = r.record := by
      have hread := depositFromData_eq_ok.mp r.reread_eq
      rw [World.data, hrec] at hread
      exact AccountData.deposit.inj hread
    have hdebit := r.debit_eq
    rw [← hsame] at hdebit
    obtain ⟨hpool', -, hle, hpos⟩ := debitRecord_eq_ok hdebit
    obtain ⟨-, huser', -⟩ := debitRecord_keeps hdebit
    have hlp : r.debited.lpAmount.toNat = r.deposit.lpAmount.toNat - lp.toNat := by
      have h := congrArg Position.lp hpos
      rwa [Position.lp_debit] at h
    have hw : w.record ctx.programId r.a.depositPda.key = some r.deposit :=
      World.record_eq_some.mpr hold
    have hself : r.recorded.record ctx.programId r.a.depositPda.key = some r.debited := by
      rw [hrecorded, record_set_self]
    refine ⟨r.a.user, r.a.poolPda, r.debited, hfirst, hsecond, r.user_signs, ⟨_, r.pool_eq⟩, hkey,
      hrecord.trans hself, hpool'.trans hpool, huser'.trans huser, ?_,
      fun _ _ => ⟨_, hw, hinit, huser⟩⟩
    show w.lpAt ctx.programId r.a.depositPda.key = r.debited.lpAmount.toNat + lp.toNat
    rw [lpAt_eq hw, hlp]
    omega
  · left
    rw [hrecord, hrecorded, record_set_of_ne hk, hpaid.record_eq]

/-- Creating a pool writes no record. -/
theorem processInitPool_records {slots cap : UInt64}
    (h : processInitPool ctx w accounts slots cap = .ok w') (k : Pubkey) :
    w'.record ctx.programId k = w.record ctx.programId k := by
  obtain ⟨a, w₁, l, -, hval, hcreate, rfl⟩ := processInitPool_stages h
  by_cases hk : k = a.poolPda.key
  · have hempty := (validateInit_eq_ok hval).2.2.1
    have hnone : w.record ctx.programId k = none := by
      rw [hk]
      unfold World.record
      split
      · rename_i hd
        rw [World.data, hd] at hempty
        cases hempty
      · rfl
    rw [hnone, hk, World.record, World.account_set_self]
  · rw [record_set_of_ne hk, (createTokenAccounts_eq_ok hcreate).1.record_eq,
      record_set_of_ne hk, World.record_withLamports]

/-- The only records an instruction writes are those of its signer with the pool it
names. -/
theorem process_records (h : process ctx w accounts ix = .ok w') (k : Pubkey) :
    w'.record ctx.programId k = w.record ctx.programId k ∨ ctx.Writes w ix accounts k w' := by
  cases hix : ix.mints with
  | false =>
    obtain ⟨w₁, k', q, q', htokens, -, hq, rfl⟩ := process_plain h hix
    exact .inl ((record_setPool hq).trans (htokens.record_eq _ _))
  | true =>
    cases ix with
    | initPool => exact .inl (processInitPool_records h k)
    | initTradingPool =>
      unfold process processInitTradingPool at h
      simp only [bind_eq_ok] at h
      obtain ⟨w₁, hinit, a', ha', _, -, q, -, _, -, hstore⟩ := h
      obtain ⟨a, ha, hc⟩ := processInitPool_creates hinit
      obtain rfl : a = a' := Except.ok.inj (ha.symm.trans ha')
      exact .inl ((record_store hc.after hstore k).trans (processInitPool_records hinit k))
    | deposit =>
      obtain ⟨r⟩ := processDeposit_eq_ok.mp h
      exact r.records k rfl (fun h => h) fun _ e => by cases e
    | depositJunior =>
      obtain ⟨r⟩ := processDepositJunior_eq_ok.mp h
      exact r.records k rfl (fun h => h) fun _ e => by cases e
    | withdraw =>
      obtain ⟨r⟩ := processWithdraw_eq_ok.mp h
      exact r.records k
    | _ => cases hix

end

end PercolatorStake
