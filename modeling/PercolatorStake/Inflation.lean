import PercolatorStake.DeadShares
import PercolatorStake.HwmDrain
import PercolatorStake.Splitting

/-!
# The first depositor and those after

The first depositor may choose the price the others deposit at: collateral sent to the
vault is booked as fees before the next deposit is priced, and what a deposit loses to
rounding stays with the LP that is out.  The dead shares take their part of both.  With no
more deposits after the first than there are dead shares, the first depositor's LP redeems
for no more than was deposited for it and sent after it.
-/

namespace PercolatorStake

open Result Word

/-- What may come between the first deposit and its withdrawal. -/
def Event.besieges : Event → Bool
  | .outside _ | .instruction .accrueFees _ | .instruction (.deposit _) _ => true
  | _ => false

/-- Without tranches, `A` of the LP is worth at most the `T` that was paid for it, less
what of it waits in the vault to be booked, and stays so over `k` more deposits. -/
structure Besieged (A T k : Nat) (b : Book) (vault : Nat) : Prop where
  pooled : b.tranches = false
  room : A + k ≤ b.supply
  priced : ∃ v u : Nat, b.value = v ∧ vault = v + u ∧ u ≤ T ∧
    Shares.Contained A (T - u) k b.supply v

namespace Besieged

variable {A T k vault amount lp x : Nat} {b : Book}

theorem send (h : Besieged A T k b vault) (x : Nat) : Besieged A (T + x) k b (vault + x) := by
  obtain ⟨v, u, hv, hu, hle, hc⟩ := h.priced
  refine ⟨h.pooled, h.room, v, u + x, hv, by omega, by omega, ?_⟩
  rw [Nat.add_sub_add_right]
  exact hc

/-- An accrual books everything that waits. -/
theorem accrue {l l' : Ledger Pubkey} {ms : List (Move Pubkey)}
    (h : Besieged A T k l.book l.vault) (hacc : Accrual ms)
    (hrun : Transition.Run Ledger.Step l ms l') : Besieged A T k l'.book l'.vault := by
  rcases hacc with rfl | ⟨f, j, rfl⟩
  · cases hrun
    exact h
  · obtain ⟨l₁, hm, rfl⟩ := hrun
    cases hm with
    | accrue hf hfee hs hj =>
      rw [if_neg (fun e => Bool.false_ne_true (h.pooled.symm.trans e.1))] at hj
      obtain ⟨v, u, hv, hu, hle, hc⟩ := h.priced
      obtain rfl : f = u := by omega
      refine ⟨h.pooled, h.room, v + f, 0, ?_, hu, Nat.zero_le _, ?_⟩
      · simp only [Book.value] at hv ⊢
        omega
      · have hpaid := hc.pay h.room f
        rwa [Nat.sub_add_cancel hle] at hpaid

theorem deposit (h : Besieged A T (k + 1) b vault) (hpos : 0 < lp)
    (hlp : ∀ v : Nat, b.value = v → lp = Shares.minted b.supply v amount) :
    Besieged A T k (b.deposit amount lp false) (vault + amount) := by
  obtain ⟨v, u, hv, hu, hle, hc⟩ := h.priced
  have hroom := h.room
  have hminted := hlp v hv
  refine ⟨h.pooled, ?_, v + amount, u, ?_, by omega, hle, ?_⟩
  · show A + k ≤ b.supply + lp
    omega
  · simp only [Book.deposit, Book.value] at hv ⊢
    omega
  · show Shares.Contained A (T - u) k (b.supply + lp) (v + amount)
    rw [hminted] at hpos ⊢
    exact hc.mint hpos

theorem accrued {p p₁ : StakePool} {balance : UInt64} (h : Besieged A T k p.book balance.toNat)
    (hacc : accrueFeesInner p balance = .ok p₁) : Besieged A T k p₁.book balance.toNat := by
  obtain ⟨-, ms, hms, hrun⟩ := accrueFeesInner_run (f := fun _ => Position.none) hacc
  exact Besieged.accrue (l := ⟨p.book, balance.toNat, fun _ => Position.none⟩) h hms hrun

theorem redeemed_le (h : Besieged A T k b vault) :
    Shares.redeemed b.ownLp b.ownValue.toNat A ≤ T := by
  obtain ⟨v, u, hv, hu, hle, hc⟩ := h.priced
  have hoff : ¬b.tranches = true := Bool.eq_false_iff.mp h.pooled
  rw [Book.ownLp, Book.ownValue, if_neg hoff, if_neg hoff, hv, Int.toNat_natCast]
  exact hc.redeemed_le.trans (Nat.sub_le _ _)

end Besieged

/-- Without tranches a deposit is priced on the whole pool. -/
theorem priceDeposit_minted {p : StakePool} {amount lp : UInt64}
    (h : priceDeposit p amount = .ok lp) (ht : p.book.tranches = false) {v : Nat}
    (hv : p.book.value = v) : lp.toNat = Shares.minted p.book.supply v amount.toNat := by
  have ht : p.trancheEnabled = false := ht
  unfold priceDeposit StakePool.calcLpForDeposit at h
  rw [if_neg (by rw [ht]; decide)] at h
  simp only [okOr_eq_ok, Option.bind_eq_bind, Option.bind_eq_some_iff] at h
  obtain ⟨value, hvalue, hlp⟩ := h
  rw [StakePool.totalPoolValue_eq_some, hv] at hvalue
  rw [Math.calcLpForDeposit_minted hlp, ← Int.ofNat_inj.mp hvalue]
  rfl

section

variable {ctx : Context} {π : Pubkey} {w w' : World} {p : StakePool} {t : TokenAccount} {m : Mint}
  {e : Event} {later : List Event} {accounts : List AccountInfo} {A T k X : Nat}
  {amount : UInt64}

theorem Besieged.deposit_run (h : Besieged A T (k + 1) p.book t.amount.toNat)
    (hst : Standing ctx π w p t m) (r : DepositRun ctx w accounts false amount w')
    (hpool : ∃ a, accounts[1]? = some a ∧ a.key = π) :
    Besieged A T k r.final.book (t.amount.toNat + amount.toNat) := by
  obtain ⟨-, -, hacc⟩ := r.standing_eq hst hpool
  have haccrued := h.accrued hacc
  have hlp := r.lp_ne
  rw [Ne, eq_zero_iff] at hlp
  rw [r.charter_final.2, r.book_booked.2]
  apply haccrued.deposit (by omega)
  intro v hv
  exact priceDeposit_minted r.price_eq haccrued.pooled hv

/-- One event of the siege: a deposit uses up one of those there is room for. -/
theorem Besieged.step (h : Besieged A T (k + if e.deposits = true then 1 else 0) p.book
      t.amount.toNat) (hvalid : Valid ctx π X w p t m) (he : e.besieges = true)
    (hs : ctx.Step π w e w') :
    ∃ p' t' m', Valid ctx π (X + e.inflow) w' p' t' m' ∧
      Besieged A (T + e.inflow) k p'.book t'.amount.toNat := by
  obtain ⟨p', t', m', ms, hvalid', hreal, hrun⟩ := hvalid.step hs
  refine ⟨p', t', m', hvalid', ?_⟩
  cases e with
  | outside x =>
    cases hreal
    obtain ⟨l, hm, hl⟩ := hrun
    cases hm
    have hbook : p.book = p'.book := congrArg Ledger.book hl
    have hvault : t.amount.toNat + x = t'.amount.toNat := congrArg Ledger.vault hl
    rw [← hbook, ← hvault]
    exact h.send x
  | instruction ix accounts =>
    cases ix with
    | accrueFees => exact h.accrue (l := ledgerOf ctx π w p t) hreal hrun
    | deposit amount =>
      obtain ⟨hpool, hsign, hd⟩ := hs
      obtain ⟨r⟩ := processDeposit_eq_ok.mp hd
      obtain ⟨v, s, hv, -, hst', -⟩ := r.settled hvalid.standing hpool hsign
      obtain rfl : p' = r.final :=
        Option.some_inj.mp (hvalid'.standing.pool_eq.symm.trans hst'.pool_eq)
      obtain rfl := Option.some_inj.mp (hvalid'.standing.vault_eq.symm.trans hst'.vault_eq)
      show Besieged A T k r.final.book v.toNat
      rw [hv]
      exact h.deposit_run hvalid.standing r hpool
    | _ => cases he

theorem Besieged.run (h : Besieged A T (k + later.countP Event.deposits) p.book t.amount.toNat)
    (hvalid : Valid ctx π X w p t m) (hlater : ∀ e ∈ later, e.besieges = true)
    (hrun : Transition.Run (ctx.Step π) w later w') :
    ∃ p' t' m', Valid ctx π (X + (later.map Event.inflow).sum) w' p' t' m' ∧
      Besieged A (T + (later.map Event.inflow).sum) k p'.book t'.amount.toNat := by
  induction later generalizing w p t m T X with
  | nil =>
    cases hrun
    exact ⟨p, t, m, hvalid, h⟩
  | cons e later ih =>
    obtain ⟨u, hs, hrest⟩ := hrun
    rw [List.countP_cons, ← Nat.add_assoc] at h
    obtain ⟨p₁, t₁, m₁, hvalid₁, h₁⟩ := h.step hvalid (hlater e List.mem_cons_self) hs
    rw [List.map_cons, List.sum_cons, ← Nat.add_assoc, ← Nat.add_assoc]
    exact ih h₁ hvalid₁ (fun e he => hlater e (List.mem_cons_of_mem _ he)) hrest

/-- A first deposit mints something. -/
theorem applyMinimumLiquidityLock_first {lp x : UInt64}
    (h : applyMinimumLiquidityLock 0 lp = .ok x) :
    minimumLiquidity < lp ∧ x = lp - minimumLiquidity := by
  have hlp := applyMinimumLiquidityLock_eq_ok h
  rw [if_pos rfl] at hlp
  unfold applyMinimumLiquidityLock at h
  simp only [if_neg (not_not.mpr (rfl : (0 : UInt64) = 0)), bind_eq_ok, okOr_eq_ok, rejectIf_eq_ok,
    ok_eq_ok] at h
  obtain ⟨y, -, _, hne, rfl⟩ := h
  rw [eq_zero_iff] at hne
  have hlt : minimumLiquidity < lp := by
    rw [UInt64.lt_iff_toNat_lt]
    omega
  refine ⟨hlt, ?_⟩
  rw [← UInt64.toNat_inj, UInt64.toNat_sub_of_le _ _ (UInt64.le_of_lt hlt)]
  omega

/-- The first deposit is priced one for one. -/
theorem DepositRun.first (r : DepositRun ctx w accounts false amount w')
    (hst : Standing ctx π w p t m) (hpool : ∃ a, accounts[1]? = some a ∧ a.key = π)
    (huntouched : p.book.Untouched) (htranche : p.book.tranches = false) :
    minimumLiquidity < amount ∧ r.mintAmount = amount - minimumLiquidity ∧
      r.final.book = p.book.deposit amount.toNat amount.toNat false := by
  obtain ⟨-, -, hacc⟩ := r.standing_eq hst hpool
  obtain ⟨hsupply, hvalue⟩ := huntouched.supply_eq
  have haccrued : r.accrued.book = p.book := by
    obtain ⟨-, ⟨hsame, -⟩ | ⟨f, j, -, hpos, -, -, -⟩⟩ := accrueFeesInner_book hacc
    · exact hsame
    · omega
  have hlp : r.lp = amount := by
    rw [← UInt64.toNat_inj, priceDeposit_minted (v := 0) r.price_eq (haccrued ▸ htranche)
      (haccrued ▸ hvalue), haccrued, hsupply]
    exact (Nat.div_one _).trans (Nat.mul_one _)
  have hcounted : r.accrued.totalLpSupply = 0 := by
    rw [eq_zero_iff, ← hsupply, ← haccrued]
    rfl
  have hlock := r.lock_eq
  rw [hcounted, hlp] at hlock
  obtain ⟨hlt, hminted⟩ := applyMinimumLiquidityLock_first hlock
  refine ⟨hlt, hminted, ?_⟩
  rw [r.charter_final.2, r.book_booked.2, haccrued, hlp]

/-- Before anything else is paid the first deposit is worth itself, and its dead shares
leave room for as many deposits. -/
theorem contained_first {a : Nat} (h : 1000 ≤ a) : Shares.Contained (a - 1000) a 1000 a a := by
  obtain ⟨r, rfl⟩ := Nat.exists_eq_add_of_le h
  rw [Nat.add_sub_cancel_left]
  unfold Shares.Contained
  nlinarith

theorem Besieged.first {b : Book} {a : Nat} (hb : b.Untouched) (htranche : b.tranches = false)
    (ha : 1000 ≤ a) (vault : Nat) :
    Besieged (a - 1000) (a + vault) 1000 (b.deposit a a false) (vault + a) := by
  obtain ⟨hsupply, hvalue⟩ := hb.supply_eq
  have hs : (b.deposit a a false).supply = a := by
    show b.supply + a = a
    omega
  refine ⟨htranche, by omega, a, vault, ?_, Nat.add_comm _ _, by omega, ?_⟩
  · simp only [Book.deposit, Book.value] at hvalue ⊢
    omega
  · rw [hs, Nat.add_sub_cancel]
    exact contained_first ha

/-- The first deposit begins the siege. -/
theorem Besieged.start {es : List Event} {w₀ w₁ : World} {p₀ : StakePool} {a : UInt64}
    (h : ctx.Reached π es w₀) (hp : w₀.pool ctx.programId π = some p₀)
    (hempty : p₀.totalLpSupply = 0) (htranche : p₀.trancheEnabled = false)
    (hs : ctx.Step π w₀ (.instruction (.deposit a) accounts) w₁) :
    minimumLiquidity < a ∧ ∃ p t m, Valid ctx π (es.map Event.inflow).sum w₁ p t m ∧
      p.lpMint = p₀.lpMint ∧ m.supply = a - minimumLiquidity ∧
      Besieged (a - minimumLiquidity).toNat (a.toNat + (es.map Event.inflow).sum)
        minimumLiquidity.toNat p.book t.amount.toNat := by
  obtain ⟨p, t, m, hvalid, hlocked⟩ := h.locked
  obtain rfl : p₀ = p := Option.some_inj.mp (hp.symm.trans hvalid.standing.pool_eq)
  have hbegun := hlocked
  unfold Locked at hbegun
  rw [hlocked.supply_eq_zero_iff.mp hempty, if_neg (by decide)] at hbegun
  obtain ⟨huntouched, hsupply⟩ := hbegun
  -- nothing is booked, so all there is in the vault came from outside
  have hvault : t.amount.toNat = (es.map Event.inflow).sum := by
    obtain ⟨multiplier, tranches, hbook⟩ := huntouched
    have hbalanced := hvalid.sound.toBalanced.vault_eq
    change (t.amount.toNat : Int) = p₀.book.deposited - p₀.book.withdrawn -
      p₀.book.flushed + p₀.book.returned - p₀.book.realized + (es.map Event.inflow).sum at hbalanced
    rw [hbook] at hbalanced
    simp only [Book.empty] at hbalanced
    omega
  obtain ⟨p', t', m', -, hvalid', -, -⟩ := hvalid.step hs
  obtain ⟨hpool, hsign, hd⟩ := hs
  obtain ⟨r⟩ := processDeposit_eq_ok.mp hd
  obtain ⟨v, s, hv, hs, hst', hcharter, -⟩ := r.settled hvalid.standing hpool hsign
  obtain rfl : p' = r.final :=
    Option.some_inj.mp (hvalid'.standing.pool_eq.symm.trans hst'.pool_eq)
  have ht' := Option.some_inj.mp (hvalid'.standing.vault_eq.symm.trans hst'.vault_eq)
  have hm' := Option.some_inj.mp (hvalid'.standing.mint_eq.symm.trans hst'.mint_eq)
  obtain ⟨hlt, hminted, hfinal⟩ := r.first hvalid.standing hpool huntouched htranche
  have hA : (a - minimumLiquidity).toNat = a.toNat - 1000 :=
    UInt64.toNat_sub_of_le _ _ (UInt64.le_of_lt hlt)
  refine ⟨hlt, r.final, t', m', hvalid', lpMint_of_charter hcharter, ?_, ?_⟩
  · rw [hm', ← UInt64.toNat_inj]
    show s.toNat = _
    rw [hs, hsupply, Nat.zero_add, hminted]
  · have hend : t'.amount.toNat = t.amount.toNat + a.toNat := by
      rw [ht']
      exact hv
    rw [hA, hfinal, hend, ← hvault]
    exact Besieged.first huntouched htranche (UInt64.le_iff_toNat_le.mp (UInt64.le_of_lt hlt)) _

/-- No profit for a first depositor of `a`.  The LP minted for it redeems for at most `a`
and what was ever sent to the vault, however deposits, accruals and collateral sent
alternate, with at most as many deposits as there are dead shares. -/
theorem inflation_never_profits {es : List Event} {w₀ w₁ w₂ : World} {p₀ : StakePool} {a : UInt64}
    (h : ctx.Reached π es w₀) (hp : w₀.pool ctx.programId π = some p₀)
    (hempty : p₀.totalLpSupply = 0) (htranche : p₀.trancheEnabled = false)
    (hs : ctx.Step π w₀ (.instruction (.deposit a) accounts) w₁)
    (hrun : Transition.Run (ctx.Step π) w₁ later w₂) (hlater : ∀ e ∈ later, e.besieges = true)
    (hcount : later.countP Event.deposits ≤ minimumLiquidity.toNat) :
    minimumLiquidity < a ∧
    (∃ m, w₁.mint p₀.lpMint = some m ∧ m.supply = a - minimumLiquidity) ∧
    ∃ p t, w₂.pool ctx.programId π = some p ∧ w₂.token p.vault = some t ∧
      (∀ q c, accrueFeesInner p t.amount = .ok q →
        q.calcCollateralForWithdraw (a - minimumLiquidity) = some c →
        c.toNat ≤ a.toNat + ((es ++ later).map Event.inflow).sum) ∧
      ∀ accounts w₃,
        ctx.Step π w₂ (.instruction (.withdraw (a - minimumLiquidity)) accounts) w₃ →
        ∃ p', w₃.pool ctx.programId π = some p' ∧
          payout p p' ≤ a.toNat + ((es ++ later).map Event.inflow).sum := by
  obtain ⟨hlt, p₁, t₁, m₁, hvalid₁, hmint, hsupply, hbegun⟩ :=
    Besieged.start h hp hempty htranche hs
  rw [← Nat.sub_add_cancel hcount] at hbegun
  obtain ⟨p, t, m, hvalid, hend⟩ := hbegun.run hvalid₁ hlater hrun
  rw [List.map_append, List.sum_append, ← Nat.add_assoc]
  refine ⟨hlt, ⟨m₁, hmint ▸ hvalid₁.standing.mint_eq, hsupply⟩, p, t, hvalid.standing.pool_eq,
    hvalid.standing.vault_eq, ?_, ?_⟩
  · intro q c hq hc
    have hafter := hend.accrued hq
    have hoff : ¬q.trancheEnabled = true := Bool.eq_false_iff.mp hafter.pooled
    have hprice : priceWithdraw q false (a - minimumLiquidity) = .ok c := by
      unfold priceWithdraw
      rw [if_neg (fun e => hoff e.1), if_neg hoff, hc]
      rfl
    have hpaid := priceWithdraw_spec hprice
    rw [if_neg (fun e => hoff e.1)] at hpaid
    rw [hpaid.2]
    exact hafter.redeemed_le
  · intro accounts w₃ hwithdraw
    obtain ⟨hpool, -, hd⟩ := hwithdraw
    obtain ⟨r⟩ := processWithdraw_eq_ok.mp hd
    obtain ⟨v, s, -, -, hst', -⟩ := r.settled hvalid.standing hpool
    refine ⟨r.final, hst'.pool_eq, ?_⟩
    rw [r.payout_eq hvalid.standing hpool]
    obtain ⟨-, -, hacc⟩ := r.standing_eq hvalid.standing hpool
    have hafter := hend.accrued hacc
    have hprice := priceWithdraw_spec r.price_eq
    rw [if_neg (fun e => Bool.false_ne_true (hafter.pooled.symm.trans e.1))] at hprice
    rw [hprice.2]
    exact hafter.redeemed_le

end

namespace Sample

/-- Alice sends more than anybody deposits, and two deposits lose to rounding. -/
def siege : List Action := [.send 5000, deposit bob 2999, .send 20, deposit bob 4001, accrue]

theorem inflation_besieged :
    (run (deposit alice 3000 :: siege)).isSome = true ∧
    ∃ p t, (after (deposit alice 3000 :: siege)).pool Sample.ctx.programId pool = some p ∧
      (after (deposit alice 3000 :: siege)).token p.vault = some t ∧
      ∀ q c, accrueFeesInner p t.amount = .ok q →
        q.calcCollateralForWithdraw 2000 = some c → c.toNat ≤ 8020 := by
  have hall : (run ([] ++ (deposit alice 3000 :: siege))).isSome = true := by decide +kernel
  obtain ⟨hscript, hlater⟩ := after_run (s := [deposit alice 3000]) (r := siege) hall
  have hfirst := after_step (s := []) (a := deposit alice 3000) hscript
  have hstate : ((after []).pool Sample.ctx.programId pool).map (fun p =>
      (p.totalLpSupply, p.trancheEnabled)) = some (0, false) := by decide +kernel
  obtain ⟨p₀, hp₀, hstate⟩ := Option.map_eq_some_iff.mp hstate
  simp only [Prod.mk.injEq] at hstate
  obtain ⟨-, -, p, t, hp, ht, hpays, -⟩ := inflation_never_profits
    (after_reached (s := []) hfirst.1) hp₀ hstate.1 hstate.2 hfirst.2 hlater
    (by decide) (by decide)
  exact ⟨hall, p, t, hp, ht, hpays⟩

end Sample

end PercolatorStake
