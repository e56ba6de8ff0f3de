import PercolatorStake.Execution
import PercolatorStake.Effect.Settings

/-!
# The dead shares

The first deposit of a pool counts a thousand LP more than it mints.  That gap
between the counter and the supply of the LP mint is never closed: a withdrawal
takes the same amount from both, a burn outside the program takes from the supply
only, and nothing but a deposit mints.
-/

namespace PercolatorStake

open Result Word

/-! ## Before the first deposit -/

/-- Nothing has been booked yet.  Tranches may have been configured. -/
def Book.Untouched (b : Book) : Prop :=
  ∃ multiplier tranches, b = { Book.empty with multiplier := multiplier, tranches := tranches }

def Move.deposits {K : Type} : Move K → Bool
  | .deposit .. | .depositJunior .. => true
  | _ => false

def Event.deposits : Event → Bool
  | .instruction (.deposit _) _ | .instruction (.depositJunior _) _ => true
  | _ => false

theorem Book.Untouched.supply_eq {b : Book} (h : b.Untouched) : b.supply = 0 ∧ b.value = 0 := by
  obtain ⟨multiplier, tranches, rfl⟩ := h
  exact ⟨rfl, rfl⟩

/-- Only a deposit starts the books. -/
theorem Ledger.Step.untouched {K : Type} [DecidableEq K] {l l' : Ledger K} {m : Move K}
    (hm : Ledger.Step l m l') (h : l.book.Untouched) (hd : m.deposits = false) :
    l'.book.Untouched := by
  obtain ⟨hsupply, hvalue⟩ := h.supply_eq
  cases hm with
  | accrue hf hv hs hj => omega
  | deposit | depositJunior => cases hd
  | withdraw hlp _ _ _ _ _ _ _ hle | withdrawJunior hlp _ _ _ _ _ _ hle
  | exitJunior hlp _ _ _ _ _ _ hle => omega
  | flush hx hle => omega
  | giveBack hx hle =>
    obtain ⟨multiplier, tranches, hb⟩ := h
    rw [hb] at hle
    have hle : _ ≤ 0 := hle
    omega
  | recover hx hle =>
    obtain ⟨multiplier, tranches, hb⟩ := h
    rw [hb] at hle
    have hle : _ ≤ 0 := hle
    omega
  | @setTranches mult =>
    obtain ⟨multiplier, tranches, hb⟩ := h
    refine ⟨mult, true, ?_⟩
    simp only [hb]
  | inflow => exact h

theorem Realizes.deposits {ctx : Context} {π : Pubkey} {e : Event} {ms : List (Move Pubkey)}
    (h : Realizes ctx π e ms) (he : e.deposits = false) : ∀ mv ∈ ms, mv.deposits = false := by
  intro mv hmv
  cases h.moves mv hmv with
  | deposit | depositJunior => cases he
  | withdraw _ hw => rcases hw with rfl | rfl | rfl <;> rfl
  | _ => rfl

/-! ## The LP mint -/

section

variable {ctx : Context} {π : Pubkey} {w w₁ w' : World} {es : List Event}
  {accounts : List AccountInfo} {X : Nat} {p : StakePool} {t : TokenAccount} {m : Mint}
  {e : Event} {ix : StakeInstruction}

/-- No other instruction touches a mint. -/
theorem process_mint_eq (h : process ctx w accounts ix = .ok w') (hix : ix.mints = false)
    (k : Pubkey) : w'.mint k = w.mint k := by
  obtain ⟨w₁, k', q, q', -, hmint, hq, rfl⟩ := process_plain h hix
  rw [mint_setPool hq, hmint]

/-! ## The lock -/

/-- The gap between the LP counter and the supply of the LP mint, after the events
`es`. -/
def Locked (es : List Event) (p : StakePool) (m : Mint) : Prop :=
  if es.any Event.deposits = true then
    m.supply.toNat + minimumLiquidity.toNat ≤ p.book.supply
  else p.book.Untouched ∧ m.supply.toNat = 0

theorem Locked.supply_eq_zero_iff (h : Locked es p m) :
    p.totalLpSupply = 0 ↔ es.any Event.deposits = false := by
  unfold Locked at h
  rw [eq_zero_iff]
  show p.book.supply = 0 ↔ _
  have hmin : minimumLiquidity.toNat = 1000 := rfl
  split at h
  · rename_i hd
    rw [hd]
    constructor
    · intro h0
      omega
    · intro h0
      cases h0
  · rename_i hd
    exact ⟨fun _ => Bool.eq_false_iff.mpr hd, fun _ => h.1.supply_eq.1⟩

theorem applyMinimumLiquidityLock_eq_ok {supply lp x : UInt64}
    (h : applyMinimumLiquidityLock supply lp = .ok x) :
    lp.toNat = x.toNat + if supply = 0 then minimumLiquidity.toNat else 0 := by
  unfold applyMinimumLiquidityLock at h
  by_cases hs : supply ≠ 0
  · rw [if_pos hs, ok_eq_ok] at h
    rw [h, if_neg hs]
    rfl
  · simp only [if_neg hs, bind_eq_ok, okOr_eq_ok, checkedSub_eq_some, ok_eq_ok] at h
    obtain ⟨y, hy, _, -, rfl⟩ := h
    rw [if_pos (not_not.mp hs)]
    exact hy

theorem accrueFeesInner_supply {p₁ : StakePool} {b : UInt64} (h : accrueFeesInner p b = .ok p₁) :
    p₁.book.supply = p.book.supply := by
  obtain ⟨-, ⟨hbook, -⟩ | ⟨f, j, -, -, -, hbook, -⟩⟩ := accrueFeesInner_book h
  · rw [hbook]
  · rw [hbook]
    rfl

/-- The LP a deposit counts beyond what it mints. -/
theorem Locked.deposit_lock {junior : Bool} {amount : UInt64} (h : Locked es p m)
    (hst : Standing ctx π w p t m) (r : DepositRun ctx w accounts junior amount w')
    (hpool : ∃ a, accounts[1]? = some a ∧ a.key = π) :
    r.lp.toNat = r.mintAmount.toNat +
      if es.any Event.deposits = true then 0 else minimumLiquidity.toNat := by
  obtain ⟨-, rfl, hacc⟩ := r.standing_eq hst hpool
  have hsupply : r.accrued.totalLpSupply = r.pool.totalLpSupply :=
    UInt64.toNat_inj.mp (accrueFeesInner_supply hacc)
  have hlock := applyMinimumLiquidityLock_eq_ok r.lock_eq
  rw [hsupply] at hlock
  rw [hlock]
  by_cases h0 : r.pool.totalLpSupply = 0
  · rw [if_pos h0, h.supply_eq_zero_iff.mp h0]
    rfl
  · have hd : es.any Event.deposits = true := by
      by_contra hd
      exact h0 (h.supply_eq_zero_iff.mpr (Bool.eq_false_iff.mpr hd))
    rw [if_neg h0, if_pos hd]

theorem Locked.deposit {junior : Bool} {amount : UInt64} (h : Locked es p m)
    (hst : Standing ctx π w p t m) (r : DepositRun ctx w accounts junior amount w')
    (hpool : ∃ a, accounts[1]? = some a ∧ a.key = π)
    (hsign : ∀ a ∈ accounts, a.isSigner = true → a.key ≠ ctx.vaultAuthority π) :
    ∃ t' m', Standing ctx π w' r.final t' m' ∧
      m'.supply.toNat + minimumLiquidity.toNat ≤ r.final.book.supply := by
  have hlock := h.deposit_lock hst r hpool
  obtain ⟨v, s, -, hs, hst', -, -, -⟩ := r.settled hst hpool hsign
  obtain ⟨-, rfl, hacc⟩ := r.standing_eq hst hpool
  refine ⟨_, _, hst', ?_⟩
  have hsupply : r.final.book.supply = r.pool.book.supply + r.lp.toNat := by
    rw [r.charter_final.2, r.book_booked.2, ← accrueFeesInner_supply hacc]
    cases junior <;> rfl
  show s.toNat + _ ≤ _
  unfold Locked at h
  split at h
  · rename_i hd
    rw [if_pos hd] at hlock
    omega
  · rename_i hd
    rw [if_neg hd] at hlock
    have h0 := h.1.supply_eq.1
    omega

/-- A move on nobody's position leaves the LP counter alone. -/
theorem Ledger.Step.supply_eq {K : Type} [DecidableEq K] {l l' : Ledger K} {mv : Move K}
    (hm : Ledger.Step l mv l') (h : mv.holder = none) : l'.book.supply = l.book.supply := by
  cases hm with
  | deposit | depositJunior | withdraw | withdrawJunior | exitJunior => cases h
  | _ => rfl

theorem Realizes.holder_eq {ms : List (Move Pubkey)}
    (h : Realizes ctx π (.instruction ix accounts) ms)
    (hix : ix.mints = false) : ∀ mv ∈ ms, mv.holder = none := by
  intro mv hmv
  cases h.moves mv hmv with
  | deposit | depositJunior | withdraw => cases hix
  | _ => rfl

/-- Without a deposit the supply of the mint never rises, and the counter falls by no
more than the supply does. -/
theorem Valid.gap_step (h : Valid ctx π X w p t m) (hs : ctx.Step π w e w')
    (he : e.deposits = false) {p' : StakePool} {t' : TokenAccount} {m' : Mint}
    (h' : Standing ctx π w' p' t' m') :
    m'.supply.toNat ≤ m.supply.toNat ∧
      p.book.supply + m'.supply.toNat ≤ p'.book.supply + m.supply.toNat := by
  obtain ⟨p₁, t₁, m₁, ms, hvalid₁, hreal, hrun⟩ := h.step hs
  obtain rfl : p' = p₁ :=
    Option.some_inj.mp (h'.pool_eq.symm.trans hvalid₁.standing.pool_eq)
  cases e with
  | outside x =>
    have hout : ctx.Outside π x w w' := hs
    obtain rfl : p' = p :=
      Option.some_inj.mp (h'.pool_eq.symm.trans (hout.pool_eq.trans h.standing.pool_eq))
    obtain ⟨supply, hle, hmint⟩ := hout.mint_eq h.standing.pool_eq h.standing.mint_eq
    obtain rfl := Option.some_inj.mp (h'.mint_eq.symm.trans hmint)
    exact ⟨hle, Nat.add_le_add_left hle _⟩
  | instruction ix accounts =>
    cases hix : ix.mints with
    | false =>
      have hmint := process_mint_eq hs.2.2 hix p.lpMint
      obtain ⟨q, hrw, -, -⟩ := h.standing.settings_step hs
      obtain rfl : p' = q := Option.some_inj.mp (h'.pool_eq.symm.trans hrw.after)
      have hm' := h'.mint_eq
      rw [lpMint_of_charter hrw.charter_eq, hmint, h.standing.mint_eq] at hm'
      obtain rfl := Option.some_inj.mp hm'
      have hsupply : p'.book.supply = p.book.supply := by
        refine Transition.Run.invariant (I := fun l => l.book.supply = p.book.supply) hrun ?_ rfl
        intro mv hmv l l' hl hm
        exact (hm.supply_eq (hreal.holder_eq hix mv hmv)).trans hl
      omega
    | true =>
      cases ix with
      | withdraw lp =>
        obtain ⟨hpool, -, hd⟩ := hs
        obtain ⟨r⟩ := processWithdraw_eq_ok.mp hd
        obtain ⟨v, s, -, hsup, hst', -⟩ := r.settled h.standing hpool
        obtain rfl : p' = r.final := Option.some_inj.mp (h'.pool_eq.symm.trans hst'.pool_eq)
        obtain rfl := Option.some_inj.mp (h'.mint_eq.symm.trans hst'.mint_eq)
        obtain ⟨-, rfl, hacc⟩ := r.standing_eq h.standing hpool
        obtain ⟨-, hle, hbook⟩ := bookWithdraw_book r.book_eq
        rw [r.book_floored.2] at hle hbook
        have hsupply : r.final.book.supply = r.accrued.book.supply - lp.toNat := by
          split at hbook
          · rcases hbook with ⟨-, hbook⟩ | ⟨-, -, hbook⟩
            · rw [hbook]
              rfl
            · rw [hbook]
              rfl
          · rw [hbook]
            rfl
        have hacc' := accrueFeesInner_supply hacc
        show s.toNat ≤ _ ∧ _ + s.toNat ≤ _
        omega
      | initPool | initTradingPool =>
        obtain ⟨q, -, hstep, -⟩ := h.standing.settings_step hs
        exact hstep.elim
      | deposit | depositJunior => cases he
      | _ => cases hix

theorem Locked.step (h : Locked es p m) (hvalid : Valid ctx π X w p t m)
    (hs : ctx.Step π w e w') :
    ∃ p' t' m', Valid ctx π (X + e.inflow) w' p' t' m' ∧ Locked (es ++ [e]) p' m' := by
  obtain ⟨p', t', m', ms, hvalid', hreal, hrun⟩ := hvalid.step hs
  refine ⟨p', t', m', hvalid', ?_⟩
  unfold Locked
  rw [List.any_append, List.any_cons, List.any_nil, Bool.or_false]
  cases he : e.deposits with
  | true =>
    rw [Bool.or_true, if_pos rfl]
    -- the two deposits differ in which run they unfold to
    have hdeposit : ∀ {junior accounts amount}, (∃ a, accounts[1]? = some a ∧ a.key = π) →
        (∀ a ∈ accounts, a.isSigner = true → a.key ≠ ctx.vaultAuthority π) →
        DepositRun ctx w accounts junior amount w' →
        m'.supply.toNat + minimumLiquidity.toNat ≤ p'.book.supply := by
      intro junior accounts amount hpool hsign r
      obtain ⟨t₁, m₁, hst, hle⟩ := h.deposit hvalid.standing r hpool hsign
      obtain rfl : p' = r.final :=
        Option.some_inj.mp (hvalid'.standing.pool_eq.symm.trans hst.pool_eq)
      obtain rfl := Option.some_inj.mp (hvalid'.standing.mint_eq.symm.trans hst.mint_eq)
      exact hle
    cases e with
    | outside => cases he
    | instruction ix accounts =>
      obtain ⟨hpool, hsign, hd⟩ := hs
      cases ix with
      | deposit =>
        obtain ⟨r⟩ := processDeposit_eq_ok.mp hd
        exact hdeposit hpool hsign r
      | depositJunior =>
        obtain ⟨r⟩ := processDepositJunior_eq_ok.mp hd
        exact hdeposit hpool hsign r
      | _ => cases he
  | false =>
    obtain ⟨hmint, hgap⟩ := hvalid.gap_step hs he hvalid'.standing
    rw [Bool.or_false]
    unfold Locked at h
    by_cases hd : es.any Event.deposits = true
    · rw [if_pos hd] at h ⊢
      omega
    · rw [if_neg hd] at h ⊢
      refine ⟨?_, by omega⟩
      refine Transition.Run.invariant (I := fun l => l.book.Untouched) hrun ?_ h.1
      intro mv hmv l l' hl hm
      exact hm.untouched hl (hreal.deposits he mv hmv)

theorem Context.Reached.locked (h : ctx.Reached π es w) :
    ∃ p t m, Valid ctx π (es.map Event.inflow).sum w p t m ∧ Locked es p m := by
  apply h.history (P := fun es w => ∃ p t m, Valid ctx π (es.map Event.inflow).sum w p t m ∧
    Locked es p m)
  · intro w hgenesis
    obtain ⟨p, t, m, hs, hledger, hsupply⟩ := hgenesis.standing
    have hbook : p.book = Book.empty := congrArg Ledger.book hledger
    refine ⟨p, t, m, ⟨hs, hledger ▸ Ledger.sound_empty⟩, ?_⟩
    unfold Locked
    rw [List.any_nil, if_neg (by decide)]
    exact ⟨⟨0, false, hbook⟩, eq_zero_iff.mp hsupply⟩
  · intro es w e w' _ hw hs
    obtain ⟨p, t, m, hvalid, hlocked⟩ := hw
    obtain ⟨p', t', m', hvalid', hlocked'⟩ := hlocked.step hvalid hs
    rw [List.map_append, List.sum_append, List.map_singleton, List.sum_singleton]
    exact ⟨p', t', m', hvalid', hlocked'⟩

/-- Before the first deposit there is neither LP nor value.  From the first deposit
on, of either kind, the LP mint is at least the dead shares short of the LP counter.
That deposit alone counts more LP than it mints. -/
theorem dead_share_lock (h : ctx.Reached π es w) :
    ∃ p m, w.pool ctx.programId π = some p ∧ w.mint p.lpMint = some m ∧
      m.mintAuthority = some (ctx.vaultAuthority π) ∧
      (if es.any Event.deposits = true then
        m.supply.toNat + minimumLiquidity.toNat ≤ p.totalLpSupply.toNat
      else p.totalLpSupply = 0 ∧ m.supply = 0 ∧ p.totalPoolValue = some 0) ∧
      ∀ junior accounts amount w' (r : DepositRun ctx w accounts junior amount w'),
        r.a.poolPda.key = π → r.lp.toNat = r.mintAmount.toNat +
          if es.any Event.deposits = true then 0 else minimumLiquidity.toNat := by
  obtain ⟨p, t, m, hvalid, hlocked⟩ := h.locked
  refine ⟨p, m, hvalid.standing.pool_eq, hvalid.standing.mint_eq, hvalid.standing.mint_authority,
    ?_, ?_⟩
  · have hl := hlocked
    unfold Locked at hl
    split
    · rename_i hd
      rw [if_pos hd] at hl
      exact hl
    · rename_i hd
      rw [if_neg hd] at hl
      obtain ⟨hsupply, hvalue⟩ := hl.1.supply_eq
      refine ⟨eq_zero_iff.mpr hsupply, eq_zero_iff.mpr hl.2, ?_⟩
      rw [StakePool.totalPoolValue_eq_some, hvalue]
      rfl
  · intro junior accounts amount w' r hk
    exact hlocked.deposit_lock hvalid.standing r
      ⟨_, (DepositAccounts.next_eq_ok r.next_eq).2, hk⟩

/-- A junior deposit comes first, LP is redeemed, and a senior deposit follows. -/
def Sample.lockedOnce : List Action :=
  [enableTranches, depositJunior bob 50000, .tick ⟨200, 1⟩, withdraw bob 20000,
    deposit alice 3000]

theorem Sample.dead_share_lock_once :
    ∃ p m, (after lockedOnce).pool Sample.ctx.programId pool = some p ∧
      (after lockedOnce).mint p.lpMint = some m ∧
      m.supply.toNat + minimumLiquidity.toNat ≤ p.totalLpSupply.toNat := by
  obtain ⟨p, m, hp, hm, -, hlock, -⟩ :=
    dead_share_lock (after_reached (s := lockedOnce) (by decide +kernel))
  rw [if_pos (by decide)] at hlock
  exact ⟨p, m, hp, hm, hlock⟩

end

end PercolatorStake
