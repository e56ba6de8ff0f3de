import PercolatorStake.Execution

/-!
# The gate on junior deposits

The exit of the last junior settles on paper the loss the tranche absorbed: the loss
counts as returned and as realized.  The gate on junior deposits takes the realized
loss out of what was returned again, so what was settled on paper holds it shut, and
with nothing left to come back only what the admin paid in can open it.
-/

namespace PercolatorStake

open Result Word

/-! ## What the admin pays in -/

def Event.givenBack : Event → Nat
  | .instruction (.returnInsurance amount) _ => amount.toNat
  | _ => 0

def Move.givenBack {K : Type} : Move K → Nat
  | .giveBack x => x
  | _ => 0

/-- What was returned came out of the wrapper, was settled on paper, or was paid in. -/
theorem Ledger.Step.returned_eq {K : Type} [DecidableEq K] {l l' : Ledger K} {mv : Move K} {n : Nat}
    (hm : Ledger.Step l mv l') (h : l.book.returned = l.book.recovered + l.book.realized + n) :
    l'.book.returned = l'.book.recovered + l'.book.realized + (n + mv.givenBack) := by
  cases hm <;> simp only [Move.givenBack] <;> omega

section

variable {ctx : Context} {π : Pubkey} {w w' : World} {p p' : StakePool} {t : TokenAccount}
  {t' : TokenAccount} {m : Mint} {e : Event} {es : List Event} {ms : List (Move Pubkey)} {X : Nat}
  {l l' : Ledger Pubkey}

theorem Realizes.givenBack (h : Realizes ctx π e ms) :
    (ms.map Move.givenBack).sum = e.givenBack := by
  cases e with
  | outside x =>
    rw [show ms = _ from h]
    rfl
  | instruction ix accounts =>
    cases ix with
    | deposit amount | depositJunior amount =>
      obtain ⟨_, acc, _, -, ha, rfl⟩ := h
      rw [List.map_append, List.sum_append, ha.sum_eq_zero fun _ _ => rfl]
      rfl
    | withdraw lp =>
      obtain ⟨_, acc, _, mv, -, ha, hmv, rfl⟩ := h
      rw [List.map_append, List.sum_append, ha.sum_eq_zero fun _ _ => rfl]
      rcases hmv with rfl | rfl | rfl <;> rfl
    | accrueFees => exact Accrual.sum_eq_zero h fun _ _ => rfl
    | returnInsurance amount =>
      rw [show ms = _ from h]
      exact Nat.add_zero _
    | _ =>
      rw [show ms = _ from h]
      rfl

theorem Context.Reached.returned_eq (h : ctx.Reached π es w) :
    ∃ p t m, Valid ctx π (es.map Event.inflow).sum w p t m ∧
      p.book.returned = p.book.recovered + p.book.realized + (es.map Event.givenBack).sum := by
  apply h.by_true.tally Event.givenBack (I := fun n l =>
    l.book.returned = l.book.recovered + l.book.realized + n)
  · intro e _ n X w w' p t m p' t' ms _ _ _ hreal hrun hn
    rw [← hreal.givenBack]
    exact hrun.tally (I := fun n l => l.book.returned = l.book.recovered + l.book.realized + n)
      Move.givenBack (fun _ _ _ _ _ h hm => hm.returned_eq h) hn
  · rfl

/-! ## What the last junior forfeits -/

/-- The withdrawal of all junior LP while insurance is out and the junior tranche has a
balance to absorb it. -/
def Context.ForfeitingExit (ctx : Context) (π : Pubkey) (w : World) : Event → Prop
  | .instruction (.withdraw lp) accounts =>
    ∃ user p d, accounts[0]? = some user ∧ w.pool ctx.programId π = some p ∧
      w.record ctx.programId (ctx.depositPda π user.key) = some d ∧ p.trancheEnabled = true ∧
      d.isJuniorDeposit = true ∧ lp = p.juniorTotalLp ∧ p.totalReturned < p.totalFlushed ∧
      0 < p.juniorBalance
  | _ => False

/-- The exit of the last junior with a loss for it to absorb. -/
def Ledger.Forfeiting {K : Type} (l : Ledger K) : Move K → Prop
  | .exitJunior .. => l.book.returned < l.book.flushed ∧ 0 < l.book.juniorBalance
  | _ => False

theorem Ledger.Step.realized_eq_iff {K : Type} [DecidableEq K] {l l' : Ledger K} {mv : Move K}
    (hm : Ledger.Step l mv l') : l'.book.realized = l.book.realized ↔ ¬Ledger.Forfeiting l mv := by
  cases hm with
  | exitJunior =>
    show l.book.realized + (l.book.juniorBalance - l.book.effectiveJunior) = _ ↔
      ¬(l.book.returned < l.book.flushed ∧ 0 < l.book.juniorBalance)
    unfold Book.effectiveJunior Book.netLoss
    omega
  | _ => exact ⟨fun _ e => e, fun _ => rfl⟩

theorem Valid.forfeiting_iff {lp : UInt64} {accounts : List AccountInfo} {user : AccountInfo}
    {acc : List (Move Pubkey)} {x : Nat} {mv : Move Pubkey} (h : Valid ctx π X w p t m)
    (hs : ctx.Step π w (.instruction (.withdraw lp) accounts) w')
    (huser : accounts[0]? = some user) (hacc : Accrual acc)
    (hmv : Withdrawal (ctx.depositPda π user.key) lp.toNat x mv)
    (hrun : Transition.Run Ledger.Step (ledgerOf ctx π w p t) acc l) (hm : Ledger.Step l mv l') :
    Ledger.Forfeiting l mv ↔
      ctx.ForfeitingExit π w (.instruction (.withdraw lp) accounts) := by
  obtain ⟨user', d, -, huser', hd, hj, -⟩ := h.standing.withdraw_reads hs
  obtain rfl : user = user' := Option.some_inj.mp (huser.symm.trans huser')
  obtain ⟨f, j, rfl, hj0⟩ := hacc.eq_accrued hrun
  have hmove := hmv.eq_of_step hm
  constructor
  · intro hf
    split at hmove
    · rename_i ht
      split at hmove
      · rename_i hlast
        subst hmove
        obtain ⟨hloss, hpos⟩ := hf
        have hpos : 0 < p.book.juniorBalance + j := hpos
        have hbal : p.book.juniorBalance = 0 → j = 0 := hj0
        exact ⟨user, p, d, huser, h.standing.pool_eq, hd, ht.1, hj.symm.trans ht.2,
          UInt64.toNat_inj.mp hlast, UInt64.lt_iff_toNat_lt.mpr hloss,
          pos_iff.mpr (show 0 < p.book.juniorBalance by omega)⟩
      · subst hmove
        exact hf.elim
    · subst hmove
      exact hf.elim
  · intro hf
    obtain ⟨user', q, d', huser', hp, hd', ht, hflag, hlast, hloss, hpos⟩ := hf
    obtain rfl : user = user' := Option.some_inj.mp (huser.symm.trans huser')
    obtain rfl : p = q := Option.some_inj.mp (h.standing.pool_eq.symm.trans hp)
    obtain rfl : d = d' := Option.some_inj.mp (hd.symm.trans hd')
    have hexit := hmove.trans
      ((if_pos ⟨ht, hj.trans hflag⟩).trans (if_pos (congrArg UInt64.toNat hlast)))
    subst hexit
    exact ⟨UInt64.lt_iff_toNat_lt.mp hloss, Nat.add_pos_left (pos_iff.mp hpos) j⟩

/-- A step realizes a loss exactly if it is such an exit. -/
theorem Valid.realized_eq_iff (h : Valid ctx π X w p t m) (hs : ctx.Step π w e w')
    (hreal : Realizes ctx π e ms)
    (hrun : Transition.Run Ledger.Step (ledgerOf ctx π w p t) ms (ledgerOf ctx π w' p' t')) :
    p'.book.realized = p.book.realized ↔ ¬ctx.ForfeitingExit π w e := by
  by_cases hw : ∃ lp accounts, e = .instruction (.withdraw lp) accounts
  · obtain ⟨lp, accounts, rfl⟩ := hw
    obtain ⟨user, acc, x, mv, huser, hacc, hmv, rfl⟩ := hreal
    obtain ⟨l₁, hrun₁, l₂, hm, hnil⟩ := Transition.run_append.mp hrun
    rw [← h.forfeiting_iff hs huser hacc hmv hrun₁ hm, ← hm.realized_eq_iff,
      show l₂ = ledgerOf ctx π w' p' t' from hnil]
    obtain ⟨f, j, rfl, -⟩ := hacc.eq_accrued hrun₁
    exact Iff.rfl
  · have hnot : ¬ctx.ForfeitingExit π w e := by
      intro hf
      unfold Context.ForfeitingExit at hf
      split at hf
      · exact hw ⟨_, _, rfl⟩
      · exact hf
    have hno := hreal.redeems fun lp accounts he => hw ⟨lp, accounts, he⟩
    refine ⟨fun _ => hnot, fun _ => ?_⟩
    apply hrun.invariant (I := fun u => u.book.realized = p.book.realized)
    · intro mv hmv u u' hu hm
      refine (hm.realized_eq_iff.mpr fun hf => ?_).trans hu
      have hmove := hno mv hmv
      cases mv with
      | exitJunior => cases hmove
      | _ => exact hf
    · rfl

/-! ## The gate -/

/-- In a run without such an exit nothing is realized. -/
theorem Context.ReachedBy.realized_eq_zero
    (h : ctx.ReachedBy π (fun w e => ¬ctx.ForfeitingExit π w e) es w) :
    ∃ p t m, Valid ctx π (es.map Event.inflow).sum w p t m ∧ p.book.realized = 0 := by
  apply h.invariant (I := fun l => l.book.realized = 0)
  · intro e _ X w w' p t m p' t' ms hv hG hs hreal hrun hzero
    exact ((hv.realized_eq_iff hs hreal hrun).mpr hG).trans hzero
  · rfl

/-- In every reachable state with nothing left to come back, the gate on junior deposits
is open exactly if the admin has paid in what was realized.  In a run in which no junior
tranche leaves a loss behind it is open, and only a tranche that does realizes a loss. -/
theorem junior_gate_reopens (h : ctx.Reached π es w) :
    ∃ p, w.pool ctx.programId π = some p ∧
      (p.totalFlushed ≤ p.totalReturned → p.wrapperRecoverable = 0 →
        (juniorDepositGate p = .ok () ↔
          p.realizedJuniorLoss.toNat ≤ (es.map Event.givenBack).sum)) ∧
      (ctx.ReachedBy π (fun w e => ¬ctx.ForfeitingExit π w e) es w →
        p.totalFlushed ≤ p.totalReturned → p.wrapperRecoverable = 0 →
        juniorDepositGate p = .ok ()) ∧
      ∀ e w' p', ctx.Step π w e w' → w'.pool ctx.programId π = some p' →
        (p'.realizedJuniorLoss = p.realizedJuniorLoss ↔ ¬ctx.ForfeitingExit π w e) := by
  obtain ⟨p, t, m, hvalid, hreturned⟩ := h.returned_eq
  have hiff : p.totalFlushed ≤ p.totalReturned → p.wrapperRecoverable = 0 →
      (juniorDepositGate p = .ok () ↔
        p.realizedJuniorLoss.toNat ≤ (es.map Event.givenBack).sum) := by
    intro hle hrec
    have hle : p.book.flushed ≤ p.book.returned := UInt64.le_iff_toNat_le.mp hle
    rw [eq_zero_iff, StakePool.toNat_wrapperRecoverable] at hrec
    have hsettled : p.book.recovered + p.book.realized ≤ p.book.flushed :=
      hvalid.sound.settled_le_flushed
    unfold Book.recoverable at hrec
    rw [juniorDepositGate_eq_ok]
    show _ ↔ p.book.realized ≤ _
    omega
  refine ⟨p, hvalid.standing.pool_eq, hiff, ?_, ?_⟩
  · intro hby hle hrec
    obtain ⟨q, t', m', hvalid', hzero⟩ := hby.realized_eq_zero
    obtain rfl : p = q :=
      Option.some_inj.mp (hvalid.standing.pool_eq.symm.trans hvalid'.standing.pool_eq)
    have hzero : p.realizedJuniorLoss.toNat = 0 := hzero
    exact (hiff hle hrec).mpr (by omega)
  · intro e w' p' hs hp'
    obtain ⟨q, t', m', ms, hvalid', hreal, hrun⟩ := hvalid.step hs
    obtain rfl : q = p' := Option.some_inj.mp (hvalid'.standing.pool_eq.symm.trans hp')
    rw [← UInt64.toNat_inj]
    exact hvalid.realized_eq_iff hs hreal hrun

end

/-- The last junior leaves with a part of the loss behind it. -/
def Sample.burnt : List Action :=
  [enableTranches, deposit alice 100000, depositJunior bob 50000, flush 20000, .tick ⟨200, 1⟩,
    withdraw bob 50000]

/-- The gate is shut with nothing left to come back. -/
theorem Sample.shut_junior_gate :
    ∃ es w p, Sample.ctx.Reached pool es w ∧ w.pool Sample.ctx.programId pool = some p ∧
      p.marketResolved = false ∧ p.trancheEnabled = true ∧ p.juniorTotalLp = 0 ∧
      p.totalFlushed ≤ p.totalReturned ∧ p.wrapperRecoverable = 0 ∧
      juniorDepositGate p = .error StakeError.insuranceLossOutstanding ∧
      (run (burnt ++ [depositJunior bob 50000])).isSome = false := by
  have hread : ((after burnt).pool Sample.ctx.programId pool).map (fun p =>
      decide (p.marketResolved = false ∧ p.trancheEnabled = true ∧ p.juniorTotalLp = 0 ∧
        p.totalFlushed ≤ p.totalReturned ∧ p.wrapperRecoverable = 0 ∧
        juniorDepositGate p = .error StakeError.insuranceLossOutstanding)) = some true := by
    decide +kernel
  obtain ⟨p, hp, hstate⟩ := Option.map_eq_some_iff.mp hread
  obtain ⟨h1, h2, h3, h4, h5, h6⟩ := of_decide_eq_true hstate
  exact ⟨_, _, p, after_reached (run_of_pool hread), hp, h1, h2, h3, h4, h5, h6, by decide +kernel⟩

/-- What went out came back and the junior tranche left without a loss. -/
def Sample.settled : List Action :=
  [enableTranches, deposit alice 100000, depositJunior bob 50000, flush 20000, recover 20000,
    .tick ⟨200, 1⟩, withdraw bob 50000]

theorem Sample.junior_gate_reopens_settled :
    ∃ p, (after settled).pool Sample.ctx.programId pool = some p ∧ p.juniorTotalLp = 0 ∧
      p.totalFlushed = 20000 ∧ juniorDepositGate p = .ok () := by
  have hstate : ((after settled).pool Sample.ctx.programId pool).map (fun p =>
      (p.juniorTotalLp, p.totalFlushed, p.totalReturned, p.wrapperRecoverable,
        p.realizedJuniorLoss)) = some (0, 20000, 20000, 0, 0) := by
    decide +kernel
  obtain ⟨p, hp, hiff, -⟩ := junior_gate_reopens (after_reached (run_of_pool hstate))
  rw [hp, Option.map_some, Option.some_inj] at hstate
  simp only [Prod.mk.injEq] at hstate
  obtain ⟨hjunior, hflushed, hreturned, hrec, hrealized⟩ := hstate
  refine ⟨p, hp, hjunior, hflushed, (hiff (by rw [hflushed, hreturned]; decide) hrec).mpr ?_⟩
  rw [hrealized]
  exact Nat.zero_le _

end PercolatorStake
