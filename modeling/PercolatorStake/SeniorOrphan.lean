import PercolatorStake.DeadShares
import PercolatorStake.FeeAccrual
import PercolatorStake.Ledger.Price

/-!
# Value that no senior owns

While insurance never goes out, senior value belongs to senior LP as long as there is
any.  It stays behind in one way only: all senior LP is redeemed at a price above one,
and the payout is rounded down.  No senior deposit is priced from then on.
-/

namespace PercolatorStake

open Result Word

namespace Ledger

variable {K : Type} {l l' : Ledger K} {m : Move K}

/-! ## Pools that lent nothing -/

/-- No insurance has gone out, and a share of either tranche is worth at least what it
was first minted for. -/
structure Unlent (l : Ledger K) : Prop where
  flushed_eq : l.book.flushed = 0
  returned_eq : l.book.returned = 0
  realized_eq : l.book.realized = 0
  senior_nonneg : 0 ≤ l.book.senior
  senior_price : 1 ≤ l.book.seniorPrice
  junior_price : 1 ≤ l.book.juniorPrice
  multiplier_pos : l.book.tranches = true → 0 < l.book.multiplier

theorem Unlent.junior_eq (h : Unlent l) : l.book.effectiveJunior = l.book.juniorBalance := by
  have := h.flushed_eq
  unfold Book.effectiveJunior Book.netLoss
  omega

theorem Unlent.senior_eq (h : Unlent l) : l.book.senior = l.book.value - l.book.juniorBalance := by
  rw [Book.senior, h.junior_eq]

theorem Unlent.seniorLp_le (h : Unlent l) : l.book.seniorLp ≤ l.book.senior.toNat :=
  Shares.one_le_price.mp h.senior_price

theorem Unlent.juniorLp_le (h : Unlent l) : l.book.juniorLp ≤ l.book.juniorBalance := by
  rw [← h.junior_eq]
  exact Shares.one_le_price.mp h.junior_price

variable [Fintype K] [DecidableEq K]

theorem Unlent.step (h : Unlent l) (hmatched : Matched l) (hm : Step l m l')
    (hflush : ∀ x, m ≠ .flush x) (hmult : ∀ n, m = .setTranches n → 0 < n) : Unlent l' := by
  obtain ⟨hnonneg, hsenior⟩ := hmatched.senior_step h.senior_nonneg hm hflush
  have hsenior := h.senior_price.trans hsenior
  have hflushed := h.flushed_eq
  have hreturned := h.returned_eq
  have hrealized := h.realized_eq
  have hjunior : (∀ k lp x, m ≠ .exitJunior k lp x) → 1 ≤ l'.book.juniorPrice :=
    fun hexit => h.junior_price.trans (hmatched.junior_step hm hflush hexit)
  cases hm with
  | accrue | deposit | depositJunior | withdraw | withdrawJunior | inflow =>
    exact ⟨hflushed, hreturned, hrealized, hnonneg, hsenior, hjunior fun _ _ _ e => (by cases e),
      h.multiplier_pos⟩
  | exitJunior =>
    have hkeep : l.book.juniorBalance - l.book.effectiveJunior = 0 := by
      rw [h.junior_eq]
      omega
    refine ⟨hflushed, ?_, ?_, hnonneg, hsenior, ?_, h.multiplier_pos⟩
    · show l.book.returned + _ = 0
      omega
    · show l.book.realized + _ = 0
      omega
    · exact Shares.one_le_price.mpr (Nat.zero_le _)
  | flush => exact (hflush _ rfl).elim
  | giveBack hx hle => omega
  | recover hx hle =>
    unfold Book.recoverable at hle
    omega
  | setTranches =>
    exact ⟨hflushed, hreturned, hrealized, hnonneg, hsenior, hjunior fun _ _ _ e => (by cases e),
      fun _ => hmult _ rfl⟩

/-! ## Value with and without an owner -/

/-- Senior value has an owner. -/
def SeniorOwned (l : Ledger K) : Prop := l.book.seniorLp = 0 → l.book.senior = 0

/-- The redemption of all senior LP at a price above one. -/
def Orphaning (l : Ledger K) : Move K → Prop
  | .withdraw _ lp _ => l.book.tranches = true ∧ lp = l.book.seniorLp ∧ (lp : Int) < l.book.senior
  | _ => False

omit [Fintype K] [DecidableEq K] in
/-- A fee of a pool without seniors goes to the juniors. -/
theorem Unlent.juniorShare_eq (h : Unlent l) (hs : l.book.senior = 0)
    (ht : l.book.tranches = true) (hj : 0 < l.book.juniorLp) (fee : Nat) :
    l.book.juniorShare fee = fee := by
  have hpos : 0 < l.book.juniorBalance * l.book.multiplier :=
    Nat.mul_pos (Nat.lt_of_lt_of_le hj h.juniorLp_le) (h.multiplier_pos ht)
  unfold Book.juniorShare
  rw [hs, Int.toNat_zero, Nat.zero_mul, Nat.add_zero]
  exact Nat.mul_div_cancel _ hpos

/-- A redemption of the last LP takes the last of the value with it. -/
def Settles (m : Move K) (l' : Ledger K) : Prop :=
  m.redeems = true → l'.book.supply = 0 → l'.book.value = 0

theorem Unlent.seniorOwned_step (h : Unlent l) (h' : Unlent l') (hmatched : Matched l)
    (hmatched' : Matched l') (ho : SeniorOwned l) (hm : Step l m l')
    (hflush : ∀ x, m ≠ .flush x) (hlive : Settles m l') :
    SeniorOwned l' ↔ ¬Orphaning l m := by
  have hsplit := hmatched.seniorLp_eq.1
  have hsplit' := hmatched'.seniorLp_eq.1
  have hvalue' := h'.senior_eq
  have hempty' := hmatched'.junior_empty
  -- without LP there is nothing, and with it there is a junior
  have hnone : m.redeems = true → l'.book.juniorLp = 0 → SeniorOwned l' := by
    intro hk h0 hlp
    have hsupply : l'.book.supply = 0 := by
      unfold Book.seniorLp at hlp
      omega
    have := hlive hk hsupply
    have := hempty' h0
    omega
  have hno : SeniorOwned l' → ¬Orphaning l m → (SeniorOwned l' ↔ ¬Orphaning l m) :=
    fun ho hn => ⟨fun _ => hn, fun _ => ho⟩
  have hsenior := h.senior_eq
  cases hm with
  | @accrue f j hf hv hs hj =>
    refine hno ?_ fun e => e
    intro hlp
    have hlp : l.book.seniorLp = 0 := hlp
    have h0 := ho hlp
    have hjunior : 0 < l.book.juniorLp := by
      unfold Book.seniorLp at hlp
      omega
    have ht : l.book.tranches = true := by
      by_contra ht
      have := (hmatched.no_junior (Bool.eq_false_iff.mpr ht)).1
      omega
    rw [if_pos ⟨ht, hjunior⟩, h.juniorShare_eq h0 ht hjunior] at hj
    rw [hvalue']
    simp only [Book.value] at hsenior ⊢
    omega
  | deposit ha hlp =>
    refine hno ?_ fun e => e
    intro h0
    unfold Book.seniorLp at h0
    simp only at h0
    omega
  | @depositJunior k a lp ha hlp =>
    refine hno ?_ fun e => e
    intro h0
    have h0 : l.book.supply + lp - (l.book.juniorLp + lp) = 0 := h0
    have hold := ho (by unfold Book.seniorLp; omega)
    rw [hvalue']
    simp only [Book.value] at hsenior ⊢
    omega
  | @withdraw k lp x hlp hle hacc hflag hv hx hpos hvault hsupply =>
    cases ht : l.book.tranches with
    | false =>
      obtain ⟨hno_lp, -⟩ := hmatched.no_junior ht
      refine hno (hnone rfl hno_lp) fun e => ?_
      rw [e.1] at ht
      cases ht
    | true =>
      have hjf := hflag ht
      have hlple := hle.trans (hmatched.senior_le hjf)
      have hbacked := h.seniorLp_le
      rw [hmatched.own_eq.1] at hv
      rw [hmatched.own_eq.1, hmatched.own_eq.2] at hx
      have hval : Book.senior { l.book with
          withdrawn := l.book.withdrawn + x, supply := l.book.supply - lp } =
          l.book.senior - x := by
        rw [hvalue', hsenior]
        simp only [Book.value]
        omega
      by_cases hall : lp = l.book.seniorLp
      · -- the whole tranche leaves
        subst hall
        have hdust := Shares.redeemed_all_eq_iff hbacked
        rw [← hx] at hdust
        have h0 : Book.seniorLp { l.book with
            withdrawn := l.book.withdrawn + x, supply := l.book.supply - l.book.seniorLp } = 0 := by
          unfold Book.seniorLp
          simp only
          omega
        constructor
        · intro howned e
          have hrest := howned h0
          rw [hval] at hrest
          have habove := e.2.2
          omega
        · intro hn _
          have hle : ¬(l.book.seniorLp : Int) < l.book.senior := fun e => hn ⟨ht, rfl, e⟩
          rw [hval]
          omega
      · refine hno (fun h0 => ?_) fun e => hall e.2.1
        unfold Book.seniorLp at h0 hall hlple
        simp only at h0
        omega
  | @withdrawJunior k lp x hlp hle hacc ht hflag hx hvault hsupply hrest hbal =>
    refine hno ?_ fun e => e
    intro h0
    have h0 : l.book.supply - lp - (l.book.juniorLp - lp) = 0 := h0
    have hold := ho (by unfold Book.seniorLp; omega)
    rw [hvalue']
    simp only [Book.value] at hsenior ⊢
    omega
  | exitJunior => exact hno (hnone rfl rfl) fun e => e
  | flush => exact (hflush _ rfl).elim
  | giveBack hx hle =>
    have := h.flushed_eq
    omega
  | recover hx hle =>
    have := h.flushed_eq
    unfold Book.recoverable at hle
    omega
  | setTranches | inflow => exact hno ho fun e => e

end Ledger

section

variable {ctx : Context} {π : Pubkey} {w w' : World} {p p' : StakePool} {t t' : TokenAccount}
  {m m' : Mint} {e : Event} {es : List Event} {ms acc : List (Move Pubkey)} {X : Nat}
  {l l₁ : Ledger Pubkey}

/-- The redemption of all senior LP while the senior balance, the surplus of the vault
accrued, is larger than that. -/
def Context.OrphaningExit (ctx : Context) (π : Pubkey) (w : World) : Event → Prop
  | .instruction (.withdraw lp) accounts =>
    ∃ user p t d q s, accounts[0]? = some user ∧ w.pool ctx.programId π = some p ∧
      w.token p.vault = some t ∧ w.record ctx.programId (ctx.depositPda π user.key) = some d ∧
      p.trancheEnabled = true ∧ d.isJuniorDeposit = false ∧ lp = p.seniorTotalLp ∧
      accrueFeesInner p t.amount = .ok q ∧ q.seniorBalance = some s ∧ lp < s
  | _ => False

/-- Whether a withdrawal leaves value behind is decided in the ledger its accrual
leads to. -/
theorem Valid.orphaning_iff {lp : UInt64} {accounts : List AccountInfo} {user : AccountInfo}
    {x : Nat} {mv : Move Pubkey} (h : Valid ctx π X w p t m)
    (hs : ctx.Step π w (.instruction (.withdraw lp) accounts) w')
    (huser : accounts[0]? = some user) (hacc : Accrual acc)
    (hmv : Withdrawal (ctx.depositPda π user.key) lp.toNat x mv)
    (hrun : Transition.Run Ledger.Step (ledgerOf ctx π w p t) acc l) (hm : Ledger.Step l mv l')
    (hnonneg : 0 ≤ l.book.senior) :
    Ledger.Orphaning l mv ↔ ctx.OrphaningExit π w (.instruction (.withdraw lp) accounts) := by
  obtain ⟨user', d, q, huser', hd, hj, hq⟩ := h.standing.withdraw_reads hs
  obtain rfl : user = user' := Option.some_inj.mp (huser.symm.trans huser')
  -- the accrual of the program is the one in front of the move
  have haccrued : l.Accrued := by
    rcases hmv with rfl | rfl | rfl
    · cases hm with
      | withdraw _ _ hacc => exact hacc
    · cases hm with
      | withdrawJunior _ _ hacc => exact hacc
    · cases hm with
      | exitJunior _ _ hacc => exact hacc
  obtain ⟨haccrued', acc', hacc', hrun'⟩ :=
    accrueFeesInner_run (f := w.positions ctx.programId π) hq
  have hl := hacc.unique hacc' hrun hrun' haccrued haccrued'
  subst hl
  have hnonneg : 0 ≤ q.book.senior := hnonneg
  have hkeep : q.book.tranches = p.book.tranches ∧ q.book.seniorLp = p.book.seniorLp := by
    obtain ⟨f, j, he, -⟩ := hacc.eq_accrued hrun
    have hb : q.book = p.book.accrued f j := congrArg Ledger.book he
    rw [hb]
    exact ⟨rfl, rfl⟩
  have hvalue : q.book.value < 2 ^ 64 := by
    have hle : q.book.value ≤ t.amount.toNat := (h.sound.run hrun).toBalanced.value_le
    have hlt := t.amount.toNat_lt
    omega
  obtain ⟨s, hs', hsenior⟩ := StakePool.seniorBalance_isSome hnonneg hvalue
  have hmove := hmv.eq_of_step hm
  constructor
  · intro ho
    split at hmove
    · split at hmove
      · subst hmove
        exact ho.elim
      · subst hmove
        exact ho.elim
    · rename_i hno
      subst hmove
      obtain ⟨ht, hlp, habove⟩ := ho
      have hlp : lp.toNat = q.book.seniorLp := hlp
      have habove : (lp.toNat : Int) < q.book.senior := habove
      refine ⟨user, p, t, d, q, s, huser, h.standing.pool_eq, h.standing.vault_eq, hd,
        hkeep.1.symm.trans ht, ?_, UInt64.toNat_inj.mp ?_, hq, hs',
        UInt64.lt_iff_toNat_lt.mpr (by omega)⟩
      · rw [← hj]
        exact Bool.eq_false_iff.mpr fun hj => hno ⟨ht, hj⟩
      · rw [StakePool.toNat_seniorTotalLp, ← hkeep.2]
        exact hlp
  · intro ho
    obtain ⟨user', p', t', d', q', s', huser', hp', ht', hd', htr, hflag, hlp, hq', hs'',
    habove⟩ := ho
    obtain rfl : user = user' := Option.some_inj.mp (huser.symm.trans huser')
    obtain rfl : p = p' := Option.some_inj.mp (h.standing.pool_eq.symm.trans hp')
    obtain rfl : t = t' := Option.some_inj.mp (h.standing.vault_eq.symm.trans ht')
    obtain rfl : d = d' := Option.some_inj.mp (hd.symm.trans hd')
    obtain rfl : q = q' := Except.ok.inj (hq.symm.trans hq')
    obtain rfl : s = s' := Option.some_inj.mp (hs'.symm.trans hs'')
    have hno : ¬((w.positions ctx.programId π (ctx.depositPda π user.key)).junior = true) := by
      rw [hj, hflag]
      decide
    have hmove := hmove.trans (if_neg fun e => hno e.2)
    subst hmove
    have habove := UInt64.lt_iff_toNat_lt.mp habove
    have hlp := congrArg UInt64.toNat hlp
    rw [StakePool.toNat_seniorTotalLp, ← hkeep.2] at hlp
    refine ⟨hkeep.1.trans htr, hlp, ?_⟩
    show (lp.toNat : Int) < q.book.senior
    omega

/-- Insurance that goes out. -/
def Event.flushes : Event → Bool
  | .instruction (.flushToInsurance _) _ => true
  | _ => false

/-- What the moves of an event without a flush meet. -/
theorem Realizes.unlent_moves (h : Realizes ctx π e ms) (hs : ctx.Step π w e w')
    (he : e.flushes = false) :
    (∀ mv ∈ ms, ∀ x, mv ≠ .flush x) ∧ ∀ mv ∈ ms, ∀ n, mv = .setTranches n → 0 < n := by
  constructor
  · apply h.ne_flush
    intro amount accounts e'
    rw [e'] at he
    cases he
  · intro mv hmv n hn
    subst hn
    obtain ⟨mult, accounts, rfl, rfl⟩ := h.causedBy _ hmv
    obtain ⟨_, _, _, _, _, ⟨⟨hrange, -⟩, -⟩, -⟩ := processAdminSetTrancheConfig_configured hs.2.2
    have hrange : 10000 ≤ mult.toNat := UInt16.le_iff_toNat_le.mp hrange
    omega

theorem Ledger.Unlent.run (h : Ledger.Unlent l) (hmatched : Ledger.Matched l)
    (hrun : Transition.Run Ledger.Step l ms l₁) (hflush : ∀ mv ∈ ms, ∀ x, mv ≠ .flush x)
    (hmult : ∀ mv ∈ ms, ∀ n, mv = .setTranches n → 0 < n) :
    Ledger.Unlent l₁ ∧ Ledger.Matched l₁ := by
  apply hrun.invariant (I := fun l => Ledger.Unlent l ∧ Ledger.Matched l)
  · intro mv hmv u u' hu hm
    exact ⟨hu.1.step hu.2 hm (hflush mv hmv) (hmult mv hmv), hu.2.step hm⟩
  · exact ⟨h, hmatched⟩

/-- Moves that redeem nothing orphan nothing. -/
theorem Ledger.SeniorOwned.run (ho : Ledger.SeniorOwned l) (h : Ledger.Unlent l)
    (hmatched : Ledger.Matched l) (hrun : Transition.Run Ledger.Step l ms l₁)
    (hflush : ∀ mv ∈ ms, ∀ x, mv ≠ .flush x)
    (hmult : ∀ mv ∈ ms, ∀ n, mv = .setTranches n → 0 < n)
    (hno : ∀ mv ∈ ms, mv.redeems = false) : Ledger.SeniorOwned l₁ := by
  have hall := hrun.invariant
    (I := fun l => Ledger.SeniorOwned l ∧ Ledger.Unlent l ∧ Ledger.Matched l) ?_ ⟨ho, h, hmatched⟩
  · exact hall.1
  · intro mv hmv u u' hu hm
    obtain ⟨ho, h, hmatched⟩ := hu
    have h' := h.step hmatched hm (hflush mv hmv) (hmult mv hmv)
    have hmatched' := hmatched.step hm
    have hmove := hno mv hmv
    refine ⟨(h.seniorOwned_step h' hmatched hmatched' ho hm (hflush mv hmv) ?_).mpr ?_, h',
      hmatched'⟩
    · intro e
      rw [hmove] at e
      cases e
    · cases mv with
      | withdraw => cases hmove
      | _ => exact fun e => e

/-- One event of a pool that lent nothing. -/
theorem Valid.seniorOwned_iff (h : Valid ctx π X w p t m)
    (hun : Ledger.Unlent (ledgerOf ctx π w p t))
    (ho : Ledger.SeniorOwned (ledgerOf ctx π w p t)) (hs : ctx.Step π w e w')
    (he : e.flushes = false) (hreal : Realizes ctx π e ms)
    (hrun : Transition.Run Ledger.Step (ledgerOf ctx π w p t) ms (ledgerOf ctx π w' p' t'))
    (hlive : p'.book.supply = 0 → p'.book.value = 0) :
    Ledger.SeniorOwned (ledgerOf ctx π w' p' t') ↔ ¬ctx.OrphaningExit π w e := by
  have hmatched := h.sound.toMatched
  obtain ⟨hflush, hmult⟩ := hreal.unlent_moves hs he
  by_cases hw : ∃ lp accounts, e = .instruction (.withdraw lp) accounts
  · obtain ⟨lp, accounts, rfl⟩ := hw
    obtain ⟨user, acc, x, mv, huser, hacc, hmv, rfl⟩ := hreal
    obtain ⟨l₁, hrun₁, l₂, hm, hnil⟩ := Transition.run_append.mp hrun
    have hin : ∀ a ∈ acc, a ∈ acc ++ [mv] := fun a ha => List.mem_append_left _ ha
    have hlast : mv ∈ acc ++ [mv] := List.mem_append_right _ List.mem_cons_self
    obtain ⟨hun₁, hmatched₁⟩ := hun.run hmatched hrun₁ (fun a ha => hflush a (hin a ha))
      fun a ha => hmult a (hin a ha)
    have ho₁ := ho.run hun hmatched hrun₁ (fun a ha => hflush a (hin a ha))
      (fun a ha => hmult a (hin a ha)) hacc.redeems
    rw [← h.orphaning_iff hs huser hacc hmv hrun₁ hm hun₁.senior_nonneg]
    have hl₂ : l₂ = ledgerOf ctx π w' p' t' := hnil
    subst hl₂
    exact hun₁.seniorOwned_step (hun₁.step hmatched₁ hm (hflush mv hlast) (hmult mv hlast))
      hmatched₁ (hmatched₁.step hm) ho₁ hm (hflush mv hlast) fun _ => hlive
  · have hnot : ¬ctx.OrphaningExit π w e := by
      intro hf
      unfold Context.OrphaningExit at hf
      split at hf
      · exact hw ⟨_, _, rfl⟩
      · exact hf
    refine ⟨fun _ => hnot, fun _ => ho.run hun hmatched hrun hflush hmult ?_⟩
    exact hreal.redeems fun lp accounts he => hw ⟨lp, accounts, he⟩

/-! ## The run -/

/-- The events of a run that leaves no senior value behind. -/
def Context.KeepsSeniors (ctx : Context) (π : Pubkey) (w : World) (e : Event) : Prop :=
  e.flushes = false ∧ ¬ctx.OrphaningExit π w e

/-- A pool that counts no LP has no value: its first deposit is still to come. -/
theorem Context.Reached.value_eq_zero (h : ctx.Reached π es w) {p : StakePool}
    (hp : w.pool ctx.programId π = some p) (h0 : p.book.supply = 0) : p.book.value = 0 := by
  obtain ⟨q, t, m, hvalid, hlocked⟩ := h.locked
  obtain rfl : p = q := Option.some_inj.mp (hp.symm.trans hvalid.standing.pool_eq)
  unfold Locked at hlocked
  split at hlocked
  · have hmin : minimumLiquidity.toNat = 1000 := rfl
    omega
  · exact hlocked.1.supply_eq.2

theorem Context.ReachedBy.reached {G : World → Event → Prop} (h : ctx.ReachedBy π G es w) :
    ctx.Reached π es w := by
  obtain ⟨w₀, hgenesis, hrun⟩ := h
  exact ⟨w₀, hgenesis, hrun.mono fun _ _ _ _ hs => hs.2⟩

theorem Context.ReachedBy.snoc_reached {G : World → Event → Prop} (h : ctx.ReachedBy π G es w)
    (hs : ctx.Step π w e w') : ctx.Reached π (es ++ [e]) w' := by
  obtain ⟨w₀, hgenesis, hrun⟩ := h.reached
  exact ⟨w₀, hgenesis, Transition.run_append.mpr ⟨w, hrun, w', hs, rfl⟩⟩

theorem Context.ReachedBy.seniorOwned (h : ctx.ReachedBy π (ctx.KeepsSeniors π) es w) :
    ∃ p t m, Valid ctx π (es.map Event.inflow).sum w p t m ∧
      Ledger.Unlent (ledgerOf ctx π w p t) ∧ Ledger.SeniorOwned (ledgerOf ctx π w p t) := by
  obtain ⟨w₀, hgenesis, hrun⟩ := h
  apply hrun.history (P := fun es w => ∃ p t m, Valid ctx π (es.map Event.inflow).sum w p t m ∧
    Ledger.Unlent (ledgerOf ctx π w p t) ∧ Ledger.SeniorOwned (ledgerOf ctx π w p t))
  · obtain ⟨p, t, m, hvalid, hempty⟩ := hgenesis.valid
    refine ⟨p, t, m, hvalid, ?_, ?_⟩
    · rw [hempty]
      refine ⟨rfl, rfl, rfl, Int.le_refl _, ?_, ?_, fun e => (by cases e)⟩
      · exact Shares.one_le_price.mpr (Nat.zero_le _)
      · exact Shares.one_le_price.mpr (Nat.zero_le _)
    · rw [hempty]
      exact fun _ => rfl
  · intro es w e w' hpre hw hs
    obtain ⟨p, t, m, hvalid, hun, ho⟩ := hw
    obtain ⟨⟨he, hno⟩, hs⟩ := hs
    obtain ⟨p', t', m', ms, hvalid', hreal, hrun'⟩ := hvalid.step hs
    have hreached : ctx.Reached π (es ++ [e]) w' :=
      Context.ReachedBy.snoc_reached ⟨w₀, hgenesis, hpre⟩ hs
    obtain ⟨hflush, hmult⟩ := hreal.unlent_moves hs he
    rw [List.map_append, List.sum_append, List.map_singleton, List.sum_singleton]
    refine ⟨p', t', m', hvalid', (hun.run hvalid.sound.toMatched hrun' hflush hmult).1, ?_⟩
    exact (hvalid.seniorOwned_iff hun ho hs he hreal hrun'
      (hreached.value_eq_zero hvalid'.standing.pool_eq)).mpr hno

/-- The senior tranche is empty of LP and of value, or it is not empty of LP. -/
def StakePool.SeniorOwned (p : StakePool) : Prop :=
  p.totalLpSupply > 0 → p.seniorTotalLp = 0 → p.seniorBalance = some 0

theorem Valid.pool_seniorOwned_iff (h : Valid ctx π X w p t m)
    (hnonneg : 0 ≤ p.book.senior) (h0 : p.book.supply = 0 → p.book.value = 0) :
    p.SeniorOwned ↔ Ledger.SeniorOwned (ledgerOf ctx π w p t) := by
  obtain ⟨s, hs, hsenior⟩ := StakePool.seniorBalance_isSome hnonneg h.value_lt
  have hempty : p.book.juniorLp = 0 → p.book.juniorBalance = 0 := h.sound.junior_empty
  have hle : p.book.juniorLp ≤ p.book.supply := h.sound.seniorLp_eq.1
  unfold StakePool.SeniorOwned
  rw [gt_iff_lt, pos_iff, eq_zero_iff, StakePool.toNat_seniorTotalLp, hs, Option.some_inj,
    eq_zero_iff]
  show (0 < p.book.supply → _) ↔ (p.book.seniorLp = 0 → p.book.senior = 0)
  constructor
  · intro hpool hlp
    by_cases hsupply : p.book.supply = 0
    · have hvalue := h0 hsupply
      have hj := hempty (by omega)
      unfold Book.senior Book.effectiveJunior
      omega
    · have := hpool (by omega) hlp
      omega
  · intro hledger _ hlp
    have := hledger hlp
    omega

/-- A run without a flush in which nobody redeems all senior LP while it is worth more
than its count leaves no senior value without senior LP, and the next senior deposit is
priced one to one.  An event of any such run without a flush keeps it so exactly if it
is no such redemption. -/
theorem senior_never_orphaned (h : ctx.ReachedBy π (ctx.KeepsSeniors π) es w) :
    ∃ p t, w.pool ctx.programId π = some p ∧ w.token p.vault = some t ∧ p.SeniorOwned ∧
      (p.totalLpSupply > 0 → p.seniorTotalLp = 0 → ∀ q, accrueFeesInner p t.amount = .ok q →
        q.trancheEnabled = true ∧ q.seniorTotalLp = 0 ∧ q.seniorBalance = some 0 ∧
        ∀ amount, priceDeposit q amount = .ok amount) ∧
      ∀ e w' p', e.flushes = false → ctx.Step π w e w' → w'.pool ctx.programId π = some p' →
        (p'.SeniorOwned ↔ ¬ctx.OrphaningExit π w e) := by
  obtain ⟨p, t, m, hvalid, hun, ho⟩ := h.seniorOwned
  have hreached := h.reached
  have hmatched := hvalid.sound.toMatched
  have hpool : p.SeniorOwned := (hvalid.pool_seniorOwned_iff hun.senior_nonneg
    (hreached.value_eq_zero hvalid.standing.pool_eq)).mpr ho
  refine ⟨p, t, hvalid.standing.pool_eq, hvalid.standing.vault_eq, hpool, ?_, ?_⟩
  · intro hsupply hlp q hq
    obtain ⟨-, acc, hacc, hrun⟩ := accrueFeesInner_run (f := w.positions ctx.programId π) hq
    have hmult : ∀ mv ∈ acc, ∀ n, mv = .setTranches n → 0 < n := by
      intro mv hmv n e
      rcases hacc with rfl | ⟨f, j, rfl⟩
      · cases hmv
      · rw [e] at hmv
        cases List.mem_singleton.mp hmv
    have hflush : ∀ mv ∈ acc, ∀ x, mv ≠ .flush x := by
      intro mv hmv x e
      rcases hacc with rfl | ⟨f, j, rfl⟩
      · cases hmv
      · rw [e] at hmv
        cases List.mem_singleton.mp hmv
    obtain ⟨hun', hmatched'⟩ := hun.run hmatched hrun hflush hmult
    have ho' := ho.run hun hmatched hrun hflush hmult hacc.redeems
    obtain ⟨f, j, he, -⟩ := hacc.eq_accrued hrun
    have hb : q.book = p.book.accrued f j := congrArg Ledger.book he
    rw [gt_iff_lt, pos_iff] at hsupply
    rw [eq_zero_iff, StakePool.toNat_seniorTotalLp] at hlp
    have hsupply : 0 < p.book.supply := hsupply
    have hlp' : q.book.seniorLp = 0 := by
      rw [hb]
      exact hlp
    have ht : q.book.tranches = true := by
      by_contra ht
      have hq : q.book.seniorLp = q.book.supply :=
        (hmatched'.senior_eq_value (Bool.eq_false_iff.mpr ht)).2
      have hs : q.book.supply = p.book.supply := by rw [hb]; rfl
      omega
    have hzero : q.book.senior = 0 := ho' hlp'
    have hvalue : q.book.value < 2 ^ 64 := by
      have hle : q.book.value ≤ t.amount.toNat := (hvalid.sound.run hrun).toBalanced.value_le
      have hlt := t.amount.toNat_lt
      omega
    obtain ⟨s, hs, hsenior⟩ := StakePool.seniorBalance_isSome hun'.senior_nonneg hvalue
    have hs0 : s = 0 := by
      rw [eq_zero_iff]
      have : q.book.senior = s.toNat := hsenior
      omega
    subst hs0
    have hlp0 : q.seniorTotalLp = 0 := by
      rw [eq_zero_iff, StakePool.toNat_seniorTotalLp]
      exact hlp'
    have ht : q.trancheEnabled = true := ht
    refine ⟨ht, hlp0, hs, fun amount => ?_⟩
    unfold priceDeposit
    rw [if_pos ht, hs, hlp0]
    rfl
  · intro e w' p' he hs hp'
    obtain ⟨q, t', m', ms, hvalid', hreal, hrun⟩ := hvalid.step hs
    obtain rfl : q = p' := Option.some_inj.mp (hvalid'.standing.pool_eq.symm.trans hp')
    have hlive := Context.Reached.value_eq_zero (h.snoc_reached hs) hp'
    obtain ⟨hflush, hmult⟩ := hreal.unlent_moves hs he
    have hnonneg := (hun.run hmatched hrun hflush hmult).1.senior_nonneg
    exact (hvalid'.pool_seniorOwned_iff hnonneg hlive).trans
      (hvalid.seniorOwned_iff hun ho hs he hreal hrun hlive)

end

namespace Sample

/-- A senior enters a junior pool, and a donation raises the price before she leaves. -/
def dusty : List Action :=
  [enableTranches, depositJunior bob 50000, deposit alice 3000, .send 500, .tick ⟨200, 1⟩,
    withdraw alice 3000]

/-- One token stays behind, and no senior deposit is priced any more. -/
theorem dusty_seniors : ∃ es w p, ctx.Reached pool es w ∧ es.any Event.flushes = false ∧
    w.pool ctx.programId pool = some p ∧ p.trancheEnabled = true ∧ p.totalLpSupply > 0 ∧
    p.seniorTotalLp = 0 ∧ p.seniorBalance = some 1 ∧
    priceDeposit p 1000 = .error ↑StakeError.overflow ∧
    (run (dusty ++ [deposit alice 1000])).isSome = false := by
  have hread : ((after dusty).pool ctx.programId pool).map (fun p =>
      decide (p.trancheEnabled = true ∧ p.totalLpSupply > 0 ∧ p.seniorTotalLp = 0 ∧
        p.seniorBalance = some 1 ∧ priceDeposit p 1000 = .error ↑StakeError.overflow)) =
      some true := by
    decide +kernel
  obtain ⟨p, hp, hstate⟩ := Option.map_eq_some_iff.mp hread
  obtain ⟨h1, h2, h3, h4, h5⟩ := of_decide_eq_true hstate
  exact ⟨_, _, p, after_reached (run_of_pool hread), by decide, hp, h1, h2, h3, h4, h5,
    by decide +kernel⟩

/-- The same without the donation, up to where she leaves. -/
def evenHanded : List Action :=
  [enableTranches, depositJunior bob 50000, deposit alice 3000, .tick ⟨200, 1⟩]

theorem evenHanded_state : ((after evenHanded).pool ctx.programId pool).bind (fun p =>
    ((after evenHanded).token p.vault).map fun t =>
      (accrueFeesInner p t.amount).toOption.map (·.seniorBalance)) = some (some (some 3000)) := by
  decide +kernel

theorem left_even_state : ((after (evenHanded ++ [withdraw alice 3000])).pool ctx.programId
    pool).map (fun p => (p.totalLpSupply, p.seniorTotalLp)) = some (50000, 0) := by
  decide +kernel

theorem left_even : ctx.ReachedBy pool (ctx.KeepsSeniors pool)
    (evenHanded.map Action.event ++ [(withdraw alice 3000).event])
    (after (evenHanded ++ [withdraw alice 3000])) := by
  obtain ⟨hrun, hstep⟩ := after_step (run_of_pool left_even_state)
  have hbefore : ctx.ReachedBy pool (ctx.KeepsSeniors pool) (evenHanded.map Action.event)
      (after evenHanded) := by
    apply (after_reached hrun).by_all
    intro e he w
    unfold evenHanded at he
    simp only [List.map_cons, List.map_nil, List.mem_cons, List.not_mem_nil, or_false] at he
    rcases he with rfl | rfl | rfl | rfl <;> exact ⟨rfl, fun e => e⟩
  refine hbefore.snoc ⟨rfl, fun ho => ?_⟩ hstep
  obtain ⟨user, p, t, d, q, s, -, hp, ht, -, -, -, -, hq, hs, habove⟩ := ho
  have hstate := evenHanded_state
  rw [hp, Option.bind_some, ht, Option.map_some, hq] at hstate
  have hstate : q.seniorBalance = some 3000 := Option.some_inj.mp (Option.some_inj.mp hstate)
  obtain rfl : s = 3000 := Option.some_inj.mp (hs.symm.trans hstate)
  exact UInt64.lt_irrefl _ habove

theorem senior_never_orphaned_even :
    ∃ p, (after (evenHanded ++ [withdraw alice 3000])).pool Sample.ctx.programId pool = some p ∧
      p.totalLpSupply > 0 ∧ p.seniorTotalLp = 0 ∧ p.seniorBalance = some 0 := by
  obtain ⟨p, t, hp, -, howned, -⟩ := senior_never_orphaned left_even
  have hstate := left_even_state
  rw [hp, Option.map_some, Option.some_inj, Prod.mk.injEq] at hstate
  obtain ⟨hsupply, hlp⟩ := hstate
  have hpos : p.totalLpSupply > 0 := by
    rw [hsupply]
    decide
  exact ⟨p, hp, hpos, hlp, howned hpos hlp⟩

end Sample

end PercolatorStake
