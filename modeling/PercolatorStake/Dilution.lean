import PercolatorStake.Pending
import PercolatorStake.Execution

/-!
# Nobody is diluted

No event but a flush lowers the price of a sub-pool that has LP before and after
it, and so none lowers what the LP of a bystander redeems for on the books as they are.

A withdrawal books the surplus of the vault first, and then there is one exception.
Insurance that comes back makes the senior tranche larger, and with it the part of a
surplus the senior tranche gets.  What a junior loses by that he loses only of a surplus
nobody has booked.
-/

namespace PercolatorStake

open Result Word

/-- The record an event acts on. -/
def Event.ActsOn (ctx : Context) (π k : Pubkey) : Event → Prop
  | .instruction (.deposit _) accounts | .instruction (.depositJunior _) accounts
  | .instruction (.withdraw _) accounts =>
    ∃ user, accounts[0]? = some user ∧ k = ctx.depositPda π user.key
  | _ => False

/-- The events that bring insurance back. -/
def Event.returns : Event → Bool
  | .instruction (.returnInsurance _) _ | .instruction (.recoverFlushedInsurance _) _ => true
  | _ => false

/-- Both prices are at least what they were, as far as there is LP on both sides,
and the senior value is defined. -/
structure Undiluted (p p' : StakePool) : Prop where
  senior_isSome : p'.seniorBalance.isSome = true
  junior_le : 0 < p.juniorTotalLp → 0 < p'.juniorTotalLp →
    Shares.price p.effectiveJuniorBalance.toNat p.juniorTotalLp.toNat ≤
      Shares.price p'.effectiveJuniorBalance.toNat p'.juniorTotalLp.toNat
  own_le : ∃ v v', p.ownBalance = some v ∧ p'.ownBalance = some v' ∧
    (0 < p.ownSupply → 0 < p'.ownSupply →
      Shares.price v.toNat p.ownSupply.toNat ≤ Shares.price v'.toNat p'.ownSupply.toNat)

/-! ## Prices over an event -/

section

variable {ctx : Context} {π k : Pubkey} {e : Event} {ms : List (Move Pubkey)}
  {l l' : Ledger Pubkey}

theorem Realizes.holder (h : Realizes ctx π e ms) :
    ∀ mv ∈ ms, ∀ k, mv.holder = some k → e.ActsOn ctx π k := by
  intro mv hmv k hk
  cases h.moves mv hmv with
  | deposit huser | depositJunior huser =>
    cases hk
    exact ⟨_, huser, rfl⟩
  | withdraw huser hw =>
    rcases hw with rfl | rfl | rfl <;> cases hk <;> exact ⟨_, huser, rfl⟩
  | _ => cases hk

/-- A record that an event does not act on is as it was. -/
theorem Realizes.position_eq (h : Realizes ctx π e ms)
    (hrun : Transition.Run Ledger.Step l ms l') (hk : ¬e.ActsOn ctx π k) :
    l'.position k = l.position k :=
  hrun.invariant (I := fun l₁ => l₁.position k = l.position k)
    (fun mv hmv _ _ hi hm => (hm.position_eq fun e => hk (h.holder mv hmv k e)).trans hi) rfl

theorem Realizes.senior_le (h : Realizes ctx π e ms)
    (hrun : Transition.Run Ledger.Step l ms l')
    (he : ∀ amount accounts, e ≠ .instruction (.flushToInsurance amount) accounts)
    (hl : Ledger.Matched l) (hs : 0 ≤ l.book.senior) :
    0 ≤ l'.book.senior ∧ l.book.seniorPrice ≤ l'.book.seniorPrice := by
  have hall := hrun.invariant (I := fun l₁ => Ledger.Matched l₁ ∧ 0 ≤ l₁.book.senior ∧
      l.book.seniorPrice ≤ l₁.book.seniorPrice)
    (fun mv hmv _ _ ⟨hl, hs, hle⟩ hm => by
      obtain ⟨hs', hle'⟩ := hl.senior_step hs hm (h.ne_flush he mv hmv)
      exact ⟨hl.step hm, hs', hle.trans hle'⟩)
    ⟨hl, hs, le_refl _⟩
  exact hall.2

/-- The exit of the last junior ends an event, so it is excluded by there being
junior LP left. -/
theorem Realizes.junior_le (h : Realizes ctx π e ms)
    (hrun : Transition.Run Ledger.Step l ms l')
    (he : ∀ amount accounts, e ≠ .instruction (.flushToInsurance amount) accounts)
    (hl : Ledger.Matched l) (hpos : 0 < l'.book.juniorLp) :
    l.book.juniorPrice ≤ l'.book.juniorPrice := by
  have hflush := h.ne_flush he
  obtain ⟨acc, rest, hacc, rfl, hrest⟩ := h.split
  obtain ⟨l₁, hrun₁, hrun₂⟩ := Transition.run_append.mp hrun
  have hfirst : l.book.juniorPrice ≤ l₁.book.juniorPrice ∧ Ledger.Matched l₁ := by
    rcases hacc with rfl | ⟨f, j, rfl⟩
    · cases hrun₁
      exact ⟨le_refl _, hl⟩
    · obtain ⟨l₂, hm, rfl⟩ := hrun₁
      exact ⟨hl.junior_step hm (fun x e => by cases e) (fun _ _ _ e => by cases e), hl.step hm⟩
  refine hfirst.1.trans ?_
  rcases hrest with rfl | ⟨mv, rfl⟩
  · cases hrun₂
    exact le_refl _
  · obtain ⟨l₂, hm, rfl⟩ := hrun₂
    refine hfirst.2.junior_step hm (hflush mv (by simp)) ?_
    intro k lp x e
    subst e
    cases hm
    exact absurd hpos (Nat.lt_irrefl 0)

theorem Realizes.returns (h : Realizes ctx π e ms) :
    ∀ mv ∈ ms, mv.returns = true → e.returns = true := by
  intro mv hmv hreturns
  have hcaused := h.causedBy mv hmv
  cases mv with
  | giveBack | recover =>
    obtain ⟨amount, accounts, rfl, -⟩ := hcaused
    rfl
  | _ => cases hreturns

/-- What settles before an instruction settles after it, and no lower is its price, the
junior one only if the instruction brings no insurance back to a surplus. -/
theorem Realizes.accruesTo {X : Nat} {l₁ : Ledger Pubkey} (h : Realizes ctx π e ms)
    (hrun : Transition.Run Ledger.Step l ms l')
    (he : ∀ amount accounts, e ≠ .instruction (.flushToInsurance amount) accounts)
    (hout : ∀ x, e ≠ .outside x) (hl : Ledger.Sound X l) (hs : 0 ≤ l.book.senior)
    (hsupply : 0 < l.book.supply) (h₁ : l.AccruesTo l₁) :
    ∃ l₁', l'.AccruesTo l₁' ∧ (l₁'.book.fees = l'.book.fees ∨ l₁'.book.fees = l₁.book.fees) ∧
      l₁.book.seniorPrice ≤ l₁'.book.seniorPrice ∧
      ((e.returns = true → l.Accrued) → 0 < l₁'.book.juniorLp →
        l₁.book.juniorPrice ≤ l₁'.book.juniorPrice) := by
  have hflush := h.ne_flush he
  have hinflow : ∀ mv ∈ ms, ∀ x, mv ≠ .inflow x := by
    rintro mv hmv x rfl
    exact hout x (h.causedBy _ hmv)
  have hreturns := h.returns
  obtain ⟨acc, rest, hacc, rfl, hrest⟩ := h.split
  obtain ⟨l₂, hrun₁, hrun₂⟩ := Transition.run_append.mp hrun
  have hfirst := hacc.accruesTo hrun₁
  rcases hrest with rfl | ⟨mv, rfl⟩
  · -- the accrual alone
    cases hrun₂
    rcases hfirst with rfl | hfirst
    · exact ⟨l₁, h₁, .inr rfl, le_refl _, fun _ _ => le_refl _⟩
    · obtain rfl := h₁.unique hfirst
      exact ⟨l₁, h₁.1.accruesTo, .inr rfl, le_refl _, fun _ _ => le_refl _⟩
  · obtain ⟨l₃, hm, rfl⟩ := hrun₂
    have hmem : mv ∈ acc ++ [mv] := by simp
    rcases hfirst with rfl | hfirst
    · obtain ⟨l₁', hsettles, hfees, hsenior, hjunior⟩ :=
        h₁.step hl.toMatched hs hsupply hm (hflush mv hmem) (hinflow mv hmem)
      exact ⟨l₁', hsettles, hfees, hsenior,
        fun h0 => hjunior fun hmv => h0 (hreturns mv hmem hmv)⟩
    · -- the move is made on the settled ledger
      obtain rfl := h₁.unique hfirst
      obtain ⟨l₁', hsettles, hfees, hsenior, hjunior⟩ :=
        h₁.1.accruesTo.step (h₁.sound hl).toMatched (h₁.price_le hl.toMatched hs).1
          (h₁.supply_eq ▸ hsupply) hm (hflush mv hmem) (hinflow mv hmem)
      exact ⟨l₁', hsettles, hfees, hsenior, fun _ => hjunior fun _ => h₁.1⟩

end

/-! ## Pools -/

section

variable {ctx : Context} {π : Pubkey} {w w' : World} {p p' : StakePool} {t t' : TokenAccount}
  {m m' : Mint} {e : Event} {es : List Event} {X Y : Nat}

theorem Valid.own_eq (h : Valid ctx π X w p t m) (hs : 0 ≤ p.book.senior) :
    p.ownSupply.toNat = p.book.seniorLp ∧
      ∃ v, p.ownBalance = some v ∧ v.toNat = p.book.senior.toNat := by
  have hmatched : Ledger.Matched ⟨p.book, t.amount.toNat, w.positions ctx.programId π⟩ :=
    h.sound.toMatched
  exact StakePool.own_eq hmatched h.value_lt hs

/-- The senior value is defined if it is wherever it is looked at. -/
theorem Valid.senior_nonneg (h : Valid ctx π X w p t m)
    (hs : p.trancheEnabled = true → p.seniorBalance.isSome = true) : 0 ≤ p.book.senior := by
  by_cases ht : p.trancheEnabled = true
  · exact (StakePool.seniorBalance_isSome_iff h.value_lt).mp (hs ht)
  · have hoff : p.book.senior = p.book.value ∧ p.book.seniorLp = p.book.supply :=
      h.sound.toMatched.senior_eq_value (Bool.eq_false_iff.mpr ht)
    rw [hoff.1]
    exact h.sound.value_nonneg

theorem Valid.undiluted (h : Valid ctx π X w p t m) (h' : Valid ctx π Y w' p' t' m')
    (hs : 0 ≤ p.book.senior) (hs' : 0 ≤ p'.book.senior)
    (hsenior : p.book.seniorPrice ≤ p'.book.seniorPrice)
    (hjunior : 0 < p'.book.juniorLp → p.book.juniorPrice ≤ p'.book.juniorPrice) :
    Undiluted p p' := by
  obtain ⟨hsupply, v, hv, hval⟩ := h.own_eq hs
  obtain ⟨hsupply', v', hv', hval'⟩ := h'.own_eq hs'
  refine ⟨(StakePool.seniorBalance_isSome_iff h'.value_lt).mpr hs', ?_, v, v', hv, hv', ?_⟩
  · intro _ hpos
    rw [StakePool.toNat_effectiveJuniorBalance, StakePool.toNat_effectiveJuniorBalance]
    exact hjunior (pos_iff.mp hpos)
  · intro _ _
    rw [hsupply, hsupply', hval, hval']
    exact hsenior

theorem Valid.junior_le {k : Pubkey} {q : Position} (h : Valid ctx π X w p t m)
    (hq : w.positions ctx.programId π k = q) (hj : q.junior = true) : q.lp ≤ p.book.juniorLp := by
  have hmatched : Ledger.Matched ⟨p.book, t.amount.toNat, w.positions ctx.programId π⟩ :=
    h.sound.toMatched
  subst hq
  exact hmatched.junior_le hj

/-- The redemption of a position follows the price of its sub-pool. -/
theorem redemption_le {b b' : Book} {junior : Bool} (hsenior : b.seniorPrice ≤ b'.seniorPrice)
    (hjunior : junior = true → b.juniorPrice ≤ b'.juniorPrice) (lp : Nat) :
    b.redemption junior lp ≤ b'.redemption junior lp := by
  unfold Book.redemption
  cases junior with
  | true => exact Shares.redeemed_mono (hjunior rfl) lp
  | false => exact Shares.redeemed_mono hsenior lp

/-- What LP of a position redeems for once the surplus of the vault is on the books. -/
theorem Valid.redeemable_eq {k : Pubkey} {q : Position} {s : StakePool} {lp : UInt64}
    (h : Valid ctx π X w p t m) (hs : 0 ≤ p.book.senior)
    (hq : w.positions ctx.programId π k = q) (hacc : accrueFeesInner p t.amount = .ok s)
    (hlp : 0 < lp.toNat) (hle : lp.toNat ≤ q.lp) :
    ∃ x, priceWithdraw s q.junior lp = .ok x ∧ x.toNat = s.book.redemption q.junior lp.toNat := by
  have hsettles := accrueFeesInner_accruesTo (f := w.positions ctx.programId π) hacc
  have hsound := hsettles.sound h.sound
  have hle' : s.book.value ≤ t.amount.toNat := hsound.toBalanced.value_le
  have hlt := t.amount.toNat_lt
  subst hq
  exact PercolatorStake.priceWithdraw_ok hsound.toMatched
    (hsettles.price_le h.sound.toMatched hs).1 (by omega) hlp hle

/-- What a bystander's LP redeems for with the surplus booked. -/
theorem Valid.redeemable_le {k : Pubkey} {q : Position} {lp x : UInt64}
    (h : Valid ctx π X w p t m) (h' : Valid ctx π Y w' p' t' m') {ms : List (Move Pubkey)}
    (hreal : Realizes ctx π e ms)
    (hrun : Transition.Run Ledger.Step (ledgerOf ctx π w p t) ms (ledgerOf ctx π w' p' t'))
    (he : ∀ amount accounts, e ≠ .instruction (.flushToInsurance amount) accounts)
    (hout : ∀ x, e ≠ .outside x) (hs : 0 ≤ p.book.senior) (hs' : 0 ≤ p'.book.senior)
    (hq : w.positions ctx.programId π k = q) (hq' : w'.positions ctx.programId π k = q)
    (hlp : 0 < lp.toNat) (hle : lp.toNat ≤ q.lp)
    (hreturns : e.returns = true → q.junior = true → (t.amount.toNat : Int) ≤ p.book.value)
    (hx : redeemable p t.amount q.junior lp = .ok x) :
    ∃ x', redeemable p' t'.amount q.junior lp = .ok x' ∧ x ≤ x' := by
  unfold redeemable at hx ⊢
  obtain ⟨s, hacc, hx⟩ := bind_eq_ok.mp hx
  have hsettles : (ledgerOf ctx π w p t).AccruesTo ⟨s.book, _, _⟩ := accrueFeesInner_accruesTo hacc
  obtain ⟨hsupply, -⟩ := lp_le_supply h.sound.toMatched (hq ▸ hle)
  obtain ⟨l', hsettles', hfees, hsenior, hjunior⟩ :=
    hreal.accruesTo hrun he hout h.sound hs (Nat.lt_of_lt_of_le hlp hsupply) hsettles
  -- the surplus can be booked afterwards too
  have hfees64 : l'.book.fees < 2 ^ 64 := by
    rcases hfees with e | e
    · exact e ▸ p'.totalFeesEarned.toNat_lt
    · exact e ▸ s.totalFeesEarned.toNat_lt
  obtain ⟨s', hacc', rfl⟩ :=
    accrueFeesInner_of_accruesTo hsettles' h'.sound.value_nonneg h'.value_lt hfees64
  obtain ⟨y, hy, ey⟩ := h.redeemable_eq hs hq hacc hlp hle
  obtain ⟨x', hx', ex'⟩ := h'.redeemable_eq hs' hq' hacc' hlp hle
  obtain rfl : x = y := by
    rw [hx] at hy
    exact Except.ok.inj hy
  refine ⟨x', bind_eq_ok.mpr ⟨s', hacc', hx'⟩, ?_⟩
  rw [UInt64.le_iff_toNat_le, ey, ex']
  refine redemption_le hsenior (fun hj => hjunior (fun hr => .inr (hreturns hr hj)) ?_) lp.toNat
  -- a junior position that is still there holds junior LP
  have hheld := (lp_le_supply (hsettles'.sound h'.sound).toMatched (hq' ▸ hle)).2 (hq' ▸ hj)
  exact Nat.lt_of_lt_of_le hlp hheld

/-- From every reachable state in which the senior value is defined, if tranches are
on, no event but a flush dilutes anybody: the prices do not fall, and the LP of every
record that the event does not act on redeems for at least what it did.  That is so on
the books as they are, and over an instruction also with the surplus of the vault booked
first, except for a junior record when insurance comes back to a surplus. -/
theorem no_dilution (h : ctx.Reached π es w) (hp : w.pool ctx.programId π = some p)
    (hs : p.trancheEnabled = true → p.seniorBalance.isSome = true) (hstep : ctx.Step π w e w')
    (he : ∀ amount accounts, e ≠ .instruction (.flushToInsurance amount) accounts) :
    ∃ p' t t', w'.pool ctx.programId π = some p' ∧ w.token p.vault = some t ∧
      w'.token p'.vault = some t' ∧ Undiluted p p' ∧
      ∀ k d lp, w.record ctx.programId k = some d → d.pool = π → ¬e.ActsOn ctx π k →
        0 < lp → lp ≤ d.lpAmount →
        (∃ x x', priceWithdraw p d.isJuniorDeposit lp = .ok x ∧
          priceWithdraw p' d.isJuniorDeposit lp = .ok x' ∧ x ≤ x') ∧
        ((∀ x, e ≠ .outside x) →
          (e.returns = true → d.isJuniorDeposit = true →
            ∃ v, p.totalPoolValue = some v ∧ t.amount ≤ v) →
          ∀ x, redeemable p t.amount d.isJuniorDeposit lp = .ok x →
            ∃ x', redeemable p' t'.amount d.isJuniorDeposit lp = .ok x' ∧ x ≤ x') := by
  obtain ⟨q, t, m, hvalid⟩ := h.stands
  obtain rfl : p = q := Option.some_inj.mp (hp.symm.trans hvalid.standing.pool_eq)
  obtain ⟨p', t', m', ms, hvalid', hreal, hrun⟩ := hvalid.step hstep
  have hnonneg : 0 ≤ p.book.senior := hvalid.senior_nonneg hs
  obtain ⟨hnonneg', hsenior⟩ := hreal.senior_le hrun he hvalid.sound.toMatched hnonneg
  have hjunior := hreal.junior_le hrun he hvalid.sound.toMatched
  refine ⟨p', t, t', hvalid'.standing.pool_eq, hvalid.standing.vault_eq,
    hvalid'.standing.vault_eq, hvalid.undiluted hvalid' hnonneg hnonneg' hsenior hjunior, ?_⟩
  intro k d lp hr hd hk hlp hle
  rw [pos_iff] at hlp
  rw [UInt64.le_iff_toNat_le] at hle
  have hold := positions_of_record hr hd
  have hnew := (hreal.position_eq hrun hk).trans hold
  refine ⟨?_, fun hout hreturns x hx => ?_⟩
  · obtain ⟨x, hx, ex⟩ := hvalid.priceWithdraw_ok hnonneg hold hlp hle
    obtain ⟨x', hx', ex'⟩ := hvalid'.priceWithdraw_ok hnonneg' hnew hlp hle
    refine ⟨x, x', hx, hx', ?_⟩
    rw [UInt64.le_iff_toNat_le, ex, ex']
    refine redemption_le hsenior (fun hj => hjunior ?_) lp.toNat
    -- a junior record that is still there holds junior LP
    have hheld := hvalid'.junior_le hnew hj
    exact Nat.lt_of_lt_of_le hlp (hle.trans hheld)
  · refine hvalid.redeemable_le hvalid' hreal hrun he hout hnonneg hnonneg' hold hnew hlp hle
      (fun hr hj => ?_) hx
    obtain ⟨v, hv, hle⟩ := hreturns hr hj
    rw [StakePool.totalPoolValue_eq_some] at hv
    rw [hv]
    exact Int.ofNat_le.mpr (UInt64.le_iff_toNat_le.mp hle)

end

namespace Sample

/-- A loss that leaves the junior tranche something, and a surplus to book. -/
def junior : List Action :=
  [enableTranches, deposit alice 100000, depositJunior bob 50000, flush 30000, .send 3000,
    .tick ⟨200, 1⟩]

theorem junior_state : (run (junior ++ [withdraw bob 50000])).isSome = true ∧
    ((after junior).pool ctx.programId pool).map (fun p =>
      (p.seniorBalance.isSome, p.vault, (redeemable p 123000 false 10000).toOption)) =
      some (true, vault, some 10199) ∧
    ((after junior).token vault).map TokenAccount.amount = some 123000 ∧
    ((after junior).record ctx.programId (ctx.depositPda pool (key alice))).map
      (fun d => (d.pool, d.isJuniorDeposit, d.lpAmount)) = some (pool, false, 100000) := by
  decide +kernel

/-- Bob leaves with what the loss has left him, and Alice's LP is worth no less, with or
without the surplus. -/
theorem no_dilution_exit :
    ∃ p p' t t' x x' y y', (after junior).pool ctx.programId pool = some p ∧
      (after (junior ++ [withdraw bob 50000])).pool ctx.programId pool = some p' ∧
      (after junior).token p.vault = some t ∧
      (after (junior ++ [withdraw bob 50000])).token p'.vault = some t' ∧ Undiluted p p' ∧
      priceWithdraw p false 10000 = .ok x ∧ priceWithdraw p' false 10000 = .ok x' ∧ x ≤ x' ∧
      redeemable p t.amount false 10000 = .ok y ∧ redeemable p' t'.amount false 10000 = .ok y' ∧
      y ≤ y' := by
  obtain ⟨hrun, hpool, htoken, hrecord⟩ := junior_state
  have hstep := after_step hrun
  obtain ⟨p, hp, hread⟩ := Option.map_eq_some_iff.mp hpool
  obtain ⟨d, hd, hfields⟩ := Option.map_eq_some_iff.mp hrecord
  simp only [Prod.mk.injEq] at hread hfields
  obtain ⟨hs, hvault, hbooked⟩ := hread
  obtain ⟨hpi, hjunior, hlp⟩ := hfields
  obtain ⟨p', t, t', hp', ht, ht', hundiluted, hbystander⟩ :=
    no_dilution (after_reached hstep.1) hp (fun _ => hs) hstep.2 (fun _ _ e => by cases e)
  have hne : ¬(withdraw bob 50000).event.ActsOn ctx pool (ctx.depositPda pool (key alice)) := by
    intro ⟨user, huser, hk⟩
    cases huser
    revert hk
    decide
  obtain ⟨⟨x, x', hx, hx', hle⟩, hsurplus⟩ :=
    hbystander _ d 10000 hd hpi hne (by decide) (by rw [hlp]; decide)
  rw [hvault] at ht
  have hamount : t.amount = 123000 := by
    rw [ht, Option.map_some, Option.some_inj] at htoken
    exact htoken
  have hy : redeemable p t.amount false 10000 = .ok 10199 := by
    rw [hamount]
    exact toOption_eq_some.mp hbooked
  rw [hjunior] at hx hx' hsurplus
  obtain ⟨y', hy', hley⟩ := hsurplus (fun _ e => by cases e) (fun e => by cases e) _ hy
  exact ⟨p, p', t, t', x, x', _, y', hp, hp', hvault ▸ ht, ht', hundiluted, hx, hx', hle, hy, hy',
    hley⟩

/-- A loss that takes more than the junior tranche, and a surplus that is not booked. -/
def unbooked : List Action :=
  [enableTranches, deposit alice 100000, depositJunior bob 50000, flush 140000, .send 1000000,
    .tick ⟨200, 1⟩]

theorem unbooked_payouts : (run (unbooked ++ [withdraw bob 10000])).isSome = true ∧
    (run (unbooked ++ [giveBack 90000] ++ [withdraw bob 10000])).isSome = true ∧
    ((after unbooked).pool Sample.ctx.programId pool).map (fun p =>
      (p.trancheEnabled, decide (0 < p.totalLpSupply), p.seniorBalance)) =
      some (true, true, some 10000) ∧
    ((after unbooked).token (ata bob)).map TokenAccount.amount = some 950000 ∧
    ((after (unbooked ++ [withdraw bob 10000])).token (ata bob)).map TokenAccount.amount =
      some (950000 + 148663) ∧
    ((after (unbooked ++ [giveBack 90000] ++ [withdraw bob 10000])).token (ata bob)).map
      TokenAccount.amount = some (950000 + 66665) := by decide +kernel

/-- Insurance comes back, and the same LP of Bob, who has done nothing, is paid less than
half of what it would have been. -/
theorem late_return :
    Sample.ctx.Reached pool (unbooked.map Action.event) (after unbooked) ∧
    Sample.ctx.Step pool (after unbooked) (giveBack 90000).event
      (after (unbooked ++ [giveBack 90000])) ∧
    ¬(giveBack 90000).event.ActsOn Sample.ctx pool (Sample.ctx.depositPda pool (key bob)) ∧
    Sample.ctx.Step pool (after unbooked) (withdraw bob 10000).event
      (after (unbooked ++ [withdraw bob 10000])) ∧
    Sample.ctx.Step pool (after (unbooked ++ [giveBack 90000])) (withdraw bob 10000).event
      (after (unbooked ++ [giveBack 90000] ++ [withdraw bob 10000])) ∧
    ∃ p, (after unbooked).pool Sample.ctx.programId pool = some p ∧ p.trancheEnabled = true ∧
      0 < p.totalLpSupply ∧ p.seniorBalance = some 10000 ∧
      ((after unbooked).token (ata bob)).map TokenAccount.amount = some 950000 ∧
      ((after (unbooked ++ [withdraw bob 10000])).token (ata bob)).map TokenAccount.amount =
        some (950000 + 148663) ∧
      ((after (unbooked ++ [giveBack 90000] ++ [withdraw bob 10000])).token (ata bob)).map
        TokenAccount.amount = some (950000 + 66665) := by
  obtain ⟨hnow, hlater, hpool, hpaid⟩ := unbooked_payouts
  obtain ⟨p, hp, hread⟩ := Option.map_eq_some_iff.mp hpool
  simp only [Prod.mk.injEq, decide_eq_true_eq] at hread
  obtain ⟨htranches, hsupply, hsenior⟩ := hread
  obtain ⟨hreached, hwithdraw⟩ := after_step hnow
  obtain ⟨hback, hwithdraw'⟩ := after_step hlater
  obtain ⟨-, hgive⟩ := after_step hback
  exact ⟨after_reached hreached, hgive, fun h => h, hwithdraw, hwithdraw', p, hp, htranches,
    hsupply, hsenior, hpaid⟩

end Sample

end PercolatorStake
