import PercolatorStake.Execution
import PercolatorStake.Effect.Settings

/-!
# The cooldown timelock

Runs with the slot of every event.  The cooldown of a pool rises only by the commit
of a proposal that is the last word on the timelock and at least the timelock old.
Between the proposal and its commit the cooldown does not rise, so whoever had
cooled down when the increase was proposed can leave before it takes effect.

Nothing here needs the slots to come in order.
-/

namespace PercolatorStake

open Result Word

/-! ## Events and slots -/

/-- The events that write the pending proposal. -/
def Event.retimes : Event → Bool
  | .instruction (.proposeCooldownIncrease _) _ | .instruction .commitCooldownIncrease _
  | .instruction .cancelCooldownIncrease _ => true
  | _ => false

/-- Who makes a deposit. -/
def Event.depositor : Event → Option Pubkey
  | .instruction (.deposit _) accounts | .instruction (.depositJunior _) accounts =>
    accounts[0]?.map AccountInfo.key
  | _ => none

/-- An event at the slot the clock shows, positive and below `2 ^ 63`. -/
def Context.TimedStep (ctx : Context) (π : Pubkey) (w : World) (l : UInt64 × Event) (w' : World) :
    Prop :=
  ctx.Step π w l.2 w' ∧ (∃ c, w.clock = some c ∧ c.slot = l.1) ∧ 0 < l.1.toNat ∧
    l.1.toNat < 2 ^ 63

/-- The check of a withdrawal, as a condition on the record and the slot. -/
def cooledDown (d : StakeDeposit) (p : StakePool) (slot : UInt64) : Prop :=
  saturatingAdd d.lastDepositSlot p.cooldownSlots ≤ slot

/-! ## The cooldown of the settings -/

section

variable {clock : Option Clock} {s s' : Settings} {ix : StakeInstruction}

theorem Settings.Step.cooldown_le (h : Settings.Step clock s ix s')
    (hix : ix ≠ .commitCooldownIncrease) : s'.cooldownSlots ≤ s.cooldownSlots := by
  cases ix with
  | initPool | initTradingPool => exact h.elim
  | updateConfig cooldown cap =>
    obtain ⟨hvalid, rfl⟩ := h
    cases cooldown with
    | none => exact UInt64.le_refl _
    | some c => exact (hvalid c rfl).2
  | commitCooldownIncrease => exact (hix rfl).elim
  | proposeCooldownIncrease =>
    obtain ⟨c, -, -, -, rfl⟩ := h
    exact UInt64.le_refl _
  | deposit | depositJunior | flushToInsurance | cancelCooldownIncrease | adminSetHwmConfig
  | setMarketResolved | burnAssetAdmin | rotateInsuranceAuthority | rotateInsuranceOperator =>
    obtain ⟨-, rfl⟩ := h
    exact UInt64.le_refl _
  | _ =>
    cases h
    exact UInt64.le_refl _

/-- Only the three instructions of the timelock write the proposal. -/
theorem Settings.Step.proposal_eq (h : Settings.Step clock s ix s') {accounts : List AccountInfo}
    (hix : Event.retimes (.instruction ix accounts) = false) :
    s'.pendingCooldownSlots = s.pendingCooldownSlots ∧
      s'.cooldownProposedAtSlot = s.cooldownProposedAtSlot := by
  cases ix with
  | initPool | initTradingPool => exact h.elim
  | commitCooldownIncrease | proposeCooldownIncrease | cancelCooldownIncrease => cases hix
  | updateConfig | deposit | depositJunior | flushToInsurance | adminSetHwmConfig
  | setMarketResolved | burnAssetAdmin | rotateInsuranceAuthority | rotateInsuranceOperator =>
    obtain ⟨-, rfl⟩ := h
    exact ⟨rfl, rfl⟩
  | _ =>
    cases h
    exact ⟨rfl, rfl⟩

/-- The cooldown is at least one slot and within its maximum. -/
def Settings.InRange (s : Settings) : Prop :=
  s.cooldownSlots ≠ 0 ∧ s.cooldownSlots ≤ maxCooldownSlots

theorem Settings.Step.inRange (h : Settings.Step clock s ix s') (hs : s.InRange) :
    s'.InRange := by
  cases ix with
  | initPool | initTradingPool => exact h.elim
  | updateConfig cooldown cap =>
    obtain ⟨hvalid, rfl⟩ := h
    cases cooldown with
    | none => exact hs
    | some c => exact (hvalid c rfl).1
  | commitCooldownIncrease =>
    obtain ⟨c, -, -, -, hvalid, rfl⟩ := h
    exact hvalid
  | proposeCooldownIncrease =>
    obtain ⟨c, -, -, -, rfl⟩ := h
    exact hs
  | deposit | depositJunior | flushToInsurance | cancelCooldownIncrease | adminSetHwmConfig
  | setMarketResolved | burnAssetAdmin | rotateInsuranceAuthority | rotateInsuranceOperator =>
    obtain ⟨-, rfl⟩ := h
    exact hs
  | _ =>
    cases h
    exact hs

end

/-! ## Records -/

section

variable {ctx : Context} {π : Pubkey} {w w' : World} {p : StakePool} {t : TokenAccount} {m : Mint}
  {e : Event} {accounts : List AccountInfo}

/-- The record at `k` keeps its depositor and the slot of its last deposit.  It may be
emptied, but does not come to life. -/
def Context.KeepsRecord (ctx : Context) (k : Pubkey) (w w' : World) : Prop :=
  w'.record ctx.programId k = w.record ctx.programId k ∨
    ∃ d d', w.record ctx.programId k = some d ∧ w'.record ctx.programId k = some d' ∧
      d'.lastDepositSlot = d.lastDepositSlot ∧ d'.user = d.user ∧
      (d'.isInitialized = 1 → d.isInitialized = 1)

theorem debitRecord_keeps {d d' : StakeDeposit} {lp : UInt64} (h : debitRecord d lp = .ok d') :
    d'.lastDepositSlot = d.lastDepositSlot ∧ d'.user = d.user ∧
      (d'.isInitialized = 1 → d.isInitialized = 1) := by
  unfold debitRecord at h
  simp only [bind_eq_ok] at h
  obtain ⟨r, -, h⟩ := h
  by_cases h0 : r = 0
  · rw [if_pos h0, ok_eq_ok] at h
    rw [← h]
    refine ⟨rfl, rfl, fun hi => ?_⟩
    have hi : (0 : UInt8) = 1 := hi
    cases hi
  · rw [if_neg h0, ok_eq_ok] at h
    rw [← h]
    exact ⟨rfl, rfl, fun hi => hi⟩

/-- The world a deposit ends in, as the world the tokens moved in with a record and the
pool written, and the record it leaves. -/
theorem DepositRun.world_eq {junior : Bool} {amount : UInt64}
    (r : DepositRun ctx w accounts junior amount w') (hst : Standing ctx π w p t m)
    (hpool : ∃ a, accounts[1]? = some a ∧ a.key = π) :
    ∃ d l, w' = ((r.paid.withLamports l).set (ctx.depositPda π r.a.user.key)
        ⟨ctx.programId, .deposit d⟩).set π ⟨ctx.programId, .pool r.final⟩ ∧
      World.TokensOnly w r.paid ∧ ctx.depositPda π r.a.user.key ≠ π ∧
      d.lastDepositSlot = r.clock.slot ∧ d.user = r.a.user.key := by
  obtain ⟨hπ, -, -⟩ := r.standing_eq hst hpool
  have hpaid := collectDeposit_changes r.collect_eq
  have hstore := r.store_eq
  obtain ⟨d₁, l, hwrite, hslot, huser⟩ : ∃ d l, r.recorded = (r.paid.withLamports l).set
      (ctx.depositPda π r.a.user.key) ⟨ctx.programId, .deposit d⟩ ∧
      d.lastDepositSlot = r.clock.slot ∧ d.user = r.a.user.key := by
    have hcredit : ∀ {d d' : StakeDeposit} {w₁ : World},
        openRecord ctx r.paid accounts r.a = .ok (w₁, d) →
        ∀ {d₁}, creditRecord ctx r.a d₁ r.clock r.lp = .ok d' →
        w₁.store r.a.depositPda (.deposit d') = .ok r.recorded →
        ∃ d l, r.recorded = (r.paid.withLamports l).set (ctx.depositPda π r.a.user.key)
          ⟨ctx.programId, .deposit d⟩ ∧ d.lastDepositSlot = r.clock.slot ∧
          d.user = r.a.user.key := by
      intro d d' w₁ hopen d₁ hcredit hst'
      obtain ⟨hkey, -, ⟨l, hset⟩, howner, -, -⟩ := openRecord_eq_ok hopen
      simp only [World.store_eq_ok] at hst'
      rw [howner, hset, hkey, hπ] at hst'
      unfold creditRecord at hcredit
      simp only [bind_eq_ok, ok_eq_ok] at hcredit
      obtain ⟨x, -, rfl⟩ := hcredit
      exact ⟨_, l, hst'.2, rfl, rfl⟩
    have hrec := r.record_eq
    cases junior with
    | false =>
      unfold depositRecord recordDeposit at hrec
      simp only [bind_eq_ok, Prod.exists] at hrec
      obtain ⟨w₁, d, hopen, _, -, d', hc, hst'⟩ := hrec
      exact hcredit hopen hc hst'
    | true =>
      unfold depositRecord recordDepositJunior at hrec
      simp only [bind_eq_ok, Prod.exists] at hrec
      obtain ⟨w₁, d, hopen, _, -, d', hc, hst'⟩ := hrec
      exact hcredit hopen hc hst'
  have hpoolπ : r.paid.pool ctx.programId π = some p :=
    (hpaid.pool_eq ctx.programId π).trans hst.pool_eq
  -- the record is written where no pool is
  have hne : ctx.depositPda π r.a.user.key ≠ π := by
    intro e
    obtain ⟨d, -, -, hacc, -⟩ := r.credited.writes
    rw [hπ, e, World.pool_eq_some.mp hpoolπ] at hacc
    rcases hacc with ⟨d₀, hd⟩ | hd
    · cases congrArg Account.data hd
    · cases congrArg Account.data hd
  have hpool₂ : r.recorded.pool ctx.programId π = some p := by
    rw [hwrite, World.pool, World.account_set_of_ne hne.symm, ← World.pool,
      World.pool_withLamports, hpoolπ]
  obtain ⟨-, hw'⟩ := (store_pool_eq_ok hπ hpool₂).mp hstore
  rw [hwrite] at hw'
  exact ⟨d₁, l, hw', hpaid, hne, hslot, huser⟩

theorem record_set_set {k j id : Pubkey} {d : StakeDeposit} {q : StakePool} (hne : k ≠ π)
    (hpool : w.pool id π = some p) :
    ((w.set k ⟨id, .deposit d⟩).set π ⟨id, .pool q⟩).record id j =
      if j = k then some d else w.record id j := by
  have hpool₁ : (w.set k ⟨id, .deposit d⟩).pool id π = some p := by
    rw [World.pool, World.account_set_of_ne hne.symm, ← World.pool, hpool]
  rw [record_setPool hpool₁]
  by_cases hk : j = k
  · rw [if_pos hk, hk, World.record_eq_some, World.account_set_self]
  · rw [if_neg hk, World.record, World.account_set_of_ne hk, World.record]

/-- An event keeps every record it makes no deposit into. -/
theorem Standing.record_step (h : Standing ctx π w p t m) (hs : ctx.Step π w e w')
    {user : Pubkey} (hk : ∀ x, e.depositor = some x →
      ctx.depositPda π x ≠ ctx.depositPda π user) :
    ctx.KeepsRecord (ctx.depositPda π user) w w' := by
  cases e with
  | outside x =>
    have hout : ctx.Outside π x w w' := hs
    exact .inl (hout.pda_eq user)
  | instruction ix accounts =>
    cases hix : ix.mints with
    | false =>
      obtain ⟨w₁, k', q, q', htokens, -, hq, hw'⟩ := process_plain hs.2.2 hix
      refine .inl ?_
      rw [hw', record_setPool hq, htokens.record_eq]
    | true =>
      obtain ⟨hpool, -, hd⟩ := id hs
      have hdeposit : ∀ {junior amount}, DepositRun ctx w accounts junior amount w' →
          (∃ a, accounts[1]? = some a ∧ a.key = π) →
          (∀ x, accounts[0]?.map AccountInfo.key = some x →
            ctx.depositPda π x ≠ ctx.depositPda π user) →
          ctx.KeepsRecord (ctx.depositPda π user) w w' := by
        intro junior amount r hpool hk
        obtain ⟨d, l, hw', hpaid, hne, -, -⟩ := r.world_eq h hpool
        have hfirst := hk r.a.user.key (by rw [(DepositAccounts.next_eq_ok r.next_eq).1]; rfl)
        refine .inl ?_
        rw [hw', record_set_set (w := r.paid.withLamports l) hne
          ((hpaid.pool_eq _ _).trans h.pool_eq), if_neg hfirst.symm, World.record_withLamports,
          hpaid.record_eq]
      cases ix with
      | deposit =>
        obtain ⟨r⟩ := processDeposit_eq_ok.mp hd
        exact hdeposit r hpool hk
      | depositJunior =>
        obtain ⟨r⟩ := processDepositJunior_eq_ok.mp hd
        exact hdeposit r hpool hk
      | withdraw lp =>
        obtain ⟨r⟩ := processWithdraw_eq_ok.mp hd
        obtain ⟨hπ, -, -⟩ := r.standing_eq h hpool
        obtain ⟨v, s, -, -, -, -, hsame, hw', hpaid, -⟩ := r.settled h hpool
        obtain ⟨hpda, hrec⟩ := r.record_eq
        rw [hpda, hπ] at hrec
        have hne : ctx.depositPda π r.a.user.key ≠ π := by
          intro e
          rw [e, World.pool_eq_some.mp h.pool_eq] at hrec
          cases congrArg Account.data hrec
        have hrecord := record_set_set (j := ctx.depositPda π user) (d := r.debited)
          (q := r.final) hne ((hpaid.pool_eq ctx.programId π).trans h.pool_eq)
        rw [← hw'] at hrecord
        by_cases hu : ctx.depositPda π user = ctx.depositPda π r.a.user.key
        · rw [if_pos hu] at hrecord
          have hdebit := r.debit_eq
          rw [hsame] at hdebit
          exact .inr ⟨r.deposit, r.debited, hu ▸ World.record_eq_some.mpr hrec, hrecord,
            debitRecord_keeps hdebit⟩
        · rw [if_neg hu, hpaid.record_eq] at hrecord
          exact .inl hrecord
      | initPool | initTradingPool =>
        obtain ⟨q, -, hstep, -⟩ := h.settings_step hs
        exact hstep.elim
      | _ => cases hix

/-! ## Settings along a run -/

/-- The pending proposal is the last word on the timelock among `ls`. -/
def Proposal (ls : List (UInt64 × Event)) (s : Settings) : Prop :=
  s.cooldownProposedAtSlot = 0 ∨ ∃ ls₁ accounts ls₂, ls = ls₁ ++ (s.cooldownProposedAtSlot,
    .instruction (.proposeCooldownIncrease s.pendingCooldownSlots) accounts) :: ls₂ ∧
    ∀ l ∈ ls₂, l.2.retimes = false

theorem Proposal.keep {ls : List (UInt64 × Event)} {s s' : Settings} {l : UInt64 × Event}
    (h : Proposal ls s) (hl : l.2.retimes = false)
    (hpending : s'.pendingCooldownSlots = s.pendingCooldownSlots)
    (hslot : s'.cooldownProposedAtSlot = s.cooldownProposedAtSlot) : Proposal (ls ++ [l]) s' := by
  unfold Proposal
  rw [hpending, hslot]
  rcases h with h0 | ⟨ls₁, accounts, ls₂, hls, hlater⟩
  · exact .inl h0
  · refine .inr ⟨ls₁, accounts, ls₂ ++ [l], ?_, ?_⟩
    · rw [hls, List.append_assoc, List.cons_append]
    · intro l' hl'
      rcases List.mem_append.mp hl' with hl' | hl'
      · exact hlater l' hl'
      · rw [List.mem_singleton.mp hl']
        exact hl

theorem Proposal.step {ls : List (UInt64 × Event)} {s s' : Settings} {ix : StakeInstruction}
    {slot : UInt64} (h : Proposal ls s) (hclock : ∃ c, w.clock = some c ∧ c.slot = slot)
    (hs : Settings.Step w.clock s ix s') :
    Proposal (ls ++ [(slot, .instruction ix accounts)]) s' := by
  cases hix : Event.retimes (.instruction ix accounts) with
  | false =>
    obtain ⟨hpending, hslot⟩ := hs.proposal_eq hix
    exact h.keep hix hpending hslot
  | true =>
    cases ix with
    | proposeCooldownIncrease slots =>
      obtain ⟨c, hc, -, -, rfl⟩ := hs
      obtain ⟨c', hc', hslot⟩ := hclock
      obtain rfl : c = c' := Option.some_inj.mp (hc.symm.trans hc')
      refine .inr ⟨ls, accounts, [], ?_, fun l hl => (by cases hl)⟩
      rw [← hslot]
    | commitCooldownIncrease =>
      obtain ⟨c, -, -, -, -, rfl⟩ := hs
      exact .inl rfl
    | cancelCooldownIncrease =>
      obtain ⟨-, rfl⟩ := hs
      exact .inl rfl
    | _ => cases hix

/-- A live record was last credited by its own depositor, at the slot it shows. -/
def Context.LastDeposit (ctx : Context) (π : Pubkey) (ls : List (UInt64 × Event)) (w : World) :
    Prop :=
  ∀ user d, w.record ctx.programId (ctx.depositPda π user) = some d → d.isInitialized = 1 →
    ∃ ls₁ e ls₂, ls = ls₁ ++ (d.lastDepositSlot, e) :: ls₂ ∧ e.depositor = some d.user ∧
      ∀ l ∈ ls₂, ∀ x, l.2.depositor = some x → ctx.depositPda π x ≠ ctx.depositPda π user

theorem Context.LastDeposit.step {ls : List (UInt64 × Event)} {l : UInt64 × Event}
    (h : ctx.LastDeposit π ls w) (hst : Standing ctx π w p t m) (hs : ctx.TimedStep π w l w') :
    ctx.LastDeposit π (ls ++ [l]) w' := by
  obtain ⟨hs, ⟨c, hc, hslot⟩, -, -⟩ := hs
  intro user d hd hlive
  by_cases hk : ∀ x, l.2.depositor = some x → ctx.depositPda π x ≠ ctx.depositPda π user
  · -- the record was live before, with the same depositor and slot
    obtain ⟨d₀, hd₀, hlast, huser, hlive₀⟩ : ∃ d₀, w.record ctx.programId
        (ctx.depositPda π user) = some d₀ ∧ d.lastDepositSlot = d₀.lastDepositSlot ∧
        d.user = d₀.user ∧ d₀.isInitialized = 1 := by
      rcases hst.record_step hs hk with heq | ⟨d₀, d', hd₀, hd', hlast, huser, hlive'⟩
      · exact ⟨d, heq ▸ hd, rfl, rfl, hlive⟩
      · obtain rfl : d = d' := Option.some_inj.mp (hd.symm.trans hd')
        exact ⟨d₀, hd₀, hlast, huser, hlive' hlive⟩
    obtain ⟨ls₁, e, ls₂, hls, he, hlater⟩ := h user d₀ hd₀ hlive₀
    refine ⟨ls₁, e, ls₂ ++ [l], ?_, huser ▸ he, ?_⟩
    · rw [hlast, hls, List.append_assoc, List.cons_append]
    · intro l' hl'
      rcases List.mem_append.mp hl' with hl' | hl'
      · exact hlater l' hl'
      · rw [List.mem_singleton.mp hl']
        exact hk
  · -- the event is a deposit into this record
    simp only [not_forall, not_not] at hk
    obtain ⟨x, hx, hpda⟩ := hk
    have hdeposit : ∀ {junior accounts amount}, DepositRun ctx w accounts junior amount w' →
        (∃ a, accounts[1]? = some a ∧ a.key = π) → accounts[0]?.map AccountInfo.key = some x →
        d.lastDepositSlot = l.1 ∧ d.user = x := by
      intro junior accounts amount r hpool hfirst
      obtain ⟨d₁, l', hw', hpaid, hne, hlast, huser⟩ := r.world_eq hst hpool
      rw [(DepositAccounts.next_eq_ok r.next_eq).1, Option.map_some, Option.some_inj] at hfirst
      rw [hw', record_set_set (w := r.paid.withLamports l') hne
        ((hpaid.pool_eq _ _).trans hst.pool_eq), hfirst, if_pos hpda.symm, Option.some_inj] at hd
      have hclock := clock_of_read r.clock_eq
      rw [hpaid.clock_eq, hc, Option.some_inj] at hclock
      rw [← hd, hlast, huser, ← hclock, hslot]
      exact ⟨rfl, hfirst⟩
    have hd' : d.lastDepositSlot = l.1 ∧ d.user = x := by
      obtain ⟨slot, e⟩ := l
      cases e with
      | outside => cases hx
      | instruction ix accounts =>
        obtain ⟨hpool, -, hrun⟩ := hs
        cases ix with
        | deposit =>
          obtain ⟨r⟩ := processDeposit_eq_ok.mp hrun
          exact hdeposit r hpool hx
        | depositJunior =>
          obtain ⟨r⟩ := processDepositJunior_eq_ok.mp hrun
          exact hdeposit r hpool hx
        | _ => cases hx
    refine ⟨ls, l.2, [], ?_, ?_, fun l' hl' => (by cases hl')⟩
    · rw [hd'.1]
    · rw [hd'.2]
      exact hx

/-! ## Runs with slots -/

/-- What holds in every world of a timed run. -/
def Context.Timed (ctx : Context) (π : Pubkey) (ls : List (UInt64 × Event)) (w : World) : Prop :=
  ∃ X p t m, Valid ctx π X w p t m ∧ p.settings.InRange ∧ Proposal ls p.settings ∧
    ctx.LastDeposit π ls w

theorem Context.Timed.step {ls : List (UInt64 × Event)} {l : UInt64 × Event}
    (h : ctx.Timed π ls w) (hs : ctx.TimedStep π w l w') : ctx.Timed π (ls ++ [l]) w' := by
  obtain ⟨X, p, t, m, hvalid, hrange, hproposal, hlast⟩ := h
  obtain ⟨p', t', m', ms, hvalid', -, -⟩ := hvalid.step hs.1
  have hlast' := hlast.step hvalid.standing hs
  obtain ⟨slot, e⟩ := l
  refine ⟨_, p', t', m', hvalid', ?_, ?_, hlast'⟩
  · rcases hvalid.standing.settings_next hs.1 hvalid'.standing.pool_eq with
      ⟨ix, accounts, -, hstep⟩ | ⟨-, rfl⟩
    · exact hstep.inRange hrange
    · exact hrange
  · rcases hvalid.standing.settings_next hs.1 hvalid'.standing.pool_eq with
      ⟨ix, accounts, rfl, hstep⟩ | ⟨⟨x, rfl⟩, rfl⟩
    · exact hproposal.step hs.2.1 hstep
    · exact hproposal.keep rfl rfl rfl

theorem Context.Genesis.timed (h : ctx.Genesis π w) : ctx.Timed π [] w := by
  obtain ⟨w₀, q, hc⟩ := h.creates
  obtain ⟨p, t, m, hvalid, hledger⟩ := h.valid
  obtain rfl : p = q := Option.some_inj.mp (hvalid.standing.pool_eq.symm.trans hc.after)
  obtain ⟨admin, slots, cap, hslots, hsettings⟩ := hc.settings_eq
  refine ⟨0, p, t, m, hvalid, ?_, ?_, ?_⟩
  · rw [hsettings]
    exact hslots
  · rw [hsettings]
    exact .inl rfl
  · -- a new pool has no live records
    intro user d hd hlive
    have hpos : w.positions ctx.programId π = fun _ => .none := congrArg Ledger.position hledger
    have hrec := positions_of_record hd (hvalid.standing.record_eq user d hd).1
    rw [hpos, hlive] at hrec
    cases congrArg Position.live hrec

theorem Context.Timed.run {ls : List (UInt64 × Event)} {w₀ : World} (hgenesis : ctx.Genesis π w₀)
    (hrun : Transition.Run (ctx.TimedStep π) w₀ ls w) : ctx.Timed π ls w :=
  hrun.history hgenesis.timed fun _ _ _ _ _ h hs => h.step hs

/-! ## The exit window -/

/-- Without a commit the cooldown does not rise. -/
theorem Valid.cooldown_run {ls : List (UInt64 × Event)} {X : Nat} (h : Valid ctx π X w p t m)
    (hrun : Transition.Run (ctx.TimedStep π) w ls w')
    (hls : ∀ l ∈ ls, ∀ accounts, l.2 ≠ .instruction .commitCooldownIncrease accounts) :
    ∃ X' p' t' m', Valid ctx π X' w' p' t' m' ∧ p'.cooldownSlots ≤ p.cooldownSlots := by
  refine hrun.invariant (I := fun w => ∃ X' p' t' m', Valid ctx π X' w p' t' m' ∧
    p'.cooldownSlots ≤ p.cooldownSlots) ?_ ⟨X, p, t, m, h, UInt64.le_refl _⟩
  intro l hl u v hu hs
  obtain ⟨X', q, t', m', hvalid, hle⟩ := hu
  obtain ⟨q', t'', m'', ms, hvalid', -, -⟩ := hvalid.step hs.1
  refine ⟨_, q', t'', m'', hvalid', ?_⟩
  rcases hvalid.standing.settings_next hs.1 hvalid'.standing.pool_eq with
    ⟨ix, accounts, he, hstep⟩ | ⟨-, rfl⟩
  · have hix : ix ≠ .commitCooldownIncrease := by
      rintro rfl
      exact hls l hl accounts he
    exact UInt64.le_trans (hstep.cooldown_le hix) hle
  · exact hle

/-- A record that is not topped up stays where it is. -/
theorem Valid.record_run {ls : List (UInt64 × Event)} {X : Nat} (h : Valid ctx π X w p t m)
    (hrun : Transition.Run (ctx.TimedStep π) w ls w') {user : Pubkey} {d : StakeDeposit}
    (hd : w.record ctx.programId (ctx.depositPda π user) = some d)
    (hls : ∀ l ∈ ls, ∀ x, l.2.depositor = some x →
      ctx.depositPda π x ≠ ctx.depositPda π user) :
    ∃ d', w'.record ctx.programId (ctx.depositPda π user) = some d' ∧
      d'.lastDepositSlot = d.lastDepositSlot := by
  have hall := hrun.invariant (I := fun w => (∃ X p t m, Valid ctx π X w p t m) ∧
    ∃ d', w.record ctx.programId (ctx.depositPda π user) = some d' ∧
      d'.lastDepositSlot = d.lastDepositSlot) ?_ ⟨⟨X, p, t, m, h⟩, d, hd, rfl⟩
  · exact hall.2
  · intro l hl u v hu hs
    obtain ⟨⟨X', q, t', m', hvalid⟩, d₁, hd₁, hlast₁⟩ := hu
    obtain ⟨q', t'', m'', ms, hvalid', -, -⟩ := hvalid.step hs.1
    refine ⟨⟨_, q', t'', m'', hvalid'⟩, ?_⟩
    rcases hvalid.standing.record_step hs.1 (hls l hl) with heq | ⟨d₂, d₃, hd₂, hd₃, hlast₃, -, -⟩
    · exact ⟨d₁, heq.trans hd₁, hlast₁⟩
    · obtain rfl : d₁ = d₂ := Option.some_inj.mp (hd₁.symm.trans hd₂)
      exact ⟨d₃, hd₃, hlast₃.trans hlast₁⟩

theorem cooledDown_mono {d d' : StakeDeposit} {q q' : StakePool} {slot slot' : UInt64}
    (h : cooledDown d q slot) (hlast : d'.lastDepositSlot = d.lastDepositSlot)
    (hle : q'.cooldownSlots ≤ q.cooldownSlots) (hslot : slot ≤ slot') :
    cooledDown d' q' slot' := by
  unfold cooledDown at h ⊢
  rw [UInt64.le_iff_toNat_le, toNat_saturatingAdd] at h ⊢
  rw [UInt64.le_iff_toNat_le] at hle hslot
  rw [hlast]
  omega

/-- From the world `u` at `slot` on, as far as `ls` leads: the cooldown is at most what
it was in `u`, and a record that had cooled down in `u` stays cooled down unless it is
topped up. -/
def Context.ExitWindow (ctx : Context) (π : Pubkey) (u : World) (slot : UInt64)
    (ls : List (UInt64 × Event)) : Prop :=
  ∀ before later v, ls = before ++ later → Transition.Run (ctx.TimedStep π) u before v →
    ∃ q q', u.pool ctx.programId π = some q ∧ v.pool ctx.programId π = some q' ∧
      q'.cooldownSlots ≤ q.cooldownSlots ∧
      ∀ user d, u.record ctx.programId (ctx.depositPda π user) = some d → cooledDown d q slot →
        (∀ l ∈ before, ∀ x, l.2.depositor = some x →
          ctx.depositPda π x ≠ ctx.depositPda π user) →
        ∃ d', v.record ctx.programId (ctx.depositPda π user) = some d' ∧
          ∀ slot', slot ≤ slot' → cooledDown d' q' slot'

theorem Valid.exitWindow {ls : List (UInt64 × Event)} {X : Nat} (h : Valid ctx π X w p t m)
    (hls : ∀ l ∈ ls, ∀ accounts, l.2 ≠ .instruction .commitCooldownIncrease accounts)
    (slot : UInt64) : ctx.ExitWindow π w slot ls := by
  intro before later v hsplit hrun
  have hbefore : ∀ l ∈ before, l ∈ ls := by
    intro l hl
    rw [hsplit]
    exact List.mem_append_left _ hl
  obtain ⟨X', q, t', m', hvalid, hle⟩ :=
    h.cooldown_run hrun fun l hl => hls l (hbefore l hl)
  refine ⟨p, q, h.standing.pool_eq, hvalid.standing.pool_eq, hle, ?_⟩
  intro user d hd hcool htop
  obtain ⟨d', hd', hlast⟩ := h.record_run hrun hd htop
  exact ⟨d', hd', fun slot' hslot => cooledDown_mono hcool hlast hle hslot⟩

/-! ## The timelock -/

/-- What the timelock guarantees for the pool `p` of the world `w`, which the events
`ls` lead to from `w₀`. -/
structure Timelocked (ctx : Context) (π : Pubkey) (w₀ : World) (ls : List (UInt64 × Event))
    (w : World) (p : StakePool) : Prop where
  range : 1 ≤ p.cooldownSlots ∧ p.cooldownSlots ≤ maxCooldownSlots
  raised : ∀ l w' p', ctx.TimedStep π w l w' → w'.pool ctx.programId π = some p' →
    p.cooldownSlots < p'.cooldownSlots →
    (∃ accounts, l.2 = .instruction .commitCooldownIncrease accounts) ∧
      ∃ ls₁ slot accounts ls₂ u, ls = ls₁ ++
          (slot, .instruction (.proposeCooldownIncrease p'.cooldownSlots) accounts) :: ls₂ ∧
        slot.toNat + timelockSlots.toNat ≤ l.1.toNat ∧ (∀ l ∈ ls₂, l.2.retimes = false) ∧
        Transition.Run (ctx.TimedStep π) w₀ ls₁ u ∧ ctx.ExitWindow π u slot
          ((slot, .instruction (.proposeCooldownIncrease p'.cooldownSlots) accounts) :: ls₂)
  kept : ∀ l w' p', ctx.TimedStep π w l w' → w'.pool ctx.programId π = some p' →
    l.2.retimes = false → p'.pendingCooldownSlots = p.pendingCooldownSlots ∧
      p'.cooldownProposedAtSlot = p.cooldownProposedAtSlot
  waited : ∀ slot lp accounts w',
    ctx.TimedStep π w (slot, .instruction (.withdraw lp) accounts) w' →
    ∃ user ls₁ deposited e ls₂, accounts[0]? = some user ∧ ls = ls₁ ++ (deposited, e) :: ls₂ ∧
      e.depositor = some user.key ∧ (∀ l ∈ ls₂, l.2.depositor ≠ some user.key) ∧
      deposited.toNat + p.cooldownSlots.toNat ≤ slot.toNat

/-- A step that raises the cooldown is a commit of the pending proposal. -/
theorem Settings.Step.raise {clock : Option Clock} {s s' : Settings} {ix : StakeInstruction}
    (h : Settings.Step clock s ix s') (hlt : s.cooldownSlots < s'.cooldownSlots) :
    ix = .commitCooldownIncrease ∧ s.cooldownProposedAtSlot ≠ 0 ∧
      s'.cooldownSlots = s.pendingCooldownSlots ∧
      ∃ c, clock = some c ∧
        s.cooldownProposedAtSlot.toNat + timelockSlots.toNat ≤ c.slot.toNat := by
  by_cases hix : ix = .commitCooldownIncrease
  · subst hix
    obtain ⟨c, hc, hne, hwindow, -, rfl⟩ := h
    exact ⟨rfl, hne, rfl, c, hc, hwindow⟩
  · exact (UInt64.not_lt.mpr (h.cooldown_le hix) hlt).elim

/-- In every run with slots: the cooldown is in range, rises only by the commit of the
last proposal after the whole timelock, with the exit window open in between, and a
withdrawal comes at least the cooldown after the last deposit of the same user. -/
theorem cooldown_timelock {w₀ : World} {ls : List (UInt64 × Event)} (hgenesis : ctx.Genesis π w₀)
    (hrun : Transition.Run (ctx.TimedStep π) w₀ ls w) :
    ∃ p, w.pool ctx.programId π = some p ∧ Timelocked ctx π w₀ ls w p := by
  obtain ⟨X, p, t, m, hvalid, hrange, hproposal, hlast⟩ := Context.Timed.run hgenesis hrun
  have hst := hvalid.standing
  refine ⟨p, hst.pool_eq, ⟨?_, ?_, ?_, ?_⟩⟩
  · obtain ⟨hne, hle⟩ := hrange
    have hne : p.cooldownSlots ≠ 0 := hne
    rw [Ne, eq_zero_iff] at hne
    refine ⟨?_, hle⟩
    rw [UInt64.le_iff_toNat_le]
    show 1 ≤ p.cooldownSlots.toNat
    omega
  · intro l w' p' hs hp' hlt
    obtain ⟨hs, ⟨c, hc, hslot⟩, -, -⟩ := hs
    rcases hst.settings_next hs hp' with ⟨ix, accounts, he, hstep⟩ | ⟨-, rfl⟩
    · obtain ⟨rfl, hne, hvalue, c', hc', hwindow⟩ := hstep.raise hlt
      obtain rfl : c = c' := Option.some_inj.mp (hc.symm.trans hc')
      refine ⟨⟨accounts, he⟩, ?_⟩
      rcases hproposal with h0 | ⟨ls₁, acc, ls₂, hls, hlater⟩
      · exact (hne h0).elim
      · have hrun' := hrun
        rw [hls] at hrun'
        obtain ⟨u, hu, hrest⟩ := Transition.run_append.mp hrun'
        have hp'c : p'.cooldownSlots = p.settings.pendingCooldownSlots := hvalue
        obtain ⟨X', q, t', m', hvalid', -, -, -⟩ := Context.Timed.run hgenesis hu
        rw [hp'c, ← hslot]
        refine ⟨ls₁, _, acc, ls₂, u, hls, hwindow, hlater, hu, hvalid'.exitWindow ?_ _⟩
        intro l' hl' accounts' he'
        rcases List.mem_cons.mp hl' with rfl | hl'
        · cases he'
        · have := hlater l' hl'
          rw [he'] at this
          cases this
    · exact (UInt64.lt_irrefl _ hlt).elim
  · intro l w' p' hs hp' hl
    rcases hst.settings_next hs.1 hp' with ⟨ix, accounts, he, hstep⟩ | ⟨-, rfl⟩
    · rw [he] at hl
      exact hstep.proposal_eq hl
    · exact ⟨rfl, rfl⟩
  · intro slot lp accounts w' hs
    obtain ⟨⟨hpool, -, hd⟩, ⟨c, hc, hslot⟩, -, hlt⟩ := hs
    obtain ⟨r⟩ := processWithdraw_eq_ok.mp hd
    obtain ⟨hπ, rfl, -⟩ := r.standing_eq hst hpool
    obtain ⟨hpda, hrec⟩ := r.record_eq
    rw [hpda, hπ] at hrec
    obtain ⟨-, -, ⟨hlive, huser, -⟩, hcool, -⟩ := checkRecord_eq_ok.mp r.check_eq
    obtain ⟨ls₁, e, ls₂, hls, he, hlater⟩ :=
      hlast r.a.user.key r.deposit (World.record_eq_some.mpr hrec) hlive
    rw [huser] at he
    refine ⟨r.a.user, ls₁, _, e, ls₂, (WithdrawAccounts.next_eq_ok r.next_eq).1, hls, he, ?_, ?_⟩
    · intro l hl hx
      exact hlater l hl _ hx rfl
    · -- the sum did not saturate: the slot is below `2 ^ 63`
      have hclock := clock_of_read r.clock_eq
      rw [hc, Option.some_inj] at hclock
      have hslot : c.slot = slot := hslot
      have hlt : slot.toNat < 2 ^ 63 := hlt
      rw [UInt64.le_iff_toNat_le, toNat_saturatingAdd, ← hclock, hslot] at hcool
      omega

/-- The slot an action is carried out at. -/
def slotLabel (w : World) (a : Action) : Option (UInt64 × Event) := do
  let c ← w.clock
  if 0 < c.slot.toNat ∧ c.slot.toNat < 2 ^ 63 then some (c.slot, a.event) else none

theorem timedStep_of_perform {a : Action} {l : UInt64 × Event} (hl : slotLabel w a = some l)
    (h : ctx.perform π w a = some w') : ctx.TimedStep π w l w' := by
  unfold slotLabel at hl
  obtain ⟨c, hc, hl⟩ := Option.bind_eq_some_iff.mp hl
  split at hl
  · rename_i hrange
    cases hl
    exact ⟨Context.perform_step h, ⟨c, hc, rfl⟩, hrange⟩
  · cases hl

/-- A deposit, a proposal, its commit after the timelock, and a withdrawal under the
raised cooldown. -/
def Sample.raisedCooldown : List Action :=
  [deposit alice 100000, proposeCooldown 500, .tick ⟨432100, 2⟩, commitCooldown,
    withdraw alice 5000]

theorem Sample.cooldown_timelock_raised :
    ∃ w₀ ls w p, Sample.ctx.Genesis pool w₀ ∧ w.pool Sample.ctx.programId pool = some p ∧
      Timelocked Sample.ctx pool w₀ ls w p ∧ p.cooldownSlots = 500 := by
  have hrun : ((Sample.ctx.performLabelled pool slotLabel (after []) raisedCooldown).map
      fun x => (x.2.pool Sample.ctx.programId pool).map (·.cooldownSlots)) =
      some (some 500) := by
    decide +kernel
  obtain ⟨⟨ls, w⟩, hw, hslots⟩ := Option.map_eq_some_iff.mp hrun
  obtain ⟨p, hp, htimelocked⟩ := cooldown_timelock after_nil_genesis
    (Context.performLabelled_run (fun _ _ _ _ hl h => timedStep_of_perform hl h) hw)
  have hslots : (w.pool Sample.ctx.programId pool).map (·.cooldownSlots) = some 500 := hslots
  rw [hp, Option.map_some, Option.some_inj] at hslots
  exact ⟨_, ls, w, p, after_nil_genesis, hp, htimelocked, hslots⟩

end

end PercolatorStake
