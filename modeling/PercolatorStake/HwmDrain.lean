import PercolatorStake.Execution
import PercolatorStake.Effect.Settings
import PercolatorStake.Lib.Watermark

/-!
# The drain limit

Inside one epoch the high-water mark of a pool is a watermark over the log of what
the events of the epoch read and cut: deposits and paying withdrawals read the pool
value, a flush cuts the mark by its amount.  So after the first reading the mark is
the largest value read, each less the flushes after it, and a withdrawal leaves the
pool above the floor of all of them.
-/

namespace PercolatorStake

open Result Word Watermark

/-! ## The floor -/

/-- The product is within 128 bits, so the floor is missing only past a word. -/
theorem Math.hwmFloor_eq (mark : UInt64) (bps : UInt16) :
    hwmFloor mark bps = narrow (mark.toNat * bps.toNat / 10000) := by
  have hmark := mark.toNat_lt
  have hbps : bps.toNat < 2 ^ 16 := bps.toNat_lt
  have hwide : (BitVec.ofNat 128 bps.toNat).toNat = bps.toNat := by
    rw [BitVec.toNat_ofNat]
    omega
  have hproduct : mark.toNat * bps.toNat < 2 ^ 64 * 2 ^ 16 :=
    Nat.mul_lt_mul'' hmark hbps
  obtain ⟨x, hx, nx⟩ := wideMul_eq (a := widen mark) (b := BitVec.ofNat 128 bps.toNat)
    (by rw [toNat_widen, hwide]; omega)
  obtain ⟨y, hy, ny⟩ := wideDiv_eq (a := x) (b := 10000) (by decide)
  unfold hwmFloor
  simp only [hx, hy, Option.bind_eq_bind, Option.bind_some]
  rw [ny, nx, toNat_widen, hwide]
  rfl

theorem Math.hwmWithdrawalAllowed_iff {value mark : UInt64} {bps : UInt16} :
    Math.hwmWithdrawalAllowed value mark bps = true ↔
      mark.toNat * bps.toNat / 10000 ≤ value.toNat := by
  unfold hwmWithdrawalAllowed
  cases h : hwmFloor mark bps with
  | some floor =>
    rw [hwmFloor_eq, narrow_eq_some] at h
    rw [← h, decide_eq_true_eq, UInt64.le_iff_toNat_le]
  | none =>
    -- a floor that does not fit is above every value
    have hfit : ¬mark.toNat * bps.toNat / 10000 < 2 ^ 64 := by
      intro e
      rw [hwmFloor_eq, narrow, if_pos e] at h
      cases h
    have hlt := value.toNat_lt
    simp only [Bool.false_eq_true, false_iff]
    omega

/-- A floor never lies above what it is a floor of. -/
theorem floor_le {n b : Nat} (h : b ≤ 10000) : n * b / 10000 ≤ n := by
  have hle : n * b ≤ n * 10000 := Nat.mul_le_mul_left n h
  omega

theorem floor_mono {level mark : Nat} (bps : Nat) (h : level ≤ mark) :
    level * bps / 10000 ≤ mark * bps / 10000 :=
  Nat.div_le_div_right (Nat.mul_le_mul_right bps h)

/-- While the mark is on, its floor is a fraction. -/
def Settings.FloorInRange (s : Settings) : Prop :=
  s.hwmEnabled = true → s.hwmFloorBps ≤ maxHwmFloorBps

theorem Settings.Step.floorInRange {clock : Option Clock} {s s' : Settings}
    {ix : StakeInstruction} (h : Settings.Step clock s ix s') (hs : s.FloorInRange) :
    s'.FloorInRange := by
  intro henabled
  rcases h.keeps.1 with ⟨hflag, hfloor⟩ | hvalid
  · rw [hfloor]
    exact hs (hflag ▸ henabled)
  · exact (hvalid henabled).2

/-! ## What an event reads -/

section

variable {ctx : Context} {π : Pubkey} {w w' : World} {p p' : StakePool} {t : TokenAccount}
  {m : Mint} {e : Event} {accounts : List AccountInfo} {E : UInt64}

/-- The collateral a step paid out. -/
def payout (p p' : StakePool) : Nat := p'.totalWithdrawn.toNat - p.totalWithdrawn.toNat

/-- What a step on the pool `p`, which it leaves as `p'`, tells the mark.  A deposit
reads the value after it, a withdrawal the value before it pays. -/
def hwmEntry (p : StakePool) (e : Event) (p' : StakePool) : Entry :=
  match e with
  | .instruction (.deposit _) _ | .instruction (.depositJunior _) _ =>
    if p.hwmEnabled = true then .reading (p'.totalPoolValue.getD 0).toNat else .quiet
  | .instruction (.withdraw _) _ =>
    if p.hwmEnabled = true ∧ 0 < payout p p' then
      .reading ((p'.totalPoolValue.getD 0).toNat + payout p p')
    else .quiet
  | .instruction (.flushToInsurance amount) _ => .cut amount.toNat
  | _ => .quiet

/-- The mark after an entry of the epoch `E`. -/
def Mark.After (E : UInt64) (k : Mark) : Entry → Mark → Prop
  | .reading level, k' => ∃ tvl : UInt64, tvl.toNat = level ∧ k' = k.refresh E tvl
  | .cut size, k' => ∃ tvl : UInt64, tvl.toNat = k.tvl.toNat - size ∧ k' = { k with tvl := tvl }
  | .quiet, k' => k' = k

theorem DepositRun.mark_after {junior : Bool} {amount : UInt64}
    (r : DepositRun ctx w accounts junior amount w') :
    if r.pool.hwmEnabled = true then
      ∃ tvl, r.final.totalPoolValue = some tvl ∧
      r.final.mark = r.pool.mark.refresh r.clock.epoch tvl
    else r.final.mark = r.pool.mark := by
  obtain ⟨-, hsettings, hmark⟩ := preAccrueFeeModes_keeps r.accrue_eq
  obtain ⟨hsettings', hmark'⟩ := depositBook_settings r.book_eq
  have henabled : r.booked.hwmEnabled = r.pool.hwmEnabled :=
    (congrArg Settings.hwmEnabled hsettings').trans (congrArg Settings.hwmEnabled hsettings)
  have hrefresh := r.refresh_eq
  unfold refreshHwmAfterDeposit at hrefresh
  rw [henabled] at hrefresh
  by_cases h : r.pool.hwmEnabled = true
  · simp only [if_pos h, bind_eq_ok, okOr_eq_ok, ok_eq_ok] at hrefresh
    obtain ⟨tvl, htvl, hfinal⟩ := hrefresh
    rw [if_pos h]
    refine ⟨tvl, ?_, ?_⟩
    · rw [StakePool.totalPoolValue_eq_some] at htvl ⊢
      rw [← hfinal, StakePool.book_refreshHwm, htvl]
    · rw [← hfinal, StakePool.mark_refreshHwm, hmark', hmark]
  · rw [if_neg h, ok_eq_ok] at hrefresh
    rw [if_neg h, ← hrefresh, hmark', hmark]

/-- A withdrawal books what it pays, and the value falls by it. -/
theorem WithdrawRun.value_final {lp : UInt64} (r : WithdrawRun ctx w accounts lp w') :
    r.final.book.value = r.accrued.book.value - r.amount.toNat ∧
      r.final.book.withdrawn = r.accrued.book.withdrawn + r.amount.toNat := by
  obtain ⟨-, -, hbook⟩ := bookWithdraw_book r.book_eq
  rw [r.book_floored.2] at hbook
  split at hbook
  · rcases hbook with ⟨-, hbook⟩ | ⟨-, -, hbook⟩
    · rw [hbook]
      refine ⟨?_, rfl⟩
      simp only [Book.value, Book.settled, Book.debited]
      omega
    · rw [hbook]
      refine ⟨?_, rfl⟩
      simp only [Book.value, Book.debited]
      omega
  · rw [hbook]
    refine ⟨?_, rfl⟩
    simp only [Book.value, Book.debited]
    omega

/-- A paying withdrawal refreshes the mark with the value before it pays and leaves
the pool above the floor; any other leaves the mark alone. -/
theorem WithdrawRun.mark_after {lp : UInt64} (r : WithdrawRun ctx w accounts lp w') :
    if r.pool.hwmEnabled = true ∧ 0 < r.amount.toNat then
      ∃ tvl post, r.accrued.totalPoolValue = some tvl ∧ r.final.totalPoolValue = some post ∧
        r.final.mark = r.pool.mark.refresh r.clock.epoch tvl ∧
        r.final.mark.tvl.toNat * r.final.hwmFloorBps.toNat / 10000 ≤ post.toNat
    else r.final.mark = r.pool.mark := by
  obtain ⟨-, hsettings, hmark⟩ := preAccrueFeeModes_keeps r.accrue_eq
  obtain ⟨hsettings', hmark'⟩ := bookWithdraw_settings r.book_eq
  have henabled : r.accrued.hwmEnabled = r.pool.hwmEnabled :=
    congrArg Settings.hwmEnabled hsettings
  -- an exit that is wiped out pays nothing, and nothing else pays nothing
  have hwiped : fullyWipedJuniorExit r.accrued r.deposit.isJuniorDeposit r.amount = false ↔
      0 < r.amount.toNat := by
    constructor
    · intro hw
      have hne : r.amount ≠ 0 := fun e => r.pays ⟨e, hw⟩
      rw [Ne, eq_zero_iff] at hne
      omega
    · intro hpos
      unfold fullyWipedJuniorExit
      have hne : (r.amount == 0) = false := by
        rw [beq_eq_false_iff_ne, Ne, eq_zero_iff]
        omega
      rw [hne, Bool.and_false]
  have hfloor := r.floor_eq
  by_cases h : r.pool.hwmEnabled = true ∧ 0 < r.amount.toNat
  · rw [if_pos ⟨henabled.trans h.1, hwiped.mpr h.2⟩] at hfloor
    rw [if_pos h]
    unfold enforceHwmFloor at hfloor
    simp only [bind_eq_ok, okOr_eq_ok, rejectIf_eq_ok, ok_eq_ok, checkedSub_eq_some,
      Bool.not_eq_false] at hfloor
    obtain ⟨tvl, htvl, post, hpost, _, hallowed, hfloored⟩ := hfloor
    have hvalue := StakePool.totalPoolValue_eq_some.mp htvl
    have hm : r.final.mark = r.pool.mark.refresh r.clock.epoch tvl := by
      rw [hmark', ← hfloored, StakePool.mark_refreshHwm, hmark]
    refine ⟨tvl, post, htvl, ?_, hm, ?_⟩
    · rw [StakePool.totalPoolValue_eq_some, r.value_final.1, hvalue]
      omega
    · have hbps : r.final.hwmFloorBps = (r.accrued.refreshHwm r.clock.epoch tvl).1.hwmFloorBps := by
        rw [hfloored]
        exact congrArg Settings.hwmFloorBps hsettings'
      rw [StakePool.refreshHwm_snd, StakePool.mark_refreshHwm, hmark, ← hbps] at hallowed
      rw [hm]
      exact Math.hwmWithdrawalAllowed_iff.mp hallowed
  · have hn : ¬(r.accrued.hwmEnabled = true ∧
        fullyWipedJuniorExit r.accrued r.deposit.isJuniorDeposit r.amount = false) :=
      fun e => h ⟨henabled.symm.trans e.1, hwiped.mp e.2⟩
    rw [if_neg hn] at hfloor
    rw [if_neg h, hmark', ← Except.ok.inj hfloor, hmark]

/-! ## One step -/

theorem WithdrawRun.payout_eq {lp : UInt64} (r : WithdrawRun ctx w accounts lp w')
    (h : Standing ctx π w p t m) (hpool : ∃ a, accounts[1]? = some a ∧ a.key = π) :
    payout p r.final = r.amount.toNat := by
  obtain ⟨-, -, hacc⟩ := r.standing_eq h hpool
  have hwithdrawn : r.accrued.book.withdrawn = p.book.withdrawn := by
    obtain ⟨-, ⟨hbook, -⟩ | ⟨f, j, -, -, -, hbook, -⟩⟩ := accrueFeesInner_book hacc
    · rw [hbook]
    · rw [hbook]
      rfl
  have hfinal := r.value_final.2
  rw [hwithdrawn] at hfinal
  have hfinal : r.final.totalWithdrawn.toNat = p.totalWithdrawn.toNat + r.amount.toNat := hfinal
  unfold payout
  omega

theorem DepositRun.mark_step {junior : Bool} {amount : UInt64} {c : Clock}
    (r : DepositRun ctx w accounts junior amount w') (h : Standing ctx π w p t m)
    (hpool : ∃ a, accounts[1]? = some a ∧ a.key = π) (hc : w.clock = some c) :
    Mark.After c.epoch p.mark
      (if p.hwmEnabled = true then .reading (r.final.totalPoolValue.getD 0).toNat else .quiet)
      r.final.mark := by
  obtain ⟨-, rfl, -⟩ := r.standing_eq h hpool
  have hclock := clock_of_read r.clock_eq
  rw [(collectDeposit_changes r.collect_eq).clock_eq, hc, Option.some_inj] at hclock
  have hmark := r.mark_after
  rw [← hclock] at hmark
  by_cases henabled : r.pool.hwmEnabled = true
  · rw [if_pos henabled] at hmark ⊢
    obtain ⟨tvl, htvl, hmark⟩ := hmark
    refine ⟨tvl, ?_, hmark⟩
    rw [htvl, Option.getD_some]
  · rw [if_neg henabled] at hmark ⊢
    exact hmark

theorem WithdrawRun.mark_step {lp : UInt64} {c : Clock} (r : WithdrawRun ctx w accounts lp w')
    (h : Standing ctx π w p t m) (hpool : ∃ a, accounts[1]? = some a ∧ a.key = π)
    (hc : w.clock = some c) :
    Mark.After c.epoch p.mark
      (if p.hwmEnabled = true ∧ 0 < payout p r.final then
        .reading ((r.final.totalPoolValue.getD 0).toNat + payout p r.final) else .quiet)
      r.final.mark := by
  have hpayout := r.payout_eq h hpool
  obtain ⟨-, rfl, -⟩ := r.standing_eq h hpool
  have hclock := clock_of_read r.clock_eq
  rw [hc, Option.some_inj] at hclock
  have hmark := r.mark_after
  rw [← hclock] at hmark
  rw [hpayout]
  by_cases hpays : r.pool.hwmEnabled = true ∧ 0 < r.amount.toNat
  · rw [if_pos hpays] at hmark ⊢
    obtain ⟨tvl, post, htvl, hpost, hmark, -⟩ := hmark
    refine ⟨tvl, ?_, hmark⟩
    rw [hpost, Option.getD_some]
    rw [StakePool.totalPoolValue_eq_some] at htvl hpost
    have hfinal := r.value_final.1
    omega
  · rw [if_neg hpays] at hmark ⊢
    exact hmark

/-- What one event does to the mark is what it tells the mark. -/
theorem Standing.mark_step {c : Clock} (h : Standing ctx π w p t m) (hs : ctx.Step π w e w')
    (hc : w.clock = some c) (hp' : w'.pool ctx.programId π = some p') :
    Mark.After c.epoch p.mark (hwmEntry p e p') p'.mark := by
  cases e with
  | outside x =>
    have hpool := hs.pool_eq
    rw [hp', h.pool_eq, Option.some_inj] at hpool
    rw [hpool]
    rfl
  | instruction ix accounts =>
    obtain ⟨q, hrw, -, hmark⟩ := h.settings_step hs
    obtain rfl : q = p' := Option.some_inj.mp (hrw.after.symm.trans hp')
    obtain ⟨hpool, -, hd⟩ := hs
    cases ix with
    | deposit amount =>
      obtain ⟨r⟩ := processDeposit_eq_ok.mp hd
      obtain ⟨hk, -⟩ := r.standing_eq h hpool
      obtain rfl : r.final = q := Option.some_inj.mp (r.rewrites.after.symm.trans (hk ▸ hp'))
      exact r.mark_step h hpool hc
    | depositJunior amount =>
      obtain ⟨r⟩ := processDepositJunior_eq_ok.mp hd
      obtain ⟨hk, -⟩ := r.standing_eq h hpool
      obtain rfl : r.final = q := Option.some_inj.mp (r.rewrites.after.symm.trans (hk ▸ hp'))
      exact r.mark_step h hpool hc
    | withdraw lp =>
      obtain ⟨r⟩ := processWithdraw_eq_ok.mp hd
      obtain ⟨hk, -⟩ := r.standing_eq h hpool
      obtain rfl : r.final = q := Option.some_inj.mp (r.rewrites.after.symm.trans (hk ▸ hp'))
      exact r.mark_step h hpool hc
    | flushToInsurance amount =>
      obtain ⟨r⟩ := processFlushToInsurance_run hd
      obtain ⟨hk, rfl⟩ := h.pool_read hpool (FlushAccounts.next_eq_ok r.next_eq) r.pool_eq
      obtain rfl : r.final = q := Option.some_inj.mp (r.rewrites.after.symm.trans (hk ▸ hp'))
      exact ⟨_, toNat_saturatingSub .., (bookFlush_settings r.book_eq).2⟩
    | _ => exact hmark rfl

/-- A withdrawal that pays while the mark is on leaves the pool above the floor of the
mark it leaves. -/
theorem Standing.floor_step {lp : UInt64} (h : Standing ctx π w p t m)
    (hs : ctx.Step π w (.instruction (.withdraw lp) accounts) w')
    (hp' : w'.pool ctx.programId π = some p') (henabled : p.hwmEnabled = true)
    (hpays : 0 < payout p p') :
    p'.hwmFloorBps = p.hwmFloorBps ∧ ∃ v, p'.totalPoolValue = some v ∧
      p'.mark.tvl.toNat * p'.hwmFloorBps.toNat / 10000 ≤ v.toNat := by
  obtain ⟨hpool, -, hd⟩ := hs
  obtain ⟨r⟩ := processWithdraw_eq_ok.mp hd
  obtain ⟨hk, -⟩ := r.standing_eq h hpool
  obtain rfl : r.final = p' := Option.some_inj.mp (r.rewrites.after.symm.trans (hk ▸ hp'))
  rw [r.payout_eq h hpool] at hpays
  obtain ⟨-, rfl, -⟩ := r.standing_eq h hpool
  have hmark := r.mark_after
  rw [if_pos ⟨henabled, hpays⟩] at hmark
  obtain ⟨tvl, post, -, hpost, -, hfloor⟩ := hmark
  exact ⟨congrArg Settings.hwmFloorBps r.settings_eq, post, hpost, hfloor⟩

end

/-! ## The value between payouts -/

/-- Collateral a move pays out to a depositor. -/
def Move.payout {K : Type} : Move K → Nat
  | .withdraw _ _ x | .withdrawJunior _ _ x | .exitJunior _ _ x => x
  | _ => 0

theorem Ledger.Step.value_le {K : Type} [DecidableEq K] {l l' : Ledger K} {mv : Move K}
    (hm : Ledger.Step l mv l') (hflush : ∀ x, mv ≠ .flush x) :
    l.book.value ≤ l'.book.value + mv.payout := by
  cases hm with
  | flush => exact (hflush _ rfl).elim
  | _ =>
    simp only [Book.value, Move.payout]
    omega

theorem Ledger.Step.withdrawn_eq {K : Type} [DecidableEq K] {l l' : Ledger K} {mv : Move K}
    (hm : Ledger.Step l mv l') : l'.book.withdrawn = l.book.withdrawn + mv.payout := by
  cases hm <;> rfl

section

variable {ctx : Context} {π : Pubkey} {w w' : World} {p p' : StakePool} {t t' : TokenAccount}
  {m m' : Mint} {e : Event} {ms : List (Move Pubkey)} {X : Nat}

theorem Realizes.payout (h : Realizes ctx π e ms)
    (he : ∀ lp accounts, e ≠ .instruction (.withdraw lp) accounts) :
    (ms.map Move.payout).sum = 0 := by
  cases e with
  | outside =>
    rw [show ms = _ from h]
    rfl
  | instruction ix accounts =>
    cases ix with
    | deposit | depositJunior =>
      obtain ⟨_, acc, _, -, hacc, rfl⟩ := h
      rw [List.map_append, List.sum_append, hacc.sum_eq_zero fun _ _ => rfl]
      rfl
    | withdraw => exact (he _ _ rfl).elim
    | accrueFees => exact Accrual.sum_eq_zero h fun _ _ => rfl
    | _ =>
      rw [show ms = _ from h]
      rfl

/-- Without a flush the value falls by no more than what is paid out, and only a
withdrawal pays out. -/
theorem Valid.value_le (h : Valid ctx π X w p t m) (hs : ctx.Step π w e w')
    (hp' : w'.pool ctx.programId π = some p')
    (hflush : ∀ amount accounts, e ≠ .instruction (.flushToInsurance amount) accounts) :
    p.book.value ≤ p'.book.value + payout p p' ∧
      (0 < payout p p' → ∃ lp accounts, e = .instruction (.withdraw lp) accounts) := by
  obtain ⟨q, t', m', ms, hv', hreal, hrun⟩ := h.step hs
  obtain rfl : q = p' := Option.some_inj.mp (hv'.standing.pool_eq.symm.trans hp')
  have hsum := hrun.tally Move.payout (I := fun n l => p.book.value ≤ l.book.value + (n : Nat) ∧
      l.book.withdrawn = p.book.withdrawn + n) (m := 0)
    (by
      intro mv hmv n l l' hl hm
      have hle := hm.value_le (hreal.ne_flush hflush mv hmv)
      have hwithdrawn := hm.withdrawn_eq
      omega)
    ⟨by simp [ledgerOf], by simp [ledgerOf]⟩
  obtain ⟨hle, hwithdrawn⟩ := hsum
  have hwithdrawn : q.totalWithdrawn.toNat = p.totalWithdrawn.toNat +
    (0 + (ms.map Move.payout).sum) := hwithdrawn
  have hle : p.book.value ≤ q.book.value + (0 + (ms.map Move.payout).sum : Nat) := hle
  have hpayout : payout p q = (ms.map Move.payout).sum := by
    unfold PercolatorStake.payout
    omega
  refine ⟨by omega, ?_⟩
  intro hpos
  by_contra hno
  have hzero := hreal.payout fun lp accounts he => hno ⟨lp, accounts, he⟩
  omega

end

/-! ## Runs inside an epoch -/

/-- A step inside the epoch `E`, labelled with its event and what it tells the mark. -/
def Context.MarkedStep (ctx : Context) (π : Pubkey) (E : UInt64) (w : World) (l : Event × Entry)
    (w' : World) : Prop :=
  ctx.Step π w l.1 w' ∧ (∃ c, w.clock = some c ∧ c.epoch = E) ∧
    ∃ p p', w.pool ctx.programId π = some p ∧ w'.pool ctx.programId π = some p' ∧
      l.2 = hwmEntry p l.1 p'

/-- What the mark has been told in the epoch `E`, since it was as in `p₀`.  A mark that
belongs to the epoch already counts as a reading. -/
def epochLog (E : UInt64) (p₀ : StakePool) (ls : List (Event × Entry)) : List Entry :=
  (if p₀.hwmLastEpoch = E then [.reading p₀.epochHighWaterTvl.toNat] else []) ++ ls.map Prod.snd

/-- The mark follows its log once it has been read in the epoch. -/
def Mark.Follows (E : UInt64) (log : List Entry) (k : Mark) : Prop :=
  (Read log → k.epoch = E ∧ k.tvl.toNat = crest log) ∧ (¬Read log → k.epoch ≠ E)

section

variable {ctx : Context} {π : Pubkey} {w w₀ w' : World} {p p₀ p' : StakePool}
  {t : TokenAccount} {m : Mint} {E : UInt64} {l : Event × Entry} {ls : List (Event × Entry)}
  {log : List Entry} {k k' : Mark} {x : Entry} {X : Nat} {es : List Event}

theorem read_snoc : Read (log ++ [x]) ↔ Read log ∨ ∃ level, x = .reading level := by
  simp only [read_iff, List.mem_append, List.mem_singleton]
  constructor
  · rintro ⟨level, h | h⟩
    · exact .inl ⟨level, h⟩
    · exact .inr ⟨level, h.symm⟩
  · rintro (⟨level, h⟩ | ⟨level, h⟩)
    · exact ⟨level, .inl h⟩
    · exact ⟨level, .inr h.symm⟩

theorem crest_of_not_read (h : ¬Read log) : crest log = 0 := by
  unfold Read at h
  rw [ne_eq, not_not] at h
  unfold crest
  rw [h]
  rfl

theorem Mark.Follows.step (h : k.Follows E log) (hk : k.After E x k') :
    k'.Follows E (log ++ [x]) := by
  obtain ⟨hread, hstale⟩ := h
  cases x with
  | reading level =>
    obtain ⟨tvl, rfl, rfl⟩ := hk
    refine ⟨fun _ => ⟨Mark.epoch_refresh .., ?_⟩,
      fun hno => (hno (read_snoc.mpr (.inr ⟨_, rfl⟩))).elim⟩
    rw [Mark.tvl_refresh, crest_snoc]
    by_cases hr : Read log
    · obtain ⟨hepoch, htvl⟩ := hread hr
      rw [if_pos hepoch.symm, htvl]
      rfl
    · rw [if_neg fun e => hstale hr e.symm, crest_of_not_read hr]
      exact (Nat.zero_max _).symm
  | cut size =>
    obtain ⟨tvl, htvl, rfl⟩ := hk
    have hiff : Read (log ++ [.cut size]) ↔ Read log := by
      rw [read_snoc]
      exact or_iff_left fun ⟨level, e⟩ => by cases e
    rw [Mark.Follows, hiff, crest_snoc]
    refine ⟨fun hr => ⟨(hread hr).1, ?_⟩, hstale⟩
    show tvl.toNat = crest log - size
    rw [htvl, (hread hr).2]
  | quiet =>
    have hk : k' = k := hk
    have hiff : Read (log ++ [.quiet]) ↔ Read log := by
      rw [read_snoc]
      exact or_iff_left fun ⟨level, e⟩ => by cases e
    rw [hk, Mark.Follows, hiff, crest_snoc]
    exact ⟨hread, hstale⟩

theorem epochLog_snoc : epochLog E p₀ (ls ++ [l]) = epochLog E p₀ ls ++ [l.2] := by
  rw [epochLog, List.map_append, ← List.append_assoc]
  rfl

theorem Mark.follows_epochLog (E : UInt64) (p : StakePool) :
    p.mark.Follows E (epochLog E p []) := by
  unfold epochLog
  by_cases h : p.hwmLastEpoch = E
  · rw [if_pos h]
    refine ⟨fun _ => ⟨h, ?_⟩, fun hno => (hno (read_iff.mpr ⟨_, List.mem_cons_self⟩)).elim⟩
    show p.epochHighWaterTvl.toNat = max (p.epochHighWaterTvl.toNat - 0) 0
    omega
  · rw [if_neg h]
    refine ⟨fun hr => ?_, fun _ => h⟩
    obtain ⟨level, hmem⟩ := read_iff.mp hr
    cases hmem

/-- While the mark is on, its floor is a fraction, in every reachable world. -/
theorem Context.Reached.floorInRange (h : ctx.Reached π es w)
    (hp : w.pool ctx.programId π = some p) : p.settings.FloorInRange := by
  have hall : ∃ q, w.pool ctx.programId π = some q ∧ q.settings.FloorInRange := by
    apply h.history (P := fun _ w => ∃ q, w.pool ctx.programId π = some q ∧
      q.settings.FloorInRange)
    · intro w hgenesis
      obtain ⟨_, q, hc⟩ := hgenesis.creates
      obtain ⟨admin, slots, cap, -, hsettings⟩ := hc.settings_eq
      refine ⟨q, hc.after, ?_⟩
      rw [hsettings]
      intro e
      cases e
    · intro es w e w' hreached hP hs
      obtain ⟨q, hq, hrange⟩ := hP
      obtain ⟨q', t, m, hvalid⟩ := hreached.stands
      obtain rfl : q = q' := Option.some_inj.mp (hq.symm.trans hvalid.standing.pool_eq)
      cases e with
      | outside x => exact ⟨q, (Context.Outside.pool_eq hs).trans hq, hrange⟩
      | instruction ix accounts =>
        obtain ⟨q', hrw, hstep, -⟩ := hvalid.standing.settings_step hs
        exact ⟨q', hrw.after, hstep.floorInRange hrange⟩
  obtain ⟨q, hq, hrange⟩ := hall
  obtain rfl : q = p := Option.some_inj.mp (hq.symm.trans hp)
  exact hrange

theorem Context.Reached.marked (h : ctx.Reached π es w₀)
    (hrun : Transition.Run (ctx.MarkedStep π E) w₀ ls w) :
    ctx.Reached π (es ++ ls.map Prod.fst) w := by
  obtain ⟨w₁, hgenesis, hrun₁⟩ := h
  exact ⟨w₁, hgenesis, Transition.run_append.mpr ⟨w₀, hrun₁, hrun.map fun _ _ _ hs => hs.1⟩⟩

/-- The mark follows its log over a run inside the epoch. -/
theorem Context.Reached.follows (h : ctx.Reached π es w₀) (hp₀ : w₀.pool ctx.programId π = some p₀)
    (hrun : Transition.Run (ctx.MarkedStep π E) w₀ ls w) (hp : w.pool ctx.programId π = some p) :
    p.mark.Follows E (epochLog E p₀ ls) := by
  have hall : ∀ q, w.pool ctx.programId π = some q → q.mark.Follows E (epochLog E p₀ ls) := by
    apply hrun.history (P := fun ls w => ∀ q, w.pool ctx.programId π = some q →
      q.mark.Follows E (epochLog E p₀ ls))
    · intro q hq
      obtain rfl : p₀ = q := Option.some_inj.mp (hp₀.symm.trans hq)
      exact Mark.follows_epochLog E p₀
    · intro ls w l w' hpre hfollows hs q' hq'
      obtain ⟨hs, ⟨c, hc, rfl⟩, q, q₁, hq, hq₁, hentry⟩ := hs
      obtain rfl : q₁ = q' := Option.some_inj.mp (hq₁.symm.trans hq')
      obtain ⟨r, t, m, hvalid⟩ := (h.marked hpre).stands
      have hst := hvalid.standing
      obtain rfl : q = r := Option.some_inj.mp (hq.symm.trans hst.pool_eq)
      have hafter := (hfollows q hq).step (hst.mark_step hs hc hq')
      rw [← hentry] at hafter
      rw [epochLog_snoc]
      exact hafter
  exact hall p hp

/-- A reading covers its level, and a mark of the epoch only falls by a cut. -/
theorem Mark.After.covers {level : Nat} (h : k.After E x k') (hcut : ∀ size, x ≠ .cut size)
    (hlevel : (k.epoch = E ∧ level ≤ k.tvl.toNat) ∨ x = .reading level) :
    k'.epoch = E ∧ level ≤ k'.tvl.toNat := by
  cases x with
  | reading n =>
    obtain ⟨tvl, htvl, hmark⟩ := h
    rw [hmark, Mark.epoch_refresh, Mark.tvl_refresh]
    refine ⟨rfl, ?_⟩
    rcases hlevel with ⟨hepoch, hle⟩ | hx
    · rw [if_pos hepoch.symm]
      omega
    · cases hx
      by_cases hepoch : E = k.epoch
      · rw [if_pos hepoch]
        omega
      · rw [if_neg hepoch]
        omega
  | cut size => exact (hcut size rfl).elim
  | quiet =>
    have h : k' = k := h
    rw [h]
    exact hlevel.resolve_right fun hx => by cases hx

/-- A reading of an event that pays nothing is the value the event leaves. -/
theorem level_of_deposit {e : Event} {level : Nat} (h : hwmEntry p e p' = .reading level)
    (hpays : ¬0 < payout p p') : level = (p'.totalPoolValue.getD 0).toNat := by
  unfold hwmEntry at h
  split at h
  · split at h
    · exact (Entry.reading.inj h).symm
    · cases h
  · split at h
    · exact (Entry.reading.inj h).symm
    · cases h
  · rw [if_neg fun e => hpays e.2] at h
    cases h
  · cases h
  · cases h

/-- A step with the mark on, at the floor `bps`, that cuts nothing. -/
def Context.HeldStep (ctx : Context) (π : Pubkey) (E : UInt64) (bps : UInt16) (w : World)
    (l : Event × Entry) (w' : World) : Prop :=
  ctx.MarkedStep π E w l w' ∧ (∀ size, l.2 ≠ .cut size) ∧
    ∀ p, w.pool ctx.programId π = some p → p.hwmEnabled = true ∧ p.hwmFloorBps = bps

/-- A level that the mark covers and whose floor the value covers. -/
def StakePool.Covers (p : StakePool) (E : UInt64) (bps : UInt16) (level : Nat) : Prop :=
  p.mark.epoch = E ∧ level ≤ p.mark.tvl.toNat ∧ (level * bps.toNat / 10000 : Nat) ≤ p.book.value

/-- A step under a held mark keeps the covered levels covered and covers the one it
reads. -/
theorem Context.HeldStep.covers {bps : UInt16} (h : ctx.Reached π es w)
    (hs : ctx.HeldStep π E bps w l w') (hp : w.pool ctx.programId π = some p)
    (hp' : w'.pool ctx.programId π = some p') {level : Nat}
    (hlevel : p.Covers E bps level ∨ l.2 = .reading level) : p'.Covers E bps level := by
  obtain ⟨⟨hs, ⟨c, hc, hepoch⟩, q, q', hq, hq', hentry⟩, hcut, hheld⟩ := hs
  obtain rfl : q = p := Option.some_inj.mp (hq.symm.trans hp)
  obtain rfl : q' = p' := Option.some_inj.mp (hq'.symm.trans hp')
  obtain ⟨henabled, hbps⟩ := hheld q hq
  obtain ⟨r, t, m, hvalid⟩ := h.stands
  obtain rfl : q = r := Option.some_inj.mp (hq.symm.trans hvalid.standing.pool_eq)
  obtain ⟨r', t', m', ms, hvalid', -, -⟩ := hvalid.step hs
  obtain rfl : q' = r' := Option.some_inj.mp (hq'.symm.trans hvalid'.standing.pool_eq)
  have hafter := hvalid.standing.mark_step hs hc hq'
  rw [← hentry, hepoch] at hafter
  obtain ⟨hepoch', hmark⟩ := hafter.covers hcut (hlevel.imp_left fun h => ⟨h.1, h.2.1⟩)
  have hflush : ∀ amount accounts, l.1 ≠ .instruction (.flushToInsurance amount) accounts := by
    intro amount accounts e
    rw [e] at hentry
    exact hcut _ hentry
  obtain ⟨hvalue, hpays⟩ := hvalid.value_le hs hq' hflush
  refine ⟨hepoch', hmark, ?_⟩
  by_cases hpos : 0 < payout q q'
  · -- a payout stays above the floor of the mark
    obtain ⟨lp, accounts, he⟩ := hpays hpos
    rw [he] at hs
    obtain ⟨hsame, v, hv, hle⟩ := hvalid.standing.floor_step hs hq' henabled hpos
    rw [StakePool.totalPoolValue_eq_some] at hv
    rw [hsame, hbps] at hle
    have hmono := floor_mono bps.toNat hmark
    omega
  · rcases hlevel with hcovers | hl
    · have hv := hcovers.2.2
      omega
    · obtain ⟨v, hv, hval⟩ :=
        StakePool.totalPoolValue_isSome hvalid'.sound.value_nonneg hvalid'.value_lt
      have hlevel := level_of_deposit (hentry.symm.trans hl) hpos
      rw [hv, Option.getD_some] at hlevel
      have hval : q'.book.value = v.toNat := hval
      have hrange := UInt16.le_iff_toNat_le.mp (h.floorInRange hq henabled)
      have hrange : q.hwmFloorBps.toNat ≤ 9000 := hrange
      have hle := floor_le (n := level) (b := bps.toNat) (by rw [← hbps]; omega)
      omega

/-- Over a run under a held mark every level read, and every level covered at the
start, stays covered. -/
theorem Context.Reached.covers {bps : UInt16} (h : ctx.Reached π es w)
    (hrun : Transition.Run (ctx.HeldStep π E bps) w ls w') (hp : w.pool ctx.programId π = some p)
    (hp' : w'.pool ctx.programId π = some p') {level : Nat}
    (hlevel : p.Covers E bps level ∨ Entry.reading level ∈ ls.map Prod.snd) :
    p'.Covers E bps level := by
  induction ls generalizing w p es with
  | nil =>
    cases hrun
    obtain rfl : p = p' := Option.some_inj.mp (hp.symm.trans hp')
    exact hlevel.resolve_right List.not_mem_nil
  | cons l ls ih =>
    obtain ⟨u, hu, hrest⟩ := hrun
    have hone : Transition.Run (ctx.MarkedStep π E) w [l] u := ⟨u, hu.1, rfl⟩
    have hreached : ctx.Reached π (es ++ [l.1]) u := h.marked hone
    obtain ⟨-, -, -, q, -, hq, -⟩ := hu.1
    apply ih hreached hrest hq
    rcases hlevel with hcovers | hmem
    · exact .inl (hu.covers h hp hq (.inl hcovers))
    · rcases List.mem_cons.mp hmem with e | hmem
      · exact .inl (hu.covers h hp hq (.inr e.symm))
      · exact .inr hmem

end

/-- The high-water mark of the pool `p` in the world `w`, reached inside the epoch `E`
with the log `log`: the mark is the crest of the log, and no payout goes below its
floor. -/
structure DrainLimited (ctx : Context) (π : Pubkey) (E : UInt64) (log : List Entry) (w : World)
    (p : StakePool) : Prop where
  mark_eq : Read log → p.hwmLastEpoch = E ∧ p.epochHighWaterTvl.toNat = crest log
  rises : ∀ l w' p', ctx.MarkedStep π E w l w' → w'.pool ctx.programId π = some p' → Read log →
    (∀ size, l.2 ≠ .cut size) → p.epochHighWaterTvl ≤ p'.epochHighWaterTvl
  floor : ∀ lp accounts x w' p', ctx.MarkedStep π E w (.instruction (.withdraw lp) accounts, x) w' →
    w'.pool ctx.programId π = some p' → p.hwmEnabled = true → 0 < payout p p' →
    ∃ v, p'.totalPoolValue = some v ∧
      p'.epochHighWaterTvl.toNat * p'.hwmFloorBps.toNat / 10000 ≤ v.toNat ∧
      ∀ level ∈ levels (log ++ [x]), level * p'.hwmFloorBps.toNat / 10000 ≤ v.toNat
  drained : ∀ bps ls w' p', Transition.Run (ctx.HeldStep π E bps) w ls w' →
    w'.pool ctx.programId π = some p' → ∃ v v', p.totalPoolValue = some v ∧
      p'.totalPoolValue = some v' ∧
      (∀ level, Entry.reading level ∈ ls.map Prod.snd → level * bps.toNat / 10000 ≤ v'.toNat) ∧
      ∀ level ∈ levels log, level * bps.toNat / 10000 ≤ v.toNat →
        level * bps.toNat / 10000 ≤ v'.toNat

section

variable {ctx : Context} {π : Pubkey} {es : List Event} {w₀ w w' : World} {E : UInt64}
  {ls : List (Event × Entry)}

/-- In every run inside one epoch, whatever its events and however the mark is switched:
the mark is the largest value read in the epoch less the flushes since, only flushes
lower it, and withdrawals stay above its floor. -/
theorem hwm_drain_limit (h : ctx.Reached π es w₀)
    (hrun : Transition.Run (ctx.MarkedStep π E) w₀ ls w) :
    ∃ p₀ p, w₀.pool ctx.programId π = some p₀ ∧ w.pool ctx.programId π = some p ∧
      DrainLimited ctx π E (epochLog E p₀ ls) w p := by
  have hreached := h.marked hrun
  obtain ⟨p₀, t₀, m₀, hvalid₀⟩ := h.stands
  obtain ⟨p, t, m, hvalid⟩ := hreached.stands
  have hst := hvalid.standing
  have hfollows := h.follows hvalid₀.standing.pool_eq hrun hst.pool_eq
  refine ⟨p₀, p, hvalid₀.standing.pool_eq, hst.pool_eq, ⟨hfollows.1, ?_, ?_, ?_⟩⟩
  · intro l w' p' hs hp' hread hcut
    obtain ⟨hs, ⟨c, hc, hepoch⟩, q, q', hq, hq', hentry⟩ := hs
    obtain rfl : q = p := Option.some_inj.mp (hq.symm.trans hst.pool_eq)
    obtain rfl : q' = p' := Option.some_inj.mp (hq'.symm.trans hp')
    have hmark := hst.mark_step hs hc hq'
    rw [← hentry, hepoch] at hmark
    rw [UInt64.le_iff_toNat_le]
    show q.mark.tvl.toNat ≤ q'.mark.tvl.toNat
    cases hl : l.2 with
    | reading x =>
      rw [hl] at hmark
      obtain ⟨tvl, -, hmark⟩ := hmark
      rw [hmark, Mark.tvl_refresh, if_pos (hfollows.1 hread).1.symm]
      exact Nat.le_max_left ..
    | cut size => exact (hcut size hl).elim
    | quiet =>
      rw [hl] at hmark
      have hmark : q'.mark = q.mark := hmark
      rw [hmark]
  · intro lp accounts x w' p' hs hp' henabled hpays
    have hsnoc : Transition.Run (ctx.MarkedStep π E) w₀
        (ls ++ [(.instruction (.withdraw lp) accounts, x)]) w' :=
      Transition.run_append.mpr ⟨w, hrun, w', hs, rfl⟩
    have hafter := h.follows hvalid₀.standing.pool_eq hsnoc hp'
    rw [epochLog_snoc] at hafter
    obtain ⟨-, v, hv, hle⟩ := hst.floor_step hs.1 hp' henabled hpays
    refine ⟨v, hv, hle, ?_⟩
    intro level hmem
    have hread : Read (epochLog E p₀ ls ++ [x]) := List.ne_nil_of_mem hmem
    have hcrest := le_crest hmem
    rw [← (hafter.1 hread).2] at hcrest
    exact (floor_mono _ hcrest).trans hle
  · intro bps ls' w' p' hrun' hp'
    have hreached' := hreached.marked (hrun'.mono fun _ _ _ _ hs => hs.1)
    obtain ⟨q, t', m', hvalid'⟩ := hreached'.stands
    obtain rfl : q = p' := Option.some_inj.mp (hvalid'.standing.pool_eq.symm.trans hp')
    obtain ⟨v, hv, hval⟩ :=
      StakePool.totalPoolValue_isSome hvalid.sound.value_nonneg hvalid.value_lt
    obtain ⟨v', hv', hval'⟩ :=
      StakePool.totalPoolValue_isSome hvalid'.sound.value_nonneg hvalid'.value_lt
    have hval : p.book.value = v.toNat := hval
    have hval' : q.book.value = v'.toNat := hval'
    refine ⟨v, v', hv, hv', ?_, ?_⟩
    · intro level hmem
      have hcovers := hreached.covers hrun' hst.pool_eq hp' (.inr hmem)
      have := hcovers.2.2
      omega
    · intro level hmem hle
      obtain ⟨hepoch, htvl⟩ := hfollows.1 (List.ne_nil_of_mem hmem)
      have hlevel : level ≤ p.mark.tvl.toNat := by
        rw [htvl]
        exact le_crest hmem
      have hcovers := hreached.covers hrun' hst.pool_eq hp'
        (.inl ⟨hepoch, hlevel, by rw [hval]; omega⟩)
      have := hcovers.2.2
      omega

/-- What an action tells the mark in the epoch `E`. -/
def markLabel (ctx : Context) (π : Pubkey) (E : UInt64) (w : World) (a : Action) :
    Option (Event × Entry) := do
  let c ← w.clock
  let p ← w.pool ctx.programId π
  let w' ← ctx.perform π w a
  let p' ← w'.pool ctx.programId π
  if c.epoch = E then some (a.event, hwmEntry p a.event p') else none

theorem markedStep_of_perform {a : Action} {l : Event × Entry}
    (hl : markLabel ctx π E w a = some l) (h : ctx.perform π w a = some w') :
    ctx.MarkedStep π E w l w' := by
  unfold markLabel at hl
  simp only [Option.bind_eq_bind, Option.bind_eq_some_iff] at hl
  obtain ⟨c, hc, p, hp, u, hu, p', hp', hl⟩ := hl
  obtain rfl : u = w' := Option.some_inj.mp (hu.symm.trans h)
  split at hl
  · rename_i hepoch
    cases hl
    exact ⟨Context.perform_step h, ⟨c, hc, hepoch⟩, p, p', hp, hp', rfl⟩
  · cases hl

/-- The mark is switched on between two deposits; a flush and a withdrawal follow. -/
def Sample.markedEpoch : List Action :=
  [deposit alice 100000, .call (.adminSetHwmConfig true 9000) adminAccounts,
    deposit bob 50000, flush 20000, .tick ⟨200, 1⟩, withdraw alice 5000]

theorem Sample.hwm_drain_limit_flushed :
    ∃ w₀ ls w p₀ p, Sample.ctx.Reached pool [] w₀ ∧ w.pool Sample.ctx.programId pool = some p ∧
      DrainLimited Sample.ctx pool 1 (epochLog 1 p₀ ls) w p ∧ p.epochHighWaterTvl = 130000 := by
  have hrun : ((Sample.ctx.performLabelled pool (markLabel Sample.ctx pool 1) (after [])
      markedEpoch).map fun x => (x.2.pool Sample.ctx.programId pool).map (·.epochHighWaterTvl)) =
      some (some 130000) := by
    decide +kernel
  obtain ⟨⟨ls, w⟩, hw, htvl⟩ := Option.map_eq_some_iff.mp hrun
  have hreached : Sample.ctx.Reached pool [] (after []) := ⟨_, after_nil_genesis, rfl⟩
  obtain ⟨p₀, p, -, hp, hlimited⟩ := hwm_drain_limit hreached
    (Context.performLabelled_run (fun _ _ _ _ hl h => markedStep_of_perform hl h) hw)
  have htvl : (w.pool Sample.ctx.programId pool).map (·.epochHighWaterTvl) = some 130000 := htvl
  rw [hp, Option.map_some, Option.some_inj] at htvl
  exact ⟨_, ls, w, p₀, p, hreached, hp, hlimited, htvl⟩

end

end PercolatorStake
