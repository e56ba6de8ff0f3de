import PercolatorStake.HwmDrain

/-!
# A flush and the floor

A flush lowers the value of a pool and its high-water mark by one amount, but the floor
only by a fraction of it.  A pool that earlier withdrawals of the epoch took below its
mark can so be pushed below its floor, and it is exactly if the flush is larger than the
room above the floor allows.
-/

namespace PercolatorStake

open Result Word

/-- The value of the pool is at or above the floor of its mark. -/
def AboveFloor (p : StakePool) : Prop :=
  ∃ v floor, p.totalPoolValue = some v ∧
    Math.hwmFloor p.epochHighWaterTvl p.hwmFloorBps = some floor ∧ floor ≤ v

/-- Room for a loss of `x`: the part of it that the floor does not follow is within what
the pool `p` has above its floor. -/
def RoomFor (p : StakePool) (v x : Nat) : Prop :=
  x * (10000 - p.hwmFloorBps.toNat) + p.epochHighWaterTvl.toNat * p.hwmFloorBps.toNat <
    10000 * (v + 1)

/-- Of a loss, the floor follows a fraction. -/
theorem floor_sub_le_iff {m v x bps : Nat} (hbps : bps ≤ 10000) (hx : x ≤ v) (hm : x ≤ m) :
    (m - x) * bps / 10000 ≤ v - x ↔ x * (10000 - bps) + m * bps < 10000 * (v + 1) := by
  obtain ⟨m, rfl⟩ := Nat.exists_eq_add_of_le hm
  obtain ⟨v, rfl⟩ := Nat.exists_eq_add_of_le hx
  obtain ⟨c, hc⟩ := Nat.exists_eq_add_of_le hbps
  have hsum : x * (10000 - bps) + (x + m) * bps = 10000 * x + m * bps := by
    rw [hc, Nat.add_sub_cancel_left]
    ring
  rw [Nat.add_sub_cancel_left, Nat.add_sub_cancel_left, hsum, ← Nat.lt_succ_iff,
    Nat.div_lt_iff_lt_mul (by decide)]
  omega

section

variable {ctx : Context} {w w' : World} {p : StakePool} {accounts : List AccountInfo}
  {a : AccountInfo} {amount v : UInt64}

theorem aboveFloor_iff (hv : p.totalPoolValue = some v) (hbps : p.hwmFloorBps.toNat ≤ 10000) :
    AboveFloor p ↔ p.epochHighWaterTvl.toNat * p.hwmFloorBps.toNat / 10000 ≤ v.toNat := by
  have hmark := p.epochHighWaterTvl.toNat_lt
  have hfit := (floor_le (n := p.epochHighWaterTvl.toNat) hbps).trans_lt hmark
  unfold AboveFloor
  rw [Math.hwmFloor_eq]
  constructor
  · intro ⟨v', floor, hv', hfloor, hle⟩
    obtain rfl : v = v' := Option.some_inj.mp (hv.symm.trans hv')
    rw [← narrow_eq_some.mp hfloor]
    exact UInt64.le_iff_toNat_le.mp hle
  · intro hle
    refine ⟨v, UInt64.ofNat (p.epochHighWaterTvl.toNat * p.hwmFloorBps.toNat / 10000), hv,
      if_pos hfit, ?_⟩
    rw [UInt64.le_iff_toNat_le, toNat_ofNat hfit]
    exact hle

/-- What a flush makes of the pool, its value and its mark. -/
theorem flush_reads (h : process ctx w accounts (.flushToInsurance amount) = .ok w')
    (ha : accounts[1]? = some a) (hp : w.pool ctx.programId a.key = some p)
    (hv : p.totalPoolValue = some v) :
    ∃ p' v', w'.pool ctx.programId a.key = some p' ∧ p'.totalPoolValue = some v' ∧
      amount ≤ v ∧ v'.toNat = v.toNat - amount.toNat ∧
      p'.epochHighWaterTvl.toNat = p.epochHighWaterTvl.toNat - amount.toNat ∧
      p'.hwmFloorBps = p.hwmFloorBps := by
  obtain ⟨r⟩ := processFlushToInsurance_run h
  obtain rfl : r.a.poolPda = a :=
    Option.some_inj.mp ((FlushAccounts.next_eq_ok r.next_eq).symm.trans ha)
  obtain rfl : r.pool = p := Option.some_inj.mp (r.pool_eq.symm.trans hp)
  have hle := r.amount_le
  have hvalue := StakePool.totalPoolValue_eq_some.mp hv
  have hbook := (bookFlush_book r.book_eq).2
  obtain ⟨hsettings, hmark⟩ := bookFlush_settings r.book_eq
  have hafter : r.final.book.value = v.toNat - amount.toNat := by
    rw [hbook, ← hvalue]
    unfold Book.value
    simp only
    omega
  have hlt := v.toNat_lt
  have hfit : (UInt64.ofNat (v.toNat - amount.toNat)).toNat = v.toNat - amount.toNat :=
    toNat_ofNat (by omega)
  refine ⟨r.final, UInt64.ofNat (v.toNat - amount.toNat), r.rewrites.after, ?_, ?_, hfit, ?_,
    congrArg Settings.hwmFloorBps hsettings⟩
  · rw [StakePool.totalPoolValue_eq_some, hafter, hfit]
    omega
  · rw [UInt64.le_iff_toNat_le]
    omega
  · have htvl := congrArg Mark.tvl hmark
    have htvl : r.final.epochHighWaterTvl = _ := htvl
    rw [htvl]
    exact toNat_saturatingSub ..

/-- A flush leaves a pool above its floor exactly if there was room for it. -/
theorem flush_keeps_floor (h : process ctx w accounts (.flushToInsurance amount) = .ok w')
    (ha : accounts[1]? = some a) (hp : w.pool ctx.programId a.key = some p)
    (hv : p.totalPoolValue = some v) (hbps : p.hwmFloorBps.toNat ≤ 9000)
    (hmark : v ≤ p.epochHighWaterTvl) :
    ∃ p', w'.pool ctx.programId a.key = some p' ∧
      (AboveFloor p' ↔ RoomFor p v.toNat amount.toNat) := by
  obtain ⟨p', v', hp', hv', hle, hvalue, htvl, hfloor⟩ := flush_reads h ha hp hv
  refine ⟨p', hp', ?_⟩
  have hle := UInt64.le_iff_toNat_le.mp hle
  have hmark := UInt64.le_iff_toNat_le.mp hmark
  rw [aboveFloor_iff hv' (by rw [hfloor]; omega), hvalue, htvl, hfloor]
  exact floor_sub_le_iff (by omega) hle (by omega)

end

namespace Sample

/-- With a floor of one half Alice takes the pool down to its floor, within the epoch. -/
def drawnDown : List Action :=
  [.call (.adminSetHwmConfig true 5000) adminAccounts, deposit alice 100000, .tick ⟨200, 1⟩,
    withdraw alice 50000]

theorem drawnDown_state :
    ((after drawnDown).pool Sample.ctx.programId pool).map (fun p =>
      (p.hwmEnabled, p.hwmFloorBps, p.hwmLastEpoch, p.epochHighWaterTvl, p.totalPoolValue)) =
      some (true, 5000, 1, 100000, some 50000) ∧
    ((after (drawnDown ++ [flush 20000])).pool Sample.ctx.programId pool).map (fun p =>
      (p.hwmFloorBps, p.epochHighWaterTvl, p.totalPoolValue)) = some (5000, 80000, some 30000) := by
  decide +kernel

/-- A flush of 20000 then takes the value to 30000 and the floor to 40000, and no
withdrawal goes through any more. -/
theorem frozen_by_flush :
    Sample.ctx.Reached pool (drawnDown.map Action.event) (after drawnDown) ∧
    (after drawnDown).clock = some ⟨200, 1⟩ ∧
    process Sample.ctx (after drawnDown) flushAccounts (.flushToInsurance 20000) =
      .ok (after (drawnDown ++ [flush 20000])) ∧
    ∃ p p', (after drawnDown).pool Sample.ctx.programId pool = some p ∧
      (after (drawnDown ++ [flush 20000])).pool Sample.ctx.programId pool = some p' ∧
      p.hwmEnabled = true ∧ p.hwmFloorBps = 5000 ∧ p.hwmLastEpoch = 1 ∧
      p.epochHighWaterTvl = 100000 ∧ p.totalPoolValue = some 50000 ∧
      AboveFloor p ∧ ¬ AboveFloor p' ∧
      run (drawnDown ++ [flush 20000, withdraw alice 10]) = none := by
  obtain ⟨hbefore, hafter⟩ := drawnDown_state
  obtain ⟨hscript, -, -, hd⟩ := after_step (run_of_pool hafter)
  obtain ⟨p, hp, hp₁⟩ := Option.map_eq_some_iff.mp hbefore
  obtain ⟨p', hp', hp'₁⟩ := Option.map_eq_some_iff.mp hafter
  simp only [Prod.mk.injEq] at hp₁ hp'₁
  obtain ⟨henabled, hbps, hepoch, htvl, hv⟩ := hp₁
  obtain ⟨hbps', htvl', hv'⟩ := hp'₁
  refine ⟨after_reached hscript, by decide +kernel, hd, p, p', hp, hp', henabled, hbps, hepoch,
    htvl, hv, ?_, ?_, by decide +kernel⟩
  · rw [aboveFloor_iff hv (by rw [hbps]; decide), hbps, htvl]
    decide
  · rw [aboveFloor_iff hv' (by rw [hbps']; decide), hbps', htvl']
    decide

/-- A flush of 5000 out of a pool with room for it. -/
theorem flush_keeps_floor_roomy :
    ∃ p p', (after drawnDown.dropLast).pool Sample.ctx.programId pool = some p ∧
      (after (drawnDown.dropLast ++ [flush 5000])).pool Sample.ctx.programId pool = some p' ∧
      AboveFloor p ∧ AboveFloor p' := by
  have hstate : ((after drawnDown.dropLast).pool Sample.ctx.programId pool).map (fun p =>
      (p.hwmFloorBps, p.epochHighWaterTvl, p.totalPoolValue)) =
      some (5000, 100000, some 100000) := by
    decide +kernel
  obtain ⟨-, -, -, hd⟩ := after_step (s := drawnDown.dropLast) (a := flush 5000)
    (by decide +kernel)
  obtain ⟨p, hp, hp₁⟩ := Option.map_eq_some_iff.mp hstate
  simp only [Prod.mk.injEq] at hp₁
  obtain ⟨hbps, htvl, hv⟩ := hp₁
  have habove : AboveFloor p := by
    rw [aboveFloor_iff hv (by rw [hbps]; decide), hbps, htvl]
    decide
  obtain ⟨p', hp', hiff⟩ := flush_keeps_floor hd rfl hp hv (by rw [hbps]; decide)
    (by rw [htvl]; decide)
  refine ⟨p, p', hp, hp', habove, hiff.mpr ?_⟩
  unfold RoomFor
  rw [htvl, hbps]
  decide

end Sample

end PercolatorStake
