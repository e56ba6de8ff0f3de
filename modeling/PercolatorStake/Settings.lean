import PercolatorStake.Book

/-!
# The settings of a pool

What the admin instructions write, and the high-water mark.  Together with the
books and the charter this is all of a pool except the two fields that only record
when fees were last accrued.

A setter of the books does not touch the settings, and the other way round: the
packed fields do not overlap.
-/

namespace PercolatorStake

open Bytes

structure Settings where
  admin : Pubkey
  pendingAdmin : Pubkey
  depositCap : UInt64
  cooldownSlots : UInt64
  pendingCooldownSlots : UInt64
  cooldownProposedAtSlot : UInt64
  marketResolved : Bool
  assetAdminBurned : Bool
  hwmEnabled : Bool
  hwmFloorBps : UInt16
  deriving DecidableEq

/-- The high-water mark and the epoch it belongs to. -/
structure Mark where
  tvl : UInt64
  epoch : UInt64
  deriving DecidableEq

namespace Mark

def refresh (k : Mark) (epoch tvl : UInt64) : Mark :=
  if epoch ≠ k.epoch then ⟨tvl, epoch⟩
  else if k.tvl < tvl then { k with tvl := tvl }
  else k

theorem epoch_refresh (k : Mark) (epoch tvl : UInt64) : (k.refresh epoch tvl).epoch = epoch := by
  unfold refresh
  by_cases h : epoch ≠ k.epoch
  · rw [if_pos h]
  · rw [if_neg h]
    rw [ne_eq, not_not] at h
    by_cases ht : k.tvl < tvl
    · rw [if_pos ht]
      exact h.symm
    · rw [if_neg ht]
      exact h.symm

/-- In a new epoch the mark starts over, and within one it only rises. -/
theorem tvl_refresh (k : Mark) (epoch tvl : UInt64) :
    (k.refresh epoch tvl).tvl.toNat =
      if epoch = k.epoch then max k.tvl.toNat tvl.toNat else tvl.toNat := by
  unfold refresh
  by_cases h : epoch = k.epoch
  · rw [if_pos h, if_neg (not_not.mpr h)]
    by_cases ht : k.tvl < tvl
    · rw [if_pos ht]
      rw [UInt64.lt_iff_toNat_lt] at ht
      show tvl.toNat = _
      omega
    · rw [if_neg ht]
      rw [UInt64.not_lt, UInt64.le_iff_toNat_le] at ht
      omega
  · rw [if_neg h, if_pos h]

end Mark

namespace StakePool

def settings (p : StakePool) : Settings where
  admin := p.admin
  pendingAdmin := p.pendingAdmin
  depositCap := p.depositCap
  cooldownSlots := p.cooldownSlots
  pendingCooldownSlots := p.pendingCooldownSlots
  cooldownProposedAtSlot := p.cooldownProposedAtSlot
  marketResolved := p.marketResolved
  assetAdminBurned := p.assetAdminBurned
  hwmEnabled := p.hwmEnabled
  hwmFloorBps := p.hwmFloorBps

def mark (p : StakePool) : Mark := ⟨p.epochHighWaterTvl, p.hwmLastEpoch⟩

section

variable (p : StakePool) {o : Nat}

/-! ## Writes elsewhere -/

theorem settings_setWord (h : 13 ≤ o ∧ o + 8 ≤ 59) (v : UInt64) :
    (p.setWord o v).settings = p.settings := by
  have hn : o + 8 ≤ 64 := by omega
  simp only [settings, marketResolved, assetAdminBurned, hwmEnabled, hwmFloorBps]
  rw [byte_setWord_of_disjoint hn (by omega), byte_setWord_of_disjoint hn (by omega),
    byte_setWord_of_disjoint hn (by omega), half_setWord_of_disjoint hn (by omega)]
  rfl

theorem settings_setHalf (h : 13 ≤ o ∧ o + 2 ≤ 59) (v : UInt16) :
    (p.setHalf o v).settings = p.settings := by
  have hn : o + 2 ≤ 64 := by omega
  simp only [settings, marketResolved, assetAdminBurned, hwmEnabled, hwmFloorBps]
  rw [byte_setHalf_of_disjoint hn (by omega), byte_setHalf_of_disjoint hn (by omega),
    byte_setHalf_of_disjoint hn (by omega), half_setHalf_of_disjoint hn (by omega)]
  rfl

theorem settings_setFlag (h : 13 ≤ o ∧ o < 59) (b : Bool) :
    (p.setFlag o b).settings = p.settings := by
  have hn : o < 64 := by omega
  simp only [settings, marketResolved, assetAdminBurned, hwmEnabled, hwmFloorBps]
  rw [byte_setFlag_of_ne hn (by omega), byte_setFlag_of_ne hn (by omega),
    byte_setFlag_of_ne hn (by omega), half_setFlag_of_disjoint hn (by omega)]
  rfl

theorem mark_setWord (h : 32 ≤ o ∧ o + 8 ≤ 64) (v : UInt64) : (p.setWord o v).mark = p.mark := by
  simp only [mark, epochHighWaterTvl, hwmLastEpoch]
  rw [word_setWord_of_disjoint h.2 (by omega), word_setWord_of_disjoint h.2 (by omega)]

theorem mark_setHalf (h : o + 2 ≤ 16 ∨ 32 ≤ o ∧ o + 2 ≤ 64) (v : UInt16) :
    (p.setHalf o v).mark = p.mark := by
  have hn : o + 2 ≤ 64 := by omega
  simp only [mark, epochHighWaterTvl, hwmLastEpoch]
  rw [word_setHalf_of_disjoint hn (by omega), word_setHalf_of_disjoint hn (by omega)]

theorem mark_setFlag (h : o < 16 ∨ 32 ≤ o ∧ o < 64) (b : Bool) :
    (p.setFlag o b).mark = p.mark := by
  have hn : o < 64 := by omega
  simp only [mark, epochHighWaterTvl, hwmLastEpoch]
  rw [word_setFlag_of_disjoint hn (by omega), word_setFlag_of_disjoint hn (by omega)]

/-! ## Setters -/

@[simp] theorem settings_setJuniorBalance (v : UInt64) :
    (p.setJuniorBalance v).settings = p.settings := settings_setWord p (by decide) v

@[simp] theorem settings_setJuniorTotalLp (v : UInt64) :
    (p.setJuniorTotalLp v).settings = p.settings := settings_setWord p (by decide) v

@[simp] theorem settings_setRealizedJuniorLoss (v : UInt64) :
    (p.setRealizedJuniorLoss v).settings = p.settings := settings_setWord p (by decide) v

@[simp] theorem settings_setEpochHighWaterTvl (v : UInt64) :
    (p.setEpochHighWaterTvl v).settings = p.settings := settings_setWord p (by decide) v

@[simp] theorem settings_setHwmLastEpoch (v : UInt64) :
    (p.setHwmLastEpoch v).settings = p.settings := settings_setWord p (by decide) v

@[simp] theorem settings_setJuniorFeeMultBps (v : UInt16) :
    (p.setJuniorFeeMultBps v).settings = p.settings := settings_setHalf p (by decide) v

@[simp] theorem settings_setTrancheEnabled (v : Bool) :
    (p.setTrancheEnabled v).settings = p.settings := settings_setFlag p (by decide) v

@[simp] theorem mark_setJuniorBalance (v : UInt64) : (p.setJuniorBalance v).mark = p.mark :=
  mark_setWord p (by decide) v

@[simp] theorem mark_setJuniorTotalLp (v : UInt64) : (p.setJuniorTotalLp v).mark = p.mark :=
  mark_setWord p (by decide) v

@[simp] theorem mark_setRealizedJuniorLoss (v : UInt64) :
    (p.setRealizedJuniorLoss v).mark = p.mark := mark_setWord p (by decide) v

@[simp] theorem mark_setJuniorFeeMultBps (v : UInt16) :
    (p.setJuniorFeeMultBps v).mark = p.mark := mark_setHalf p (by decide) v

@[simp] theorem mark_setHwmFloorBps (v : UInt16) : (p.setHwmFloorBps v).mark = p.mark :=
  mark_setHalf p (by decide) v

@[simp] theorem mark_setTrancheEnabled (v : Bool) : (p.setTrancheEnabled v).mark = p.mark :=
  mark_setFlag p (by decide) v

@[simp] theorem mark_setMarketResolved (v : Bool) : (p.setMarketResolved v).mark = p.mark :=
  mark_setFlag p (by decide) v

@[simp] theorem mark_setHwmEnabled (v : Bool) : (p.setHwmEnabled v).mark = p.mark :=
  mark_setFlag p (by decide) v

@[simp] theorem mark_setAssetAdminBurned (v : Bool) : (p.setAssetAdminBurned v).mark = p.mark :=
  mark_setFlag p (by decide) v

theorem byte_setFlag_self (h : o < 64) (b : Bool) :
    byteAt (p.setFlag o b).reserved o = flagByte b := byteAt_setByte_self h

@[simp] theorem settings_setMarketResolved (v : Bool) :
    (p.setMarketResolved v).settings = { p.settings with marketResolved := v } := by
  simp (disch := decide) only [settings, setMarketResolved, marketResolved, assetAdminBurned,
    hwmEnabled, hwmFloorBps, byte_setFlag_self, byte_setFlag_of_ne, half_setFlag_of_disjoint]
  cases v <;> rfl

@[simp] theorem settings_setAssetAdminBurned (v : Bool) :
    (p.setAssetAdminBurned v).settings = { p.settings with assetAdminBurned := v } := by
  simp (disch := decide) only [settings, setAssetAdminBurned, marketResolved, assetAdminBurned,
    hwmEnabled, hwmFloorBps, byte_setFlag_self, byte_setFlag_of_ne, half_setFlag_of_disjoint]
  cases v <;> rfl

@[simp] theorem settings_setHwmEnabled (v : Bool) :
    (p.setHwmEnabled v).settings = { p.settings with hwmEnabled := v } := by
  simp (disch := decide) only [settings, setHwmEnabled, marketResolved, assetAdminBurned,
    hwmEnabled, hwmFloorBps, byte_setFlag_self, byte_setFlag_of_ne, half_setFlag_of_disjoint]
  cases v <;> rfl

@[simp] theorem settings_setHwmFloorBps (v : UInt16) :
    (p.setHwmFloorBps v).settings = { p.settings with hwmFloorBps := v } := by
  simp (disch := decide) only [settings, setHwmFloorBps, marketResolved, assetAdminBurned,
    hwmEnabled, hwmFloorBps, half_setHalf_self, byte_setHalf_of_disjoint]
  rfl

@[simp] theorem mark_setEpochHighWaterTvl (v : UInt64) :
    (p.setEpochHighWaterTvl v).mark = { p.mark with tvl := v } := by
  simp (disch := decide) only [mark, setEpochHighWaterTvl, epochHighWaterTvl, hwmLastEpoch,
    word_setWord_self, word_setWord_of_disjoint]

@[simp] theorem mark_setHwmLastEpoch (v : UInt64) :
    (p.setHwmLastEpoch v).mark = { p.mark with epoch := v } := by
  simp (disch := decide) only [mark, setHwmLastEpoch, epochHighWaterTvl, hwmLastEpoch,
    word_setWord_self, word_setWord_of_disjoint]

@[simp] theorem settings_refreshHwm (epoch tvl : UInt64) :
    (p.refreshHwm epoch tvl).1.settings = p.settings := by
  unfold refreshHwm
  simp only
  by_cases h : epoch ≠ p.hwmLastEpoch
  · rw [if_pos h, settings_setHwmLastEpoch, settings_setEpochHighWaterTvl]
  · rw [if_neg h]
    by_cases ht : tvl > p.epochHighWaterTvl
    · rw [if_pos ht, settings_setEpochHighWaterTvl]
    · rw [if_neg ht]

theorem mark_refreshHwm (epoch tvl : UInt64) :
    (p.refreshHwm epoch tvl).1.mark = p.mark.refresh epoch tvl := by
  unfold refreshHwm Mark.refresh
  simp only
  by_cases h : epoch ≠ p.hwmLastEpoch
  · have h' : epoch ≠ p.mark.epoch := h
    rw [if_pos h, if_pos h', mark_setHwmLastEpoch, mark_setEpochHighWaterTvl]
  · have h' : ¬epoch ≠ p.mark.epoch := h
    rw [if_neg h, if_neg h']
    by_cases ht : tvl > p.epochHighWaterTvl
    · have ht' : p.mark.tvl < tvl := ht
      rw [if_pos ht, if_pos ht', mark_setEpochHighWaterTvl]
    · have ht' : ¬p.mark.tvl < tvl := ht
      rw [if_neg ht, if_neg ht']

/-- A refresh returns the mark it leaves. -/
theorem refreshHwm_snd (epoch tvl : UInt64) :
    (p.refreshHwm epoch tvl).2 = (p.refreshHwm epoch tvl).1.mark.tvl := rfl

end

end StakePool

end PercolatorStake
