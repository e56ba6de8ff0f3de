import PercolatorStake.Settings

/-!
# The packed layout

The fields behind the setters of a pool, most of them packed into its reserved bytes, as
a record of separate fields.  Every setter writes one of them, its span of bytes is apart
from the other spans, and so a run of setters on the bytes is the same run on the record.
-/

namespace PercolatorStake

open Bytes

namespace StakePool

/-! ## The fields -/

inductive Field where
  | identity
  | marketResolved
  | hwmEnabled
  | hwmFloorBps
  | epochHighWaterTvl
  | hwmLastEpoch
  | trancheEnabled
  | juniorBalance
  | juniorTotalLp
  | juniorFeeMultBps
  | realizedJuniorLoss
  | assetAdminBurned
  | pendingCooldownSlots
  | cooldownProposedAtSlot
  deriving DecidableEq

/-- What a field holds.  The identity is whether the discriminator is right, and the
version. -/
def Field.Value : Field → Type
  | .identity => Bool × UInt8
  | .marketResolved | .hwmEnabled | .trancheEnabled | .assetAdminBurned => Bool
  | .hwmFloorBps | .juniorFeeMultBps => UInt16
  | .epochHighWaterTvl | .hwmLastEpoch | .juniorBalance | .juniorTotalLp | .realizedJuniorLoss
  | .pendingCooldownSlots | .cooldownProposedAtSlot => UInt64

/-- What the getters of a pool return. -/
def get (p : StakePool) : (f : Field) → f.Value
  | .identity => (p.validateDiscriminator, p.version)
  | .marketResolved => p.marketResolved
  | .hwmEnabled => p.hwmEnabled
  | .hwmFloorBps => p.hwmFloorBps
  | .epochHighWaterTvl => p.epochHighWaterTvl
  | .hwmLastEpoch => p.hwmLastEpoch
  | .trancheEnabled => p.trancheEnabled
  | .juniorBalance => p.juniorBalance
  | .juniorTotalLp => p.juniorTotalLp
  | .juniorFeeMultBps => p.juniorFeeMultBps
  | .realizedJuniorLoss => p.realizedJuniorLoss
  | .assetAdminBurned => p.assetAdminBurned
  | .pendingCooldownSlots => p.pendingCooldownSlots
  | .cooldownProposedAtSlot => p.cooldownProposedAtSlot

/-- First byte and length in the reserved bytes.  The two timelock fields are not packed. -/
def Field.span : Field → Nat × Nat
  | .identity => (0, 9)
  | .marketResolved => (9, 1)
  | .hwmEnabled => (10, 1)
  | .hwmFloorBps => (11, 2)
  | .epochHighWaterTvl => (16, 8)
  | .hwmLastEpoch => (24, 8)
  | .trancheEnabled => (32, 1)
  | .juniorBalance => (33, 8)
  | .juniorTotalLp => (41, 8)
  | .juniorFeeMultBps => (49, 2)
  | .realizedJuniorLoss => (51, 8)
  | .assetAdminBurned => (59, 1)
  | .pendingCooldownSlots | .cooldownProposedAtSlot => (64, 0)

/-- Byte `i` belongs to the field. -/
def Field.Covers (f : Field) (i : Nat) : Prop := f.span.1 ≤ i ∧ i < f.span.1 + f.span.2

/-- A pool without the fields behind the setters. -/
def named (p : StakePool) : StakePool :=
  { p with
    reserved := Vector.replicate 64 0
    pendingCooldownSlots := 0
    cooldownProposedAtSlot := 0 }

/-! ## The setters -/

def setPendingCooldownSlots (p : StakePool) (val : UInt64) : StakePool :=
  { p with pendingCooldownSlots := val }

def setCooldownProposedAtSlot (p : StakePool) (val : UInt64) : StakePool :=
  { p with cooldownProposedAtSlot := val }

inductive Setter where
  | setDiscriminator
  | setMarketResolved (b : Bool)
  | setHwmEnabled (b : Bool)
  | setHwmFloorBps (bps : UInt16)
  | setEpochHighWaterTvl (tvl : UInt64)
  | setHwmLastEpoch (epoch : UInt64)
  | setTrancheEnabled (b : Bool)
  | setJuniorBalance (val : UInt64)
  | setJuniorTotalLp (val : UInt64)
  | setJuniorFeeMultBps (val : UInt16)
  | setRealizedJuniorLoss (val : UInt64)
  | setAssetAdminBurned (b : Bool)
  | setPendingCooldownSlots (val : UInt64)
  | setCooldownProposedAtSlot (val : UInt64)

namespace Setter

/-- The setter of the pool. -/
def run : Setter → StakePool → StakePool
  | setDiscriminator, p => p.setDiscriminator
  | setMarketResolved b, p => p.setMarketResolved b
  | setHwmEnabled b, p => p.setHwmEnabled b
  | setHwmFloorBps bps, p => p.setHwmFloorBps bps
  | setEpochHighWaterTvl tvl, p => p.setEpochHighWaterTvl tvl
  | setHwmLastEpoch epoch, p => p.setHwmLastEpoch epoch
  | setTrancheEnabled b, p => p.setTrancheEnabled b
  | setJuniorBalance val, p => p.setJuniorBalance val
  | setJuniorTotalLp val, p => p.setJuniorTotalLp val
  | setJuniorFeeMultBps val, p => p.setJuniorFeeMultBps val
  | setRealizedJuniorLoss val, p => p.setRealizedJuniorLoss val
  | setAssetAdminBurned b, p => p.setAssetAdminBurned b
  | setPendingCooldownSlots val, p => p.setPendingCooldownSlots val
  | setCooldownProposedAtSlot val, p => p.setCooldownProposedAtSlot val

/-- The field it is for. -/
def field : Setter → Field
  | setDiscriminator => .identity
  | setMarketResolved _ => .marketResolved
  | setHwmEnabled _ => .hwmEnabled
  | setHwmFloorBps _ => .hwmFloorBps
  | setEpochHighWaterTvl _ => .epochHighWaterTvl
  | setHwmLastEpoch _ => .hwmLastEpoch
  | setTrancheEnabled _ => .trancheEnabled
  | setJuniorBalance _ => .juniorBalance
  | setJuniorTotalLp _ => .juniorTotalLp
  | setJuniorFeeMultBps _ => .juniorFeeMultBps
  | setRealizedJuniorLoss _ => .realizedJuniorLoss
  | setAssetAdminBurned _ => .assetAdminBurned
  | setPendingCooldownSlots _ => .pendingCooldownSlots
  | setCooldownProposedAtSlot _ => .cooldownProposedAtSlot

/-- The value it writes. -/
def value : (s : Setter) → s.field.Value
  | setDiscriminator => (true, currentVersion)
  | setMarketResolved b => b
  | setHwmEnabled b => b
  | setHwmFloorBps bps => bps
  | setEpochHighWaterTvl tvl => tvl
  | setHwmLastEpoch epoch => epoch
  | setTrancheEnabled b => b
  | setJuniorBalance val => val
  | setJuniorTotalLp val => val
  | setJuniorFeeMultBps val => val
  | setRealizedJuniorLoss val => val
  | setAssetAdminBurned b => b
  | setPendingCooldownSlots val => val
  | setCooldownProposedAtSlot val => val

end Setter

section

variable (p : StakePool) {f g : Field} {i : Nat}

/-- No byte belongs to two fields. -/
theorem Field.not_covers (h : f ≠ g) (hf : f.Covers i) : ¬ g.Covers i := by
  have hspan : f.span.1 + f.span.2 ≤ g.span.1 ∨ g.span.1 + g.span.2 ≤ f.span.1 := by
    revert h
    cases f <;> cases g <;> decide
  intro hg
  have hf₁ := hf.1
  have hf₂ := hf.2
  have hg₁ := hg.1
  have hg₂ := hg.2
  omega

/-- A packed field depends on its own bytes only. -/
theorem get_congr {p p' : StakePool} (hf : f.span.2 ≠ 0)
    (h : ∀ i, f.Covers i → byteAt p.reserved i = byteAt p'.reserved i) : p.get f = p'.get f := by
  have hread : ∀ off len, f.span.1 ≤ off → off + len ≤ f.span.1 + f.span.2 →
      readLe p.reserved off len = readLe p'.reserved off len := by
    intro off len hlo hhi
    apply readLe_congr
    intro i hi hi'
    exact h i ⟨by omega, by omega⟩
  have hbyte : byteAt p.reserved f.span.1 = byteAt p'.reserved f.span.1 :=
    h _ ⟨le_rfl, by omega⟩
  cases f with
  | identity =>
    have hdisc := hread 0 8 (by decide) (by decide)
    have hversion := h 8 ⟨by decide, by decide⟩
    show (_ == _, byteAt p.reserved 8) = (_ == _, byteAt p'.reserved 8)
    rw [hdisc, hversion]
  | marketResolved => exact congrArg (· != 0) hbyte
  | hwmEnabled | trancheEnabled | assetAdminBurned => exact congrArg (· == 1) hbyte
  | hwmFloorBps => exact congrArg UInt16.ofNat (hread 11 2 (by decide) (by decide))
  | juniorFeeMultBps => exact congrArg UInt16.ofNat (hread 49 2 (by decide) (by decide))
  | epochHighWaterTvl => exact congrArg UInt64.ofNat (hread 16 8 (by decide) (by decide))
  | hwmLastEpoch => exact congrArg UInt64.ofNat (hread 24 8 (by decide) (by decide))
  | juniorBalance => exact congrArg UInt64.ofNat (hread 33 8 (by decide) (by decide))
  | juniorTotalLp => exact congrArg UInt64.ofNat (hread 41 8 (by decide) (by decide))
  | realizedJuniorLoss => exact congrArg UInt64.ofNat (hread 51 8 (by decide) (by decide))
  | pendingCooldownSlots | cooldownProposedAtSlot => exact absurd rfl hf

/-! ## One setter -/

/-- A setter writes no byte of another field. -/
theorem byteAt_run (s : Setter) (h : ¬ s.field.Covers i) :
    byteAt (s.run p).reserved i = byteAt p.reserved i := by
  have hout : i < s.field.span.1 ∨ s.field.span.1 + s.field.span.2 ≤ i := by
    by_cases hlo : s.field.span.1 ≤ i
    · exact Or.inr (Nat.not_lt.mp fun hhi => h ⟨hlo, hhi⟩)
    · exact Or.inl (Nat.not_le.mp hlo)
  cases s with
  | setDiscriminator =>
    have hout : i < 0 ∨ 9 ≤ i := hout
    show byteAt (setByte (writeLe p.reserved 0 8 _) 8 _) i = _
    rw [byteAt_setByte_ne (by decide) (by omega), byteAt_writeLe_outside 8 (by decide) (by omega)]
  | setMarketResolved | setHwmEnabled | setTrancheEnabled | setAssetAdminBurned =>
    apply byte_setFlag_of_ne (by decide)
    intro he
    apply h
    rw [← he]
    exact ⟨le_rfl, Nat.lt_succ_self _⟩
  | setHwmFloorBps | setJuniorFeeMultBps =>
    exact byte_setHalf_of_disjoint (Nat.le_of_ble_eq_true rfl) hout _
  | setEpochHighWaterTvl | setHwmLastEpoch | setJuniorBalance | setJuniorTotalLp
    | setRealizedJuniorLoss => exact byte_setWord_of_disjoint (Nat.le_of_ble_eq_true rfl) hout _
  | setPendingCooldownSlots | setCooldownProposedAtSlot => rfl

theorem flag_setFlag {o : Nat} (h : o < 64) (b : Bool) :
    (byteAt (p.setFlag o b).reserved o == 1) = b := by
  rw [byte_setFlag_self p h]
  cases b <;> rfl

/-- A setter is read back by its getter. -/
theorem get_run_field (s : Setter) : (s.run p).get s.field = s.value := by
  cases s with
  | setDiscriminator =>
    have hdisc : readLe p.setDiscriminator.reserved 0 8 = decodeLe stakePoolDiscriminator := by
      show readLe (setByte (writeLe p.reserved 0 8 _) 8 _) 0 8 = _
      rw [readLe_setByte_of_disjoint (by decide) (by decide), readLe_writeLe 8 (by decide)]
      decide
    have hversion : p.setDiscriminator.version = currentVersion := byteAt_setByte_self (by decide)
    show (readLe p.setDiscriminator.reserved 0 8 == _, p.setDiscriminator.version) =
      (true, currentVersion)
    rw [hdisc, hversion, beq_self_eq_true]
  | setMarketResolved b =>
    have hbyte : byteAt (p.setMarketResolved b).reserved 9 = flagByte b :=
      byte_setFlag_self p (by decide) b
    show (byteAt (p.setMarketResolved b).reserved 9 != 0) = b
    rw [hbyte]
    cases b <;> rfl
  | setHwmEnabled b | setTrancheEnabled b | setAssetAdminBurned b =>
    exact flag_setFlag p (by decide) b
  | setHwmFloorBps v | setJuniorFeeMultBps v => exact half_setHalf_self (by decide) v
  | setEpochHighWaterTvl v | setHwmLastEpoch v | setJuniorBalance v | setJuniorTotalLp v
    | setRealizedJuniorLoss v => exact word_setWord_self (by decide) v
  | setPendingCooldownSlots | setCooldownProposedAtSlot => rfl

/-- No other getter sees it. -/
theorem get_run_of_ne (s : Setter) (h : f ≠ s.field) : (s.run p).get f = p.get f := by
  by_cases hpacked : f.span.2 ≠ 0
  · apply get_congr hpacked
    intro i hi
    exact byteAt_run p s (Field.not_covers h hi)
  · cases f with
    | pendingCooldownSlots | cooldownProposedAtSlot =>
      cases s
      all_goals first | rfl | exact absurd rfl h
    | _ => exact absurd (by decide) hpacked

theorem named_run (s : Setter) : (s.run p).named = p.named := by
  cases s <;> rfl

end

/-! ## Runs -/

/-- A record of separate fields. -/
abbrev Fields := (f : Field) → f.Value

/-- What writes behind the getters: a setter, or a refresh of the mark. -/
inductive Access where
  | set (s : Setter)
  | refreshHwm (currentEpoch currentTvl : UInt64)

namespace Access

def run : Access → StakePool → StakePool
  | set s, p => s.run p
  | refreshHwm currentEpoch currentTvl, p => (p.refreshHwm currentEpoch currentTvl).1

/-- The same on separate fields. -/
def onFields : Access → Fields → Fields
  | set s, r => Function.update r s.field s.value
  | refreshHwm currentEpoch currentTvl, r =>
    let lastEpoch : UInt64 := r .hwmLastEpoch
    let highWater : UInt64 := r .epochHighWaterTvl
    if currentEpoch ≠ lastEpoch then
      Function.update (Function.update r .epochHighWaterTvl currentTvl) .hwmLastEpoch currentEpoch
    else if currentTvl > highWater then Function.update r .epochHighWaterTvl currentTvl
    else r

end Access

section

variable (p : StakePool)

theorem get_run (s : Setter) : (s.run p).get = Function.update p.get s.field s.value := by
  funext f
  by_cases h : f = s.field
  · subst h
    rw [Function.update_self, get_run_field]
  · rw [Function.update_of_ne h, get_run_of_ne p s h]

theorem get_access (a : Access) : (a.run p).get = a.onFields p.get := by
  cases a with
  | set s => exact get_run p s
  | refreshHwm currentEpoch currentTvl =>
    have htvl : ∀ p : StakePool, (p.setEpochHighWaterTvl currentTvl).get =
        Function.update p.get .epochHighWaterTvl currentTvl :=
      fun p => get_run p (.setEpochHighWaterTvl currentTvl)
    have hepoch : ∀ p : StakePool, (p.setHwmLastEpoch currentEpoch).get =
        Function.update p.get .hwmLastEpoch currentEpoch :=
      fun p => get_run p (.setHwmLastEpoch currentEpoch)
    show (p.refreshHwm currentEpoch currentTvl).1.get = if currentEpoch ≠ p.hwmLastEpoch then _
      else if currentTvl > p.epochHighWaterTvl then _ else _
    unfold refreshHwm
    simp only
    by_cases h : currentEpoch ≠ p.hwmLastEpoch
    · rw [if_pos h, if_pos h, hepoch, htvl]
    · rw [if_neg h, if_neg h]
      by_cases ht : currentTvl > p.epochHighWaterTvl
      · rw [if_pos ht, if_pos ht, htvl]
      · rw [if_neg ht, if_neg ht]

theorem named_access (a : Access) : (a.run p).named = p.named := by
  cases a with
  | set s => exact named_run p s
  | refreshHwm currentEpoch currentTvl =>
    show (p.refreshHwm currentEpoch currentTvl).1.named = p.named
    unfold refreshHwm
    simp only
    by_cases h : currentEpoch ≠ p.hwmLastEpoch
    · rw [if_pos h]
      exact (named_run _ (.setHwmLastEpoch currentEpoch)).trans
        (named_run p (.setEpochHighWaterTvl currentTvl))
    · rw [if_neg h]
      by_cases ht : currentTvl > p.epochHighWaterTvl
      · rw [if_pos ht]
        exact named_run p (.setEpochHighWaterTvl currentTvl)
      · rw [if_neg ht]

/-- A run on the bytes is the run on separate fields. -/
theorem get_runs (as : List Access) (p : StakePool) :
    (as.foldl (fun p a => a.run p) p).get = as.foldl (fun r a => a.onFields r) p.get ∧
      (as.foldl (fun p a => a.run p) p).named = p.named := by
  induction as generalizing p with
  | nil => exact ⟨rfl, rfl⟩
  | cons a as ih =>
    obtain ⟨hget, hnamed⟩ := ih (a.run p)
    rw [get_access] at hget
    rw [named_access] at hnamed
    exact ⟨hget, hnamed⟩

end

end StakePool

/-! ## Deposit records -/

namespace StakeDeposit

/-- What the getters of a record return. -/
structure Fields where
  validDiscriminator : Bool
  junior : Bool

def fields (d : StakeDeposit) : Fields := ⟨d.validateDiscriminator, d.isJuniorDeposit⟩

def named (d : StakeDeposit) : StakeDeposit := { d with reserved := Vector.replicate 64 0 }

inductive Setter where
  | setDiscriminator
  | setJuniorDeposit (v : Bool)

namespace Setter

def run : Setter → StakeDeposit → StakeDeposit
  | setDiscriminator, d => d.setDiscriminator
  | setJuniorDeposit v, d => d.setJuniorDeposit v

def onFields : Setter → Fields → Fields
  | setDiscriminator, r => { r with validDiscriminator := true }
  | setJuniorDeposit v, r => { r with junior := v }

end Setter

theorem fields_run (s : Setter) (d : StakeDeposit) :
    (s.run d).fields = s.onFields d.fields ∧ (s.run d).named = d.named := by
  cases s with
  | setDiscriminator =>
    refine ⟨?_, rfl⟩
    show Fields.mk d.setDiscriminator.validateDiscriminator d.setDiscriminator.isJuniorDeposit = _
    rw [validateDiscriminator_setDiscriminator, isJuniorDeposit_setDiscriminator]
    rfl
  | setJuniorDeposit v =>
    refine ⟨?_, rfl⟩
    show Fields.mk (d.setJuniorDeposit v).validateDiscriminator
      (d.setJuniorDeposit v).isJuniorDeposit = _
    rw [validateDiscriminator_setJuniorDeposit, isJuniorDeposit_setJuniorDeposit]
    rfl

theorem fields_runs (ss : List Setter) (d : StakeDeposit) :
    (ss.foldl (fun d s => s.run d) d).fields = ss.foldl (fun r s => s.onFields r) d.fields ∧
      (ss.foldl (fun d s => s.run d) d).named = d.named := by
  induction ss generalizing d with
  | nil => exact ⟨rfl, rfl⟩
  | cons s ss ih =>
    obtain ⟨hfields, hnamed⟩ := ih (s.run d)
    rw [(fields_run s d).1] at hfields
    rw [(fields_run s d).2] at hnamed
    rw [List.foldl_cons, List.foldl_cons]
    exact ⟨hfields, hnamed⟩

end StakeDeposit

/-- The packed bytes are as good as a record of separate fields: a setter is read back by
its own getter and seen by no other, and so for every run of setters and refreshes.  The
last write to a field counts, and writes to different fields commute. -/
theorem packed_layout :
    (∀ (s : StakePool.Setter) (p : StakePool), (s.run p).get s.field = s.value ∧
      (∀ f, f ≠ s.field → (s.run p).get f = p.get f) ∧ (s.run p).named = p.named) ∧
    (∀ (as : List StakePool.Access) (p : StakePool),
      (as.foldl (fun p a => a.run p) p).get = as.foldl (fun r a => a.onFields r) p.get ∧
        (as.foldl (fun p a => a.run p) p).named = p.named) ∧
    (∀ (s s' : StakePool.Setter) (p : StakePool),
      (s.field = s'.field → (s'.run (s.run p)).get = (s'.run p).get) ∧
      (s.field ≠ s'.field → (s'.run (s.run p)).get = (s.run (s'.run p)).get)) ∧
    (∀ (ss : List StakeDeposit.Setter) (d : StakeDeposit),
      (ss.foldl (fun d s => s.run d) d).fields = ss.foldl (fun r s => s.onFields r) d.fields ∧
        (ss.foldl (fun d s => s.run d) d).named = d.named) := by
  refine ⟨?_, StakePool.get_runs, ?_, StakeDeposit.fields_runs⟩
  · intro s p
    exact ⟨p.get_run_field s, fun f h => p.get_run_of_ne s h, p.named_run s⟩
  · intro s s' p
    constructor
    · intro h
      rw [StakePool.get_run, StakePool.get_run, StakePool.get_run]
      funext f
      by_cases hf : f = s'.field
      · subst hf
        rw [Function.update_self, Function.update_self]
      · rw [Function.update_of_ne hf, Function.update_of_ne hf, Function.update_of_ne (h ▸ hf)]
    · intro h
      simp only [StakePool.get_run]
      exact Function.update_comm h _ _ _

end PercolatorStake
