import PercolatorStake.State

/-!
# The books of a pool

The counters of a pool as naturals, with the quantities derived from them.  The
derived ones are plain arithmetic here: no word boundary, no saturation, no
order of evaluation.  The lemmas say that the functions of the packed record
compute them, and what each setter does to the books.
-/

namespace PercolatorStake

open Bytes Word

structure Book where
  deposited : Nat
  withdrawn : Nat
  flushed : Nat
  returned : Nat
  fees : Nat
  realized : Nat
  recovered : Nat
  supply : Nat
  juniorLp : Nat
  juniorBalance : Nat
  multiplier : Nat
  tranches : Bool
  deriving DecidableEq

namespace Book

def value (b : Book) : Int :=
  (b.deposited : Int) - b.withdrawn - b.flushed + b.returned + b.fees - b.realized

/-- Insurance out and not back. -/
def netLoss (b : Book) : Nat := b.flushed - b.returned

def effectiveJunior (b : Book) : Nat := b.juniorBalance - b.netLoss

def senior (b : Book) : Int := b.value - b.effectiveJunior

def seniorLp (b : Book) : Nat := b.supply - b.juniorLp

def recoverable (b : Book) : Nat := b.flushed - b.realized - b.recovered

/-- The value without the fees. -/
def principal (b : Book) : Int :=
  (b.deposited : Int) - b.withdrawn - b.flushed + b.returned - b.realized

/-- The value as it would be with all insurance back. -/
def gross (b : Book) : Int := (b.deposited : Int) - b.withdrawn + b.fees - b.realized

theorem value_setJuniorBalance (b : Book) (n : Nat) :
    value { b with juniorBalance := n } = b.value := rfl

theorem value_fees (b : Book) (n : Nat) : value { b with fees := n } = b.value - b.fees + n := by
  simp only [value]
  omega

end Book

/-- What a pool is set up as: no instruction changes it once the pool exists. -/
structure Charter where
  isInitialized : UInt8
  bump : UInt8
  vaultAuthorityBump : UInt8
  slab : Pubkey
  collateralMint : Pubkey
  lpMint : Pubkey
  vault : Pubkey
  percolatorProgram : Pubkey
  poolMode : UInt8
  discriminator : Nat
  version : UInt8

namespace StakePool

def charter (p : StakePool) : Charter where
  isInitialized := p.isInitialized
  bump := p.bump
  vaultAuthorityBump := p.vaultAuthorityBump
  slab := p.slab
  collateralMint := p.collateralMint
  lpMint := p.lpMint
  vault := p.vault
  percolatorProgram := p.percolatorProgram
  poolMode := p.poolMode
  discriminator := readLe p.reserved 0 8
  version := p.version

def book (p : StakePool) : Book where
  deposited := p.totalDeposited.toNat
  withdrawn := p.totalWithdrawn.toNat
  flushed := p.totalFlushed.toNat
  returned := p.totalReturned.toNat
  fees := p.totalFeesEarned.toNat
  realized := p.realizedJuniorLoss.toNat
  recovered := p.totalRecoveredFromWrapper.toNat
  supply := p.totalLpSupply.toNat
  juniorLp := p.juniorTotalLp.toNat
  juniorBalance := p.juniorBalance.toNat
  multiplier := p.juniorFeeMultBps.toNat
  tranches := p.trancheEnabled

theorem book_fees (p : StakePool) (fees : UInt64) :
    book { p with totalFeesEarned := fees } = { p.book with fees := fees.toNat } := rfl

/-! ## Derived quantities -/

theorem totalPoolValue_eq_some {p : StakePool} {v : UInt64} :
    p.totalPoolValue = some v ↔ p.book.value = v.toNat := by
  have hv := v.toNat_lt
  show (if p.book.value < 0 ∨ p.book.value > 2 ^ 64 - 1 then none
    else some (UInt64.ofNat p.book.value.toNat)) = some v ↔ _
  by_cases h : p.book.value < 0 ∨ p.book.value > 2 ^ 64 - 1
  · rw [if_pos h]
    refine ⟨fun e => (Option.some_ne_none v e.symm).elim, fun e => ?_⟩
    omega
  · rw [if_neg h, Option.some_inj, ← UInt64.toNat_inj]
    rw [toNat_ofNat (by omega)]
    omega

theorem totalPoolValue_isSome {p : StakePool} (h0 : 0 ≤ p.book.value)
    (h : p.book.value < 2 ^ 64) : ∃ v, p.totalPoolValue = some v ∧ p.book.value = v.toNat := by
  have hlt : p.book.value.toNat < 2 ^ 64 := by omega
  have e : p.book.value = (UInt64.ofNat p.book.value.toNat).toNat := by
    rw [toNat_ofNat hlt]
    omega
  exact ⟨_, totalPoolValue_eq_some.mpr e, e⟩

/-- The clamp never shows at the top, and at the bottom it is that of the naturals. -/
theorem principalTvl_eq {p : StakePool} (h : p.book.principal < 2 ^ 64) :
    ∃ v, p.principalTvl = some v ∧ v.toNat = p.book.principal.toNat := by
  refine ⟨_, rfl, ?_⟩
  show (UInt64.ofNat (max 0 (min p.book.principal (2 ^ 64 - 1))).toNat).toNat = _
  rw [toNat_ofNat (by omega)]
  omega

/-- The cap that the gross senior balance puts on the loss never shows, so it does
not matter that the gross balance leaves the fees out. -/
theorem toNat_effectiveJuniorBalance (p : StakePool) :
    p.effectiveJuniorBalance.toNat = p.book.effectiveJunior := by
  show _ = p.juniorBalance.toNat - (p.totalFlushed.toNat - p.totalReturned.toNat)
  unfold effectiveJuniorBalance
  simp only
  by_cases h : saturatingSub p.totalFlushed p.totalReturned = 0
  · rw [if_pos h]
    rw [eq_zero_iff, toNat_saturatingSub] at h
    omega
  · rw [if_neg h, toNat_saturatingSub, Math.distributeLoss_junior, toNat_saturatingSub]
    omega

theorem seniorBalance_eq_some {p : StakePool} {s : UInt64} :
    p.seniorBalance = some s ↔
      ∃ v, p.totalPoolValue = some v ∧ v.toNat = s.toNat + p.book.effectiveJunior := by
  unfold seniorBalance
  simp only [Option.bind_eq_bind, Option.bind_eq_some_iff, checkedSub_eq_some,
    toNat_effectiveJuniorBalance]

theorem senior_of_seniorBalance {p : StakePool} {s : UInt64} (h : p.seniorBalance = some s) :
    p.book.senior = s.toNat := by
  obtain ⟨v, hv, e⟩ := seniorBalance_eq_some.mp h
  rw [totalPoolValue_eq_some] at hv
  rw [Book.senior, hv]
  omega

theorem seniorBalance_isSome {p : StakePool} (h0 : 0 ≤ p.book.senior)
    (h : p.book.value < 2 ^ 64) : ∃ s, p.seniorBalance = some s ∧ p.book.senior = s.toNat := by
  have hs : p.book.senior = p.book.value - p.book.effectiveJunior := rfl
  obtain ⟨v, hv, e⟩ := totalPoolValue_isSome (p := p) (by omega) h
  have hlt := v.toNat_lt
  have hn : (UInt64.ofNat p.book.senior.toNat).toNat = p.book.senior.toNat :=
    toNat_ofNat (by omega)
  refine ⟨UInt64.ofNat p.book.senior.toNat, seniorBalance_eq_some.mpr ⟨v, hv, ?_⟩, ?_⟩ <;> omega

theorem seniorBalance_isSome_iff {p : StakePool} (hv : p.book.value < 2 ^ 64) :
    p.seniorBalance.isSome = true ↔ 0 ≤ p.book.senior := by
  refine ⟨fun h => ?_, fun h => ?_⟩
  · obtain ⟨s, hs⟩ := Option.isSome_iff_exists.mp h
    rw [senior_of_seniorBalance hs]
    exact Int.natCast_nonneg _
  · obtain ⟨s, hs, -⟩ := seniorBalance_isSome h hv
    rw [hs]
    rfl

@[simp] theorem toNat_seniorTotalLp (p : StakePool) :
    p.seniorTotalLp.toNat = p.book.seniorLp := toNat_saturatingSub ..

@[simp] theorem toNat_wrapperRecoverable (p : StakePool) :
    p.wrapperRecoverable.toNat = p.book.recoverable := by
  unfold wrapperRecoverable
  rw [toNat_saturatingSub, toNat_saturatingSub]
  rfl

theorem wrapperFullyRecovered_iff {p : StakePool} :
    p.wrapperFullyRecovered = true ↔ p.book.recoverable = 0 := by
  unfold wrapperFullyRecovered
  rw [beq_iff_eq, eq_zero_iff, toNat_wrapperRecoverable]

/-! ## Setters

A packed field reads back what was written to it and does not see a write to
another one; the offsets are literals, so which fields overlap is decided by
computation. -/

section Packed

variable {p : StakePool} {o o' : Nat}

theorem word_setWord_self (h : o + 8 ≤ 64) (v : UInt64) : (p.setWord o v).word o = v := by
  have hv := v.toNat_lt
  unfold word setWord
  rw [readLe_writeLe 8 h, Nat.mod_eq_of_lt (by omega), UInt64.ofNat_toNat]

theorem word_setWord_of_disjoint (h : o + 8 ≤ 64) (hd : o' + 8 ≤ o ∨ o + 8 ≤ o') (v : UInt64) :
    (p.setWord o v).word o' = p.word o' := by
  unfold word setWord
  rw [readLe_writeLe_of_disjoint h hd]

theorem word_setHalf_of_disjoint (h : o + 2 ≤ 64) (hd : o' + 8 ≤ o ∨ o + 2 ≤ o') (v : UInt16) :
    (p.setHalf o v).word o' = p.word o' := by
  unfold word setHalf
  rw [readLe_writeLe_of_disjoint h hd]

theorem word_setFlag_of_disjoint (h : o < 64) (hd : o' + 8 ≤ o ∨ o < o') (b : Bool) :
    (p.setFlag o b).word o' = p.word o' := by
  unfold word setFlag
  rw [readLe_setByte_of_disjoint h hd]

theorem half_setHalf_self (h : o + 2 ≤ 64) (v : UInt16) : (p.setHalf o v).half o = v := by
  have hv : v.toNat < 2 ^ 16 := v.toNat_lt
  unfold half setHalf
  rw [readLe_writeLe 2 h, Nat.mod_eq_of_lt (by omega), UInt16.ofNat_toNat]

theorem half_setWord_of_disjoint (h : o + 8 ≤ 64) (hd : o' + 2 ≤ o ∨ o + 8 ≤ o') (v : UInt64) :
    (p.setWord o v).half o' = p.half o' := by
  unfold half setWord
  rw [readLe_writeLe_of_disjoint h hd]

theorem half_setHalf_of_disjoint (h : o + 2 ≤ 64) (hd : o' + 2 ≤ o ∨ o + 2 ≤ o') (v : UInt16) :
    (p.setHalf o v).half o' = p.half o' := by
  unfold half setHalf
  rw [readLe_writeLe_of_disjoint h hd]

theorem half_setFlag_of_disjoint (h : o < 64) (hd : o' + 2 ≤ o ∨ o < o') (b : Bool) :
    (p.setFlag o b).half o' = p.half o' := by
  unfold half setFlag
  rw [readLe_setByte_of_disjoint h hd]

theorem byte_setWord_of_disjoint (h : o + 8 ≤ 64) (hd : o' < o ∨ o + 8 ≤ o') (v : UInt64) :
    byteAt (p.setWord o v).reserved o' = byteAt p.reserved o' :=
  byteAt_writeLe_outside 8 h hd

theorem byte_setHalf_of_disjoint (h : o + 2 ≤ 64) (hd : o' < o ∨ o + 2 ≤ o') (v : UInt16) :
    byteAt (p.setHalf o v).reserved o' = byteAt p.reserved o' :=
  byteAt_writeLe_outside 2 h hd

theorem byte_setFlag_of_ne (h : o < 64) (hd : o ≠ o') (b : Bool) :
    byteAt (p.setFlag o b).reserved o' = byteAt p.reserved o' :=
  byteAt_setByte_ne h hd

end Packed

section Setters

variable (p : StakePool) {o : Nat}

theorem charter_setWord (h : 9 ≤ o ∧ o + 8 ≤ 64) (v : UInt64) :
    (p.setWord o v).charter = p.charter := by
  have hr : readLe (p.setWord o v).reserved 0 8 = readLe p.reserved 0 8 :=
    readLe_writeLe_of_disjoint h.2 (by omega)
  have hv : (p.setWord o v).version = p.version := byte_setWord_of_disjoint h.2 (by omega) v
  rw [charter, hr, hv]
  rfl

theorem charter_setHalf (h : 9 ≤ o ∧ o + 2 ≤ 64) (v : UInt16) :
    (p.setHalf o v).charter = p.charter := by
  have hr : readLe (p.setHalf o v).reserved 0 8 = readLe p.reserved 0 8 :=
    readLe_writeLe_of_disjoint h.2 (by omega)
  have hv : (p.setHalf o v).version = p.version := byte_setHalf_of_disjoint h.2 (by omega) v
  rw [charter, hr, hv]
  rfl

theorem charter_setFlag (h : 9 ≤ o ∧ o < 64) (b : Bool) :
    (p.setFlag o b).charter = p.charter := by
  have hr : readLe (p.setFlag o b).reserved 0 8 = readLe p.reserved 0 8 :=
    readLe_setByte_of_disjoint h.2 (by omega)
  have hv : (p.setFlag o b).version = p.version := byte_setFlag_of_ne h.2 (by omega) b
  rw [charter, hr, hv]
  rfl

/-- A word outside bytes 32–58 is not part of the books. -/
theorem book_setWord (h : o + 8 ≤ 32) (v : UInt64) : (p.setWord o v).book = p.book := by
  have hn : o + 8 ≤ 64 := by omega
  simp only [book, juniorBalance, juniorTotalLp, realizedJuniorLoss, juniorFeeMultBps,
    trancheEnabled]
  rw [word_setWord_of_disjoint hn (by omega), word_setWord_of_disjoint hn (by omega),
    word_setWord_of_disjoint hn (by omega), half_setWord_of_disjoint hn (by omega),
    byte_setWord_of_disjoint hn (by omega)]
  rfl

theorem book_setHalf (h : o + 2 ≤ 32) (v : UInt16) : (p.setHalf o v).book = p.book := by
  have hn : o + 2 ≤ 64 := by omega
  simp only [book, juniorBalance, juniorTotalLp, realizedJuniorLoss, juniorFeeMultBps,
    trancheEnabled]
  rw [word_setHalf_of_disjoint hn (by omega), word_setHalf_of_disjoint hn (by omega),
    word_setHalf_of_disjoint hn (by omega), half_setHalf_of_disjoint hn (by omega),
    byte_setHalf_of_disjoint hn (by omega)]
  rfl

theorem book_setFlag (h : o < 32 ∨ 58 < o ∧ o < 64) (b : Bool) :
    (p.setFlag o b).book = p.book := by
  have hn : o < 64 := by omega
  simp only [book, juniorBalance, juniorTotalLp, realizedJuniorLoss, juniorFeeMultBps,
    trancheEnabled]
  rw [word_setFlag_of_disjoint hn (by omega), word_setFlag_of_disjoint hn (by omega),
    word_setFlag_of_disjoint hn (by omega), half_setFlag_of_disjoint hn (by omega),
    byte_setFlag_of_ne hn (by omega)]
  rfl

@[simp] theorem charter_setMarketResolved (v : Bool) :
    (p.setMarketResolved v).charter = p.charter :=
  charter_setFlag p (by decide) v

@[simp] theorem charter_setHwmEnabled (v : Bool) : (p.setHwmEnabled v).charter = p.charter :=
  charter_setFlag p (by decide) v

@[simp] theorem charter_setAssetAdminBurned (v : Bool) :
    (p.setAssetAdminBurned v).charter = p.charter :=
  charter_setFlag p (by decide) v

@[simp] theorem charter_setTrancheEnabled (v : Bool) :
    (p.setTrancheEnabled v).charter = p.charter :=
  charter_setFlag p (by decide) v

@[simp] theorem charter_setHwmFloorBps (v : UInt16) : (p.setHwmFloorBps v).charter = p.charter :=
  charter_setHalf p (by decide) v

@[simp] theorem charter_setJuniorFeeMultBps (v : UInt16) :
    (p.setJuniorFeeMultBps v).charter = p.charter :=
  charter_setHalf p (by decide) v

@[simp] theorem charter_setEpochHighWaterTvl (v : UInt64) :
    (p.setEpochHighWaterTvl v).charter = p.charter :=
  charter_setWord p (by decide) v

@[simp] theorem charter_setHwmLastEpoch (v : UInt64) : (p.setHwmLastEpoch v).charter = p.charter :=
  charter_setWord p (by decide) v

@[simp] theorem charter_setJuniorBalance (v : UInt64) :
    (p.setJuniorBalance v).charter = p.charter :=
  charter_setWord p (by decide) v

@[simp] theorem charter_setJuniorTotalLp (v : UInt64) :
    (p.setJuniorTotalLp v).charter = p.charter :=
  charter_setWord p (by decide) v

@[simp] theorem charter_setRealizedJuniorLoss (v : UInt64) :
    (p.setRealizedJuniorLoss v).charter = p.charter :=
  charter_setWord p (by decide) v

@[simp] theorem book_setMarketResolved (v : Bool) : (p.setMarketResolved v).book = p.book :=
  book_setFlag p (by decide) v

@[simp] theorem book_setHwmEnabled (v : Bool) : (p.setHwmEnabled v).book = p.book :=
  book_setFlag p (by decide) v

@[simp] theorem book_setAssetAdminBurned (v : Bool) : (p.setAssetAdminBurned v).book = p.book :=
  book_setFlag p (by decide) v

@[simp] theorem book_setHwmFloorBps (v : UInt16) : (p.setHwmFloorBps v).book = p.book :=
  book_setHalf p (by decide) v

@[simp] theorem book_setEpochHighWaterTvl (v : UInt64) : (p.setEpochHighWaterTvl v).book = p.book :=
  book_setWord p (by decide) v

@[simp] theorem book_setHwmLastEpoch (v : UInt64) : (p.setHwmLastEpoch v).book = p.book :=
  book_setWord p (by decide) v

@[simp] theorem book_setJuniorBalance (v : UInt64) :
    (p.setJuniorBalance v).book = { p.book with juniorBalance := v.toNat } := by
  simp (disch := decide) only [book, setJuniorBalance, juniorBalance, juniorTotalLp,
    realizedJuniorLoss, juniorFeeMultBps, trancheEnabled, word_setWord_self,
    word_setWord_of_disjoint, half_setWord_of_disjoint, byte_setWord_of_disjoint]
  rfl

@[simp] theorem book_setJuniorTotalLp (v : UInt64) :
    (p.setJuniorTotalLp v).book = { p.book with juniorLp := v.toNat } := by
  simp (disch := decide) only [book, setJuniorTotalLp, juniorBalance, juniorTotalLp,
    realizedJuniorLoss, juniorFeeMultBps, trancheEnabled, word_setWord_self,
    word_setWord_of_disjoint, half_setWord_of_disjoint, byte_setWord_of_disjoint]
  rfl

@[simp] theorem book_setRealizedJuniorLoss (v : UInt64) :
    (p.setRealizedJuniorLoss v).book = { p.book with realized := v.toNat } := by
  simp (disch := decide) only [book, setRealizedJuniorLoss, juniorBalance, juniorTotalLp,
    realizedJuniorLoss, juniorFeeMultBps, trancheEnabled, word_setWord_self,
    word_setWord_of_disjoint, half_setWord_of_disjoint, byte_setWord_of_disjoint]
  rfl

@[simp] theorem book_setJuniorFeeMultBps (v : UInt16) :
    (p.setJuniorFeeMultBps v).book = { p.book with multiplier := v.toNat } := by
  simp (disch := decide) only [book, setJuniorFeeMultBps, juniorBalance, juniorTotalLp,
    realizedJuniorLoss, juniorFeeMultBps, trancheEnabled, half_setHalf_self,
    word_setHalf_of_disjoint, byte_setHalf_of_disjoint]
  rfl

@[simp] theorem book_setTrancheEnabled (v : Bool) :
    (p.setTrancheEnabled v).book = { p.book with tranches := v } := by
  have hflag : byteAt (p.setFlag 32 v).reserved 32 = flagByte v := byteAt_setByte_self (by decide)
  simp (disch := decide) only [book, setTrancheEnabled, juniorBalance, juniorTotalLp,
    realizedJuniorLoss, juniorFeeMultBps, trancheEnabled, word_setFlag_of_disjoint,
    half_setFlag_of_disjoint, hflag]
  cases v <;> rfl

@[simp] theorem charter_refreshHwm (epoch tvl : UInt64) :
    (p.refreshHwm epoch tvl).1.charter = p.charter := by
  unfold refreshHwm
  simp only
  by_cases h : epoch ≠ p.hwmLastEpoch
  · rw [if_pos h, charter_setHwmLastEpoch, charter_setEpochHighWaterTvl]
  · rw [if_neg h]
    by_cases ht : tvl > p.epochHighWaterTvl
    · rw [if_pos ht, charter_setEpochHighWaterTvl]
    · rw [if_neg ht]

@[simp] theorem book_refreshHwm (epoch tvl : UInt64) :
    (p.refreshHwm epoch tvl).1.book = p.book := by
  unfold refreshHwm
  simp only
  by_cases h : epoch ≠ p.hwmLastEpoch
  · rw [if_pos h, book_setHwmLastEpoch, book_setEpochHighWaterTvl]
  · rw [if_neg h]
    by_cases ht : tvl > p.epochHighWaterTvl
    · rw [if_pos ht, book_setEpochHighWaterTvl]
    · rw [if_neg ht]

end Setters

end StakePool

/-! ## Deposit records -/

namespace StakeDeposit

variable (d : StakeDeposit)

theorem validateDiscriminator_setDiscriminator :
    d.setDiscriminator.validateDiscriminator = true := by
  unfold validateDiscriminator hasDiscriminatorBytes setDiscriminator setDiscriminatorBytes
  rw [readLe_writeLe 8 (by decide), beq_iff_eq]
  decide

theorem isJuniorDeposit_setDiscriminator :
    d.setDiscriminator.isJuniorDeposit = d.isJuniorDeposit := by
  unfold isJuniorDeposit setDiscriminator setDiscriminatorBytes
  rw [byteAt_writeLe_outside 8 (by decide) (by decide)]

@[simp] theorem isJuniorDeposit_setJuniorDeposit (b : Bool) :
    (d.setJuniorDeposit b).isJuniorDeposit = b := by
  unfold isJuniorDeposit setJuniorDeposit
  rw [byteAt_setByte_self (by decide)]
  cases b <;> rfl

@[simp] theorem validateDiscriminator_setJuniorDeposit (b : Bool) :
    (d.setJuniorDeposit b).validateDiscriminator = d.validateDiscriminator := by
  unfold validateDiscriminator hasDiscriminatorBytes setJuniorDeposit
  rw [readLe_setByte_of_disjoint (by decide) (by decide)]

end StakeDeposit

end PercolatorStake
