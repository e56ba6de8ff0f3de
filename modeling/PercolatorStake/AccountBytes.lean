import PercolatorStake.Lib.Pod
import PercolatorStake.Configuration

/-!
# Accounts as bytes

The two records as they lie in the data of an account, with the paddings that no field
covers.  The program reads and writes them in place.
-/

namespace PercolatorStake

open Bytes Result Word

/-! ## The records -/

/-- A pool with its paddings. -/
structure StoredPool where
  pool : StakePool
  padding : Vector UInt8 4
  modePadding : Vector UInt8 7

/-- A deposit record with its padding. -/
structure StoredDeposit where
  deposit : StakeDeposit
  padding : Vector UInt8 6

namespace StoredPool

/-- The fields in the order of their declaration. -/
def fields :=
  Pod.Fields.first .byte <|
  .cons .byte (by decide) <|
  .cons .byte (by decide) <|
  .cons .byte (by decide) <|
  .cons (.array 4) (by decide) <|
  .cons (.array 32) (by decide) <|
  .cons (.array 32) (by decide) <|
  .cons (.array 32) (by decide) <|
  .cons (.array 32) (by decide) <|
  .cons (.array 32) (by decide) <|
  .cons .word (by decide) <|
  .cons .word (by decide) <|
  .cons .word (by decide) <|
  .cons .word (by decide) <|
  .cons .word (by decide) <|
  .cons .word (by decide) <|
  .cons .word (by decide) <|
  .cons (.array 32) (by decide) <|
  .cons .word (by decide) <|
  .cons .word (by decide) <|
  .cons .word (by decide) <|
  .cons .byte (by decide) <|
  .cons (.array 7) (by decide) <|
  .cons (.array 32) (by decide) <|
  .cons (.array 64) (by decide) <|
  .cons .word (by decide) <|
  .cons .word (by decide) <|
  .last .word (by decide)

/-- How a pool lies in its account. -/
def pod : Pod StoredPool := fields.record (by decide) {
  toFun := fun
    | (isInitialized, bump, vaultAuthorityBump, adminTransferred, padding, slab, admin,
        collateralMint, lpMint, vault, totalDeposited, totalLpSupply, cooldownSlots, depositCap,
        totalFlushed, totalReturned, totalWithdrawn, percolatorProgram, totalFeesEarned,
        lastFeeAccrualSlot, lastVaultSnapshot, poolMode, modePadding, pendingAdmin, reserved,
        totalRecoveredFromWrapper, pendingCooldownSlots, cooldownProposedAtSlot) =>
      ⟨⟨isInitialized, bump, vaultAuthorityBump, adminTransferred, slab, admin, collateralMint,
          lpMint, vault, totalDeposited, totalLpSupply, cooldownSlots, depositCap, totalFlushed,
          totalReturned, totalWithdrawn, percolatorProgram, totalFeesEarned, lastFeeAccrualSlot,
          lastVaultSnapshot, poolMode, pendingAdmin, reserved, totalRecoveredFromWrapper,
          pendingCooldownSlots, cooldownProposedAtSlot⟩,
        padding, modePadding⟩
  invFun s :=
    (s.pool.isInitialized, s.pool.bump, s.pool.vaultAuthorityBump, s.pool.adminTransferred,
      s.padding, s.pool.slab, s.pool.admin, s.pool.collateralMint, s.pool.lpMint, s.pool.vault,
      s.pool.totalDeposited, s.pool.totalLpSupply, s.pool.cooldownSlots, s.pool.depositCap,
      s.pool.totalFlushed, s.pool.totalReturned, s.pool.totalWithdrawn, s.pool.percolatorProgram,
      s.pool.totalFeesEarned, s.pool.lastFeeAccrualSlot, s.pool.lastVaultSnapshot,
      s.pool.poolMode, s.modePadding, s.pool.pendingAdmin, s.pool.reserved,
      s.pool.totalRecoveredFromWrapper, s.pool.pendingCooldownSlots, s.pool.cooldownProposedAtSlot)
  left_inv _ := rfl
  right_inv _ := rfl }

end StoredPool

namespace StoredDeposit

def fields :=
  Pod.Fields.first .byte <|
  .cons .byte (by decide) <|
  .cons (.array 6) (by decide) <|
  .cons (.array 32) (by decide) <|
  .cons (.array 32) (by decide) <|
  .cons .word (by decide) <|
  .cons .word (by decide) <|
  .last (.array 64) (by decide)

/-- How a deposit record lies in its account. -/
def pod : Pod StoredDeposit := fields.record (by decide) {
  toFun := fun
    | (isInitialized, bump, padding, pool, user, lastDepositSlot, lpAmount, reserved) =>
      ⟨⟨isInitialized, bump, pool, user, lastDepositSlot, lpAmount, reserved⟩, padding⟩
  invFun s :=
    (s.deposit.isInitialized, s.deposit.bump, s.padding, s.deposit.pool, s.deposit.user,
      s.deposit.lastDepositSlot, s.deposit.lpAmount, s.deposit.reserved)
  left_inv _ := rfl
  right_inv _ := rfl }

end StoredDeposit

theorem StoredPool.size_pod : StoredPool.pod.size = stakePoolSize := by decide

theorem StoredDeposit.size_pod : StoredDeposit.pod.size = stakeDepositSize := by decide

/-! ## Where the fields lie -/

/-- The fields the wrapper reads, and the bytes a deposit record would be read from. -/
theorem StoredPool.spans (s : StoredPool) :
    span (pod.encode s) 0 1 = [s.pool.isInitialized] ∧
    span (pod.encode s) 8 32 = s.pool.slab.toList ∧
    span (pod.encode s) 40 32 = s.pool.admin.toList ∧
    span (pod.encode s) 72 8 = span s.pool.collateralMint.toList 0 8 ∧
    span (pod.encode s) 80 8 = span s.pool.collateralMint.toList 8 8 ∧
    span (pod.encode s) 88 8 = span s.pool.collateralMint.toList 16 8 ∧
    span (pod.encode s) 136 32 = s.pool.vault.toList ∧
    span (pod.encode s) 224 32 = s.pool.percolatorProgram.toList ∧
    span (pod.encode s) 280 1 = [s.pool.poolMode] ∧
    span (pod.encode s) 320 8 = span s.pool.reserved.toList 0 8 ∧
    span (pod.encode s) 328 1 = span s.pool.reserved.toList 8 1 := by
  simp (disch := decide) only [pod, fields, Pod.Fields.record, Pod.Fields.first, Pod.Fields.cons,
    Pod.Fields.last, Pod.span_pair_left, Pod.span_pair_right]
  refine ⟨rfl, ?_, ?_, rfl, rfl, rfl, ?_, ?_, rfl, rfl, rfl⟩
  · exact span_self Vector.length_toList
  · exact span_self Vector.length_toList
  · exact span_self Vector.length_toList
  · exact span_self Vector.length_toList

theorem StoredDeposit.spans (s : StoredDeposit) :
    span (pod.encode s) 0 1 = [s.deposit.isInitialized] ∧
    span (pod.encode s) 8 32 = s.deposit.pool.toList ∧
    span (pod.encode s) 40 32 = s.deposit.user.toList ∧
    span (pod.encode s) 72 8 = encodeLe 8 s.deposit.lastDepositSlot.toNat ∧
    span (pod.encode s) 80 8 = encodeLe 8 s.deposit.lpAmount.toNat ∧
    span (pod.encode s) 88 8 = span s.deposit.reserved.toList 0 8 := by
  simp (disch := decide) only [pod, fields, Pod.Fields.record, Pod.Fields.first, Pod.Fields.cons,
    Pod.Fields.last, Pod.span_pair_left, Pod.span_pair_right]
  refine ⟨rfl, ?_, ?_, ?_, ?_, rfl⟩
  · exact span_self Vector.length_toList
  · exact span_self Vector.length_toList
  · exact span_self (length_encodeLe ..)
  · exact span_self (length_encodeLe ..)

/-- The words of a pool, each with its offset. -/
def StoredPool.words (p : StakePool) : List (Nat × UInt64) :=
  [(168, p.totalDeposited), (176, p.totalLpSupply), (184, p.cooldownSlots), (192, p.depositCap),
    (200, p.totalFlushed), (208, p.totalReturned), (216, p.totalWithdrawn),
    (256, p.totalFeesEarned), (264, p.lastFeeAccrualSlot), (272, p.lastVaultSnapshot),
    (384, p.totalRecoveredFromWrapper), (392, p.pendingCooldownSlots),
    (400, p.cooldownProposedAtSlot)]

def StoredDeposit.words (d : StakeDeposit) : List (Nat × UInt64) :=
  [(72, d.lastDepositSlot), (80, d.lpAmount)]

theorem StoredPool.span_words (s : StoredPool) : ∀ x ∈ words s.pool,
    8 ∣ x.1 ∧ x.1 + 8 ≤ pod.size ∧ span (pod.encode s) x.1 8 = encodeLe 8 x.2.toNat := by
  simp only [words, List.forall_mem_cons, List.not_mem_nil, false_imp_iff, implies_true, and_true,
    size_pod]
  simp (disch := decide) only [pod, fields, Pod.Fields.record, Pod.Fields.first, Pod.Fields.cons,
    Pod.Fields.last, Pod.span_pair_left, Pod.span_pair_right]
  refine ⟨?_, ?_, ?_, ?_, ?_, ?_, ?_, ?_, ?_, ?_, ?_, ?_, ?_⟩
  all_goals exact ⟨by decide, by decide, span_self (length_encodeLe ..)⟩

theorem StoredDeposit.span_words (s : StoredDeposit) : ∀ x ∈ words s.deposit,
    8 ∣ x.1 ∧ x.1 + 8 ≤ pod.size ∧ span (pod.encode s) x.1 8 = encodeLe 8 x.2.toNat := by
  simp only [words, List.forall_mem_cons, List.not_mem_nil, false_imp_iff, implies_true, and_true,
    size_pod]
  obtain ⟨-, -, -, hslot, hlp, -⟩ := s.spans
  exact ⟨⟨by decide, by decide, hslot⟩, by decide, by decide, hlp⟩

/-! ## Reading and writing in place -/

/-- `pool_from_data`. -/
def poolFromBytes (data : List UInt8) : Except ProgramError StoredPool :=
  if data.length < stakePoolSize then .error StakeError.invalidAccount
  else .ok (StoredPool.pod.read data)

/-- `deposit_from_data`. -/
def depositFromBytes (data : List UInt8) : Except ProgramError StoredDeposit :=
  if data.length < stakeDepositSize then .error StakeError.invalidAccount
  else .ok (StoredDeposit.pod.read data)

/-- What a handler leaves in the data when it assigns to fields behind
`pool_from_data_mut`. -/
def updatePool (data : List UInt8) (f : StakePool → StakePool) : List UInt8 :=
  StoredPool.pod.update data fun s => { s with pool := f s.pool }

/-- The same behind `deposit_from_data_mut`. -/
def updateDeposit (data : List UInt8) (f : StakeDeposit → StakeDeposit) : List UInt8 :=
  StoredDeposit.pod.update data fun s => { s with deposit := f s.deposit }

section

variable {data : List UInt8} {f g : StakePool → StakePool} {f' g' : StakeDeposit → StakeDeposit}

theorem poolFromBytes_eq_ok {s : StoredPool} :
    poolFromBytes data = .ok s ↔ StoredPool.pod.size ≤ data.length ∧
      StoredPool.pod.read data = s := by
  rw [StoredPool.size_pod]
  unfold poolFromBytes
  by_cases h : data.length < stakePoolSize
  · rw [if_pos h]
    simp only [reduceCtorEq, false_iff, not_and]
    omega
  · rw [if_neg h, ok_eq_ok]
    exact ⟨fun e => ⟨Nat.not_lt.mp h, e⟩, fun e => e.2⟩

theorem depositFromBytes_eq_ok {s : StoredDeposit} :
    depositFromBytes data = .ok s ↔
      StoredDeposit.pod.size ≤ data.length ∧ StoredDeposit.pod.read data = s := by
  rw [StoredDeposit.size_pod]
  unfold depositFromBytes
  by_cases h : data.length < stakeDepositSize
  · rw [if_pos h]
    simp only [reduceCtorEq, false_iff, not_and]
    omega
  · rw [if_neg h, ok_eq_ok]
    exact ⟨fun e => ⟨Nat.not_lt.mp h, e⟩, fun e => e.2⟩

theorem pool_in_place (h : stakePoolSize ≤ data.length) :
    ∃ s, poolFromBytes data = .ok s ∧ updatePool data id = data ∧
      (∀ x ∈ StoredPool.words s.pool, 8 ∣ x.1 ∧ span data x.1 8 = encodeLe 8 x.2.toNat) ∧
      ∀ f g, poolFromBytes (updatePool data f) = .ok { s with pool := f s.pool } ∧
        updatePool (updatePool data f) g = updatePool data (g ∘ f) ∧
        (updatePool data f).length = data.length ∧
        (updatePool data f).drop stakePoolSize = data.drop stakePoolSize := by
  rw [← StoredPool.size_pod] at h ⊢
  refine ⟨_, poolFromBytes_eq_ok.mpr ⟨h, rfl⟩, Pod.update_id h, ?_, ?_⟩
  · intro x hx
    obtain ⟨hdvd, hle, hspan⟩ := StoredPool.span_words _ x hx
    exact ⟨hdvd, (Pod.span_read hle h).symm.trans hspan⟩
  intro f g
  have hlen : (updatePool data f).length = data.length := Pod.length_update h
  exact ⟨poolFromBytes_eq_ok.mpr ⟨hlen.symm ▸ h, Pod.read_update⟩, Pod.update_update, hlen,
    Pod.drop_update⟩

theorem deposit_in_place (h : stakeDepositSize ≤ data.length) :
    ∃ s, depositFromBytes data = .ok s ∧ updateDeposit data id = data ∧
      (∀ x ∈ StoredDeposit.words s.deposit, 8 ∣ x.1 ∧ span data x.1 8 = encodeLe 8 x.2.toNat) ∧
      ∀ f g, depositFromBytes (updateDeposit data f) = .ok { s with deposit := f s.deposit } ∧
        updateDeposit (updateDeposit data f) g = updateDeposit data (g ∘ f) ∧
        (updateDeposit data f).length = data.length ∧
        (updateDeposit data f).drop stakeDepositSize = data.drop stakeDepositSize := by
  rw [← StoredDeposit.size_pod] at h ⊢
  refine ⟨_, depositFromBytes_eq_ok.mpr ⟨h, rfl⟩, Pod.update_id h, ?_, ?_⟩
  · intro x hx
    obtain ⟨hdvd, hle, hspan⟩ := StoredDeposit.span_words _ x hx
    exact ⟨hdvd, (Pod.span_read hle h).symm.trans hspan⟩
  intro f g
  have hlen : (updateDeposit data f).length = data.length := Pod.length_update h
  exact ⟨depositFromBytes_eq_ok.mpr ⟨hlen.symm ▸ h, Pod.read_update⟩, Pod.update_update, hlen,
    Pod.drop_update⟩

/-- Both records read and written in place, in an account of any size.  Too short an account
is rejected.  In any other, every word lies at a multiple of its size, and exactly the fields
of the record move: the paddings and whatever is behind the record stay. -/
theorem accounts_in_place (data : List UInt8) :
    (if stakePoolSize ≤ data.length then
      ∃ s, poolFromBytes data = .ok s ∧ updatePool data id = data ∧
        (∀ x ∈ StoredPool.words s.pool, 8 ∣ x.1 ∧ span data x.1 8 = encodeLe 8 x.2.toNat) ∧
        ∀ f g, poolFromBytes (updatePool data f) = .ok { s with pool := f s.pool } ∧
          updatePool (updatePool data f) g = updatePool data (g ∘ f) ∧
          (updatePool data f).length = data.length ∧
          (updatePool data f).drop stakePoolSize = data.drop stakePoolSize
    else poolFromBytes data = .error StakeError.invalidAccount) ∧
    if stakeDepositSize ≤ data.length then
      ∃ s, depositFromBytes data = .ok s ∧ updateDeposit data id = data ∧
        (∀ x ∈ StoredDeposit.words s.deposit, 8 ∣ x.1 ∧ span data x.1 8 = encodeLe 8 x.2.toNat) ∧
        ∀ f g, depositFromBytes (updateDeposit data f) = .ok { s with deposit := f s.deposit } ∧
          updateDeposit (updateDeposit data f) g = updateDeposit data (g ∘ f) ∧
          (updateDeposit data f).length = data.length ∧
          (updateDeposit data f).drop stakeDepositSize = data.drop stakeDepositSize
    else depositFromBytes data = .error StakeError.invalidAccount := by
  constructor
  · split
    · rename_i h
      exact pool_in_place h
    · rename_i h
      exact if_pos (Nat.not_le.mp h)
  · split
    · rename_i h
      exact deposit_in_place h
    · rename_i h
      exact if_pos (Nat.not_le.mp h)

end

/-! ## What an account holds -/

/-- The bytes of an account of the program, with whatever the paddings are. -/
def AccountData.Holds (data : List UInt8) : AccountData → Prop
  | .empty => data = []
  | .pool p => data.length = stakePoolSize ∧ (StoredPool.pod.read data).pool = p
  | .deposit d => data.length = stakeDepositSize ∧ (StoredDeposit.pod.read data).deposit = d
  | _ => False

theorem AccountData.holds_pool (s : StoredPool) :
    (AccountData.pool s.pool).Holds (StoredPool.pod.encode s) :=
  ⟨(StoredPool.pod.length_encode s).trans StoredPool.size_pod,
    congrArg StoredPool.pool Pod.read_encode⟩

theorem AccountData.holds_deposit (s : StoredDeposit) :
    (AccountData.deposit s.deposit).Holds (StoredDeposit.pod.encode s) :=
  ⟨(StoredDeposit.pod.length_encode s).trans StoredDeposit.size_pod,
    congrArg StoredDeposit.deposit Pod.read_encode⟩

/-- As pools, the bytes of an account read as the account does, errors included. -/
theorem poolFromData_eq {data : List UInt8} {x : AccountData} (h : x.Holds data) :
    poolFromData x = (poolFromBytes data).map StoredPool.pool := by
  unfold poolFromBytes
  cases x with
  | empty =>
    rw [show data = [] from h]
    rfl
  | pool p =>
    obtain ⟨hlen, hread⟩ := h
    rw [if_neg (by omega), Except.map, hread]
    rfl
  | deposit d =>
    obtain ⟨hlen, -⟩ := h
    rw [if_pos (by rw [hlen]; decide)]
    rfl
  | _ => exact h.elim

theorem poolFromData_update {data : List UInt8} {p : StakePool} {f : StakePool → StakePool}
    (h : (AccountData.pool p).Holds data) :
    (AccountData.pool (f p)).Holds (updatePool data f) := by
  obtain ⟨hlen, hread⟩ := h
  refine ⟨?_, ?_⟩
  · rw [← hlen]
    exact Pod.length_update (StoredPool.size_pod ▸ hlen.ge)
  · rw [updatePool, Pod.read_update, ← hread]

/-! ## What the wrapper reads -/

/-- The bytes the wrapper takes from the account of a pool, by their offsets. -/
structure WrapperView where
  isInitialized : List UInt8
  slab : List UInt8
  vault : List UInt8
  percolatorProgram : List UInt8
  poolMode : List UInt8
  discriminator : List UInt8
  version : List UInt8

def wrapperView (data : List UInt8) : WrapperView where
  isInitialized := span data 0 1
  slab := span data 8 32
  vault := span data 136 32
  percolatorProgram := span data 224 32
  poolMode := span data 280 1
  discriminator := span data 320 8
  version := span data 328 1

section

variable {data data' : List UInt8} {p p' : StakePool}

theorem wrapperView_pool (h : (AccountData.pool p).Holds data) :
    wrapperView data = ⟨[p.isInitialized], p.slab.toList, p.vault.toList,
      p.percolatorProgram.toList, [p.poolMode], span p.reserved.toList 0 8, [p.version]⟩ := by
  obtain ⟨hlen, rfl⟩ := h
  rw [← StoredPool.size_pod] at hlen
  obtain ⟨hinit, hslab, -, -, -, -, hvault, hprogram, hmode, hdisc, hversion⟩ :=
    StoredPool.spans (StoredPool.pod.read data)
  have hspan : ∀ {off n}, off + n ≤ StoredPool.pod.size →
      span data off n = span (StoredPool.pod.encode (StoredPool.pod.read data)) off n :=
    fun hn => (Pod.span_read hn hlen.ge).symm
  unfold wrapperView
  rw [hspan (by decide), hspan (by decide), hspan (by decide), hspan (by decide),
    hspan (by decide), hspan (by decide), hspan (by decide), hinit, hslab, hvault, hprogram, hmode,
    hdisc, hversion, span_one (by decide)]
  rfl

theorem span_discriminator {v : Vector UInt8 64} {bytes : List UInt8} (hlen : bytes.length = 8) :
    hasDiscriminatorBytes v bytes = true ↔ span v.toList 0 8 = bytes := by
  rw [hasDiscriminatorBytes, beq_iff_eq, ← hlen]
  exact readLe_eq_iff (by omega)

variable {ctx : Context} {π : Pubkey} {w w' : World} {es : List Event}

theorem Standing.wrapperView_eq {t : TokenAccount} {m : Mint} (h : Standing ctx π w p t m)
    (hdata : (AccountData.pool p).Holds data) :
    wrapperView data = ⟨[1], p.slab.toList, p.vault.toList, percolatorMainnet.toList,
      [p.poolMode], stakePoolDiscriminator, [StakePool.currentVersion]⟩ := by
  obtain ⟨hdisc, hversion⟩ := h.identity
  have hinit : p.isInitialized = 1 := h.chartered.initialized
  have hprogram : p.percolatorProgram = percolatorMainnet := h.chartered.program
  rw [wrapperView_pool hdata, hinit, hprogram, (span_discriminator rfl).mp hdisc, hversion]

/-- What the wrapper reads from the account of a pool names the slab the pool is derived from
and a vault of the pool, and no run changes a byte of it. -/
theorem wrapper_view (h : ctx.Reached π es w) :
    ∃ p, w.pool ctx.programId π = some p ∧
      (ctx.derivation.derivePoolPda ctx.programId p.slab).1 = π ∧
      (∃ t, w.token p.vault = some t ∧ t.owner = ctx.vaultAuthority π ∧
        t.mint = p.collateralMint) ∧
      (∀ data, (AccountData.pool p).Holds data →
        wrapperView data = ⟨[1], p.slab.toList, p.vault.toList, percolatorMainnet.toList,
          [p.poolMode], stakePoolDiscriminator, [StakePool.currentVersion]⟩) ∧
      ∀ es' w', Transition.Run (ctx.Step π) w es' w' → ∃ p', w'.pool ctx.programId π = some p' ∧
        ∀ data data', (AccountData.pool p).Holds data → (AccountData.pool p').Holds data' →
          wrapperView data' = wrapperView data := by
  obtain ⟨p, t, m, hvalid⟩ := h.stands
  have hst := hvalid.standing
  refine ⟨p, hst.pool_eq, congrArg Prod.fst hst.chartered.pool_eq,
    ⟨t, hst.vault_eq, hst.vault_owner, hst.vault_mint⟩, fun _ => hst.wrapperView_eq, ?_⟩
  intro es' w' hrun
  obtain ⟨p', t', m', hvalid'⟩ := (h.append hrun).stands
  have hst' := hvalid'.standing
  obtain ⟨q, hq, hkept⟩ := h.kept_along Kept.refl (fun _ _ _ => Kept.trans)
    (fun _ _ _ => id) (fun _ _ _ _ _ _ _ _ hkept _ => hkept) hst.pool_eq hrun
  obtain rfl : q = p' := Option.some_inj.mp (hq.symm.trans hst'.pool_eq)
  refine ⟨q, hq, ?_⟩
  intro data data' hdata hdata'
  rw [hst'.wrapperView_eq hdata', hst.wrapperView_eq hdata, hkept.slab, hkept.vault,
    hkept.pool_mode]

/-- A deposit and a flush later the wrapper reads what it read at first. -/
theorem Sample.wrapper_view_flush : ∃ p p',
    (after []).pool Sample.ctx.programId pool = some p ∧
    (after ([] ++ [deposit alice 100000, flush 40000])).pool Sample.ctx.programId pool = some p' ∧
    ∀ s s' : StoredPool, s.pool = p → s'.pool = p' →
      wrapperView (StoredPool.pod.encode s') = wrapperView (StoredPool.pod.encode s) := by
  obtain ⟨hnil, hrun⟩ := after_run (s := []) (r := [deposit alice 100000, flush 40000])
    (by decide +kernel)
  obtain ⟨p, hp, -, -, -, hnext⟩ := wrapper_view (after_reached hnil)
  obtain ⟨p', hp', hsame⟩ := hnext _ _ hrun
  refine ⟨p, p', hp, hp', ?_⟩
  rintro s s' rfl rfl
  exact hsame _ _ (AccountData.holds_pool s) (AccountData.holds_pool s')

end

/-! ## One kind of account taken for the other -/

/-- The number in a span, as a word. -/
def wordAt (s : List UInt8) (off : Nat) : UInt64 := UInt64.ofNat (decodeLe (span s off 8))

/-- `checkRecord` on the bytes of the record. -/
def checkRecordBytes (data : List UInt8) (user pool : Pubkey) (cooldownSlots : UInt64)
    (clock : Clock) (lpAmount : UInt64) : Except ProgramError StakeDeposit := do
  let s ← depositFromBytes data
  rejectIf (s.deposit.validateDiscriminator = false) ↑StakeError.invalidAccount
  rejectIf (s.deposit.isInitialized ≠ 1 ∨ s.deposit.user ≠ user ∨ s.deposit.pool ≠ pool)
    ↑StakeError.unauthorized
  rejectIf (clock.slot < saturatingAdd s.deposit.lastDepositSlot cooldownSlots)
    ↑StakeError.cooldownNotElapsed
  rejectIf (lpAmount > s.deposit.lpAmount) ↑StakeError.insufficientLpTokens
  .ok s.deposit

section

variable {w : World} {data : List UInt8} {p q : StakePool} {user π : Pubkey} {clock : Clock}
  {slots lp : UInt64}

/-- On the bytes of a record the check is the check of the record, errors included. -/
theorem checkRecord_eq {a : WithdrawAccounts} {d : StakeDeposit}
    (hd : w.data a.depositPda = .deposit d) (h : (AccountData.deposit d).Holds data) :
    checkRecord w a q clock lp =
      checkRecordBytes data a.user.key a.poolPda.key q.cooldownSlots clock lp := by
  obtain ⟨hlen, hread⟩ := h
  have hbytes : depositFromBytes data = .ok (StoredDeposit.pod.read data) :=
    depositFromBytes_eq_ok.mpr ⟨StoredDeposit.size_pod ▸ hlen.ge, rfl⟩
  unfold checkRecord checkRecordBytes
  rw [hd, hbytes, ← hread]
  rfl

theorem record_not_pool {d : StakeDeposit} (h : (AccountData.deposit d).Holds data) :
    poolFromBytes data = .error StakeError.invalidAccount := by
  have hshort : data.length < stakePoolSize := by
    rw [h.1]
    decide
  exact if_pos hshort

/-- The fields a deposit record has if it is read from the account of a pool. -/
theorem deposit_of_pool (h : (AccountData.pool p).Holds data) :
    ∃ s, depositFromBytes data = .ok s ∧ s.deposit.isInitialized = p.isInitialized ∧
      s.deposit.pool = p.slab ∧ s.deposit.user = p.admin ∧
      s.deposit.lastDepositSlot = wordAt p.collateralMint.toList 0 ∧
      s.deposit.lpAmount = wordAt p.collateralMint.toList 8 ∧
      span s.deposit.reserved.toList 0 8 = span p.collateralMint.toList 16 8 := by
  obtain ⟨hlen, rfl⟩ := h
  have hpool : StoredPool.pod.size ≤ data.length := StoredPool.size_pod ▸ hlen.ge
  have hdeposit : StoredDeposit.pod.size ≤ data.length := le_trans (by decide) hpool
  obtain ⟨hinit, hslab, hadmin, hslot, hlp, hdisc, -⟩ :=
    StoredPool.spans (StoredPool.pod.read data)
  obtain ⟨hinit', hslab', hadmin', hslot', hlp', hdisc'⟩ :=
    StoredDeposit.spans (StoredDeposit.pod.read data)
  -- both records are read from the same bytes
  have hsame : ∀ {off n}, off + n ≤ StoredDeposit.pod.size →
      span (StoredDeposit.pod.encode (StoredDeposit.pod.read data)) off n =
        span (StoredPool.pod.encode (StoredPool.pod.read data)) off n := by
    intro off n hn
    have hn' : off + n ≤ StoredPool.pod.size := le_trans hn (by decide)
    rw [Pod.span_read hn hdeposit, Pod.span_read hn' hpool]
  have hword : ∀ {x : UInt64} {s : List UInt8} {off : Nat}, encodeLe 8 x.toNat = span s off 8 →
      x = wordAt s off := by
    intro x s off he
    rw [wordAt, ← he]
    exact (Pod.word.decode_encode x).symm
  rw [hsame (by decide)] at hinit' hslab' hadmin' hslot' hlp' hdisc'
  refine ⟨_, depositFromBytes_eq_ok.mpr ⟨hdeposit, rfl⟩, ?_, ?_, ?_, ?_, ?_, ?_⟩
  · exact (List.cons.inj (hinit'.symm.trans hinit)).1
  · exact Vector.toList_inj.mp (hslab'.symm.trans hslab)
  · exact Vector.toList_inj.mp (hadmin'.symm.trans hadmin)
  · exact hword (hslot'.symm.trans hslot)
  · exact hword (hlp'.symm.trans hlp)
  · exact hdisc'.symm.trans hdisc

theorem checkRecordBytes_eq_ok {d : StakeDeposit} :
    checkRecordBytes data user π slots clock lp = .ok d ↔
      ∃ s, depositFromBytes data = .ok s ∧ s.deposit.validateDiscriminator = true ∧
        (s.deposit.isInitialized = 1 ∧ s.deposit.user = user ∧ s.deposit.pool = π) ∧
        saturatingAdd s.deposit.lastDepositSlot slots ≤ clock.slot ∧ lp ≤ s.deposit.lpAmount ∧
        s.deposit = d := by
  unfold checkRecordBytes
  simp only [bind_eq_ok, rejectIf_eq_ok, ok_eq_ok, Bool.not_eq_false, not_or, not_not,
    UInt64.not_lt, exists_const, gt_iff_lt]

/-- The account of a pool passes for a record with LP of `user` in `π` exactly if the
collateral mint of the pool has the mark of a record in its third word, its slab is `π` and its
admin is `user`.  What passes for the slot and for the LP are the first two words of the mint.
The account of a record never passes for a pool. -/
theorem pool_read_as_record {es : List Event} {ctx : Context} {π₀ : Pubkey}
    (h : ctx.Reached π₀ es w) :
    ∃ p, w.pool ctx.programId π₀ = some p ∧
      (∀ data, (AccountData.pool p).Holds data → ∀ user π slots clock lp,
        ((∃ d, checkRecordBytes data user π slots clock lp = .ok d) ↔
          span p.collateralMint.toList 16 8 = stakeDepositDiscriminator ∧ p.slab = π ∧
            p.admin = user ∧
            saturatingAdd (wordAt p.collateralMint.toList 0) slots ≤ clock.slot ∧
            lp ≤ wordAt p.collateralMint.toList 8)) ∧
      ∀ k d data, w.record ctx.programId k = some d → (AccountData.deposit d).Holds data →
        poolFromBytes data = .error StakeError.invalidAccount := by
  obtain ⟨p, t, m, hvalid⟩ := h.stands
  refine ⟨p, hvalid.standing.pool_eq, ?_, fun _ _ _ _ => record_not_pool⟩
  intro data hdata user π slots clock lp
  obtain ⟨s, hs, hinit, hpool, huser, hslot, hlp, hdisc⟩ := deposit_of_pool hdata
  have hlive : p.isInitialized = 1 := hvalid.standing.chartered.initialized
  have hmark : s.deposit.validateDiscriminator = true ↔
      span p.collateralMint.toList 16 8 = stakeDepositDiscriminator := by
    rw [← hdisc]
    exact span_discriminator rfl
  constructor
  · rintro ⟨d, hd⟩
    obtain ⟨s', hs', hmark', ⟨-, huser', hpool'⟩, hcool, hle, -⟩ := checkRecordBytes_eq_ok.mp hd
    obtain rfl : s = s' := Except.ok.inj (hs.symm.trans hs')
    rw [hslot] at hcool
    rw [hlp] at hle
    exact ⟨hmark.mp hmark', hpool.symm.trans hpool', huser.symm.trans huser', hcool, hle⟩
  · rintro ⟨hmark', hslab, hadmin, hcool, hle⟩
    rw [← hslot] at hcool
    rw [← hlp] at hle
    exact ⟨s.deposit, checkRecordBytes_eq_ok.mpr ⟨s, hs, hmark.mpr hmark',
      ⟨hinit.trans hlive, huser.trans hadmin, hpool.trans hslab⟩, hcool, hle, rfl⟩⟩

/-- The collateral mint of the sample has no such mark. -/
theorem Sample.pool_read_as_record_none : ∃ p,
    (after []).pool Sample.ctx.programId pool = some p ∧
    ∀ s : StoredPool, s.pool = p → ∀ user π slots clock lp d,
      checkRecordBytes (StoredPool.pod.encode s) user π slots clock lp ≠ .ok d := by
  have hmint : ((after []).pool Sample.ctx.programId pool).map
      (fun p => span p.collateralMint.toList 16 8) = some (List.replicate 8 20) := by
    decide +kernel
  obtain ⟨p, hp, hiff, -⟩ := pool_read_as_record (after_reached (run_of_pool hmint))
  rw [hp, Option.map_some, Option.some_inj] at hmint
  refine ⟨p, hp, ?_⟩
  rintro s rfl user π slots clock lp d hd
  have hmark := ((hiff _ (AccountData.holds_pool s) user π slots clock lp).mp ⟨d, hd⟩).1
  rw [hmint] at hmark
  exact absurd hmark (by decide)

end

end PercolatorStake
