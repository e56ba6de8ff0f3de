import PercolatorStake.Execution

/-!
# When an accrual goes through

The guard at the end of an accrual compares the stored junior balance, which a loss
does not lower, with the pool value, which it does.  After a loss large enough for
the junior tranche the guard rejects every accrual, and with it every withdrawal
and every deposit, as soon as anybody sends a token to the vault.
-/

namespace PercolatorStake

open Result Word

/-- The junior balance with its share of the surplus stays within the vault balance
`b`, for the pool value `v` and the senior value `s`.  The share is the floor of
`(b - v) * w / (w + 10000 * s)` with the weight `w` of the junior balance. -/
def JuniorFits (p : StakePool) (s v b : UInt64) : Prop :=
  p.juniorBalance ≤ b ∧
    (p.juniorBalance.toNat * p.juniorFeeMultBps.toNat = 0 ∨
      (b.toNat - v.toNat) * (p.juniorBalance.toNat * p.juniorFeeMultBps.toNat) <
        (b.toNat - p.juniorBalance.toNat + 1) *
          (p.juniorBalance.toNat * p.juniorFeeMultBps.toNat + s.toNat * 10000))

/-- A floored share against a bound, without the division. -/
theorem share_le_iff {f w n d : Nat} :
    f * w / (w + n) ≤ d ↔ w = 0 ∨ f * w < (d + 1) * (w + n) := by
  rcases Nat.eq_zero_or_pos w with h0 | hpos
  · rw [h0, Nat.mul_zero, Nat.zero_div]
    exact ⟨fun _ => .inl rfl, fun _ => Nat.zero_le _⟩
  · rw [← Nat.lt_succ_iff, Nat.div_lt_iff_lt_mul (by omega)]
    exact ⟨.inr, fun h => h.resolve_left (by omega)⟩

theorem accrueJuniorFee_ok_iff {p : StakePool} {s v b fees : UInt64}
    (hv : p.book.value = v.toNat) (hb : v.toNat ≤ b.toNat)
    (hfees : fees.toNat = p.totalFeesEarned.toNat + (b - v).toNat) :
    (∃ p', accrueJuniorFee { p with totalFeesEarned := fees } p.juniorBalance s (b - v) = .ok p') ↔
      JuniorFits p s v b := by
  have hd : (b - v).toNat = b.toNat - v.toNat :=
    UInt64.toNat_sub_of_le _ _ (UInt64.le_iff_toNat_le.mpr hb)
  have hlt := b.toNat_lt
  -- the pool value after the accrual is the vault balance
  have hval : (StakePool.book { p with totalFeesEarned := fees }).value = b.toNat := by
    have hfees : fees.toNat = p.book.fees + (b - v).toNat := hfees
    rw [StakePool.book_fees, Book.value_fees, hfees]
    omega
  have hshare := Math.distributeFees_junior p.juniorBalance s p.juniorFeeMultBps (b - v)
  have hfits : JuniorFits p s v b ↔ p.juniorBalance.toNat +
      (Math.distributeFees p.juniorBalance s p.juniorFeeMultBps (b - v)).1.toNat ≤ b.toNat := by
    unfold JuniorFits
    rw [UInt64.le_iff_toNat_le, ← hd, ← share_le_iff, ← hshare]
    omega
  rw [hfits]
  simp only [accrueJuniorFee_eq_ok]
  refine ⟨?_, fun hle => ?_⟩
  · rintro ⟨p', jb, pv, hjb, hpv, hle, -⟩
    rw [hval] at hpv
    have hjb : jb.toNat = p.juniorBalance.toNat +
      (Math.distributeFees p.juniorBalance s p.juniorFeeMultBps (b - v)).1.toNat := hjb
    omega
  · have hjb := toNat_ofNat (Nat.lt_of_le_of_lt hle hlt)
    exact ⟨_, UInt64.ofNat _, b, hjb, hval, hjb.trans_le hle, rfl⟩

theorem accrueFeesInner_ok_iff {p : StakePool} {s v b : UInt64} (hsupply : 0 < p.totalLpSupply)
    (hv : p.totalPoolValue = some v) (hs : p.seniorBalance = some s) (hb : v ≤ b)
    (hfit : p.totalFeesEarned.toNat + (b.toNat - v.toNat) < 2 ^ 64) :
    (∃ p', accrueFeesInner p b = .ok p') ↔
      b = v ∨ p.trancheEnabled = false ∨ p.juniorTotalLp = 0 ∨ JuniorFits p s v b := by
  have hb' := UInt64.le_iff_toNat_le.mp hb
  have hd : (b - v).toNat = b.toNat - v.toNat := UInt64.toNat_sub_of_le _ _ hb
  simp only [accrueFeesInner_eq_ok, hv, Option.some_inj, exists_eq_left']
  by_cases hsurplus : v < b
  · simp only [if_pos (And.intro hsurplus hsupply)]
    have hne : b ≠ v := fun e => by
      rw [e] at hsurplus
      exact UInt64.lt_irrefl _ hsurplus
    have hfees : (UInt64.ofNat (p.totalFeesEarned.toNat + (b - v).toNat)).toNat =
        p.totalFeesEarned.toNat + (b - v).toNat := toNat_ofNat (by omega)
    by_cases ht : p.trancheEnabled = true ∧ 0 < p.juniorTotalLp
    · simp only [if_pos ht, hs, Option.some_inj, exists_eq_left']
      have hjunior : p.juniorTotalLp ≠ 0 := fun e => by
        rw [e] at ht
        exact UInt64.lt_irrefl _ ht.2
      have hlast : (b = v ∨ p.trancheEnabled = false ∨ p.juniorTotalLp = 0 ∨
          JuniorFits p s v b) ↔ JuniorFits p s v b := by
        simp only [hne, ht.1, hjunior, Bool.true_eq_false, false_or]
      rw [hlast]
      rw [StakePool.totalPoolValue_eq_some] at hv
      refine ⟨?_, fun h => ?_⟩
      · rintro ⟨p', fees, hfees, h⟩
        exact (accrueJuniorFee_ok_iff hv hb' hfees).mp ⟨p', h⟩
      · obtain ⟨p', h⟩ := (accrueJuniorFee_ok_iff hv hb' hfees).mpr h
        exact ⟨p', _, hfees, h⟩
    · simp only [if_neg ht]
      refine ⟨fun _ => ?_, fun _ => ⟨_, _, hfees, rfl⟩⟩
      rw [not_and_or, Bool.not_eq_true, pos_iff, Nat.pos_iff_ne_zero, not_not, ← eq_zero_iff] at ht
      exact .inr (ht.imp_right .inl)
  · rw [UInt64.not_lt] at hsurplus
    refine ⟨fun _ => .inl (UInt64.le_antisymm hsurplus hb), fun _ => ⟨p, ?_⟩⟩
    rw [if_neg (fun e => absurd e.1 (UInt64.not_lt.mpr hsurplus))]

section

variable {ctx : Context} {π : Pubkey} {w : World} {p : StakePool} {t : TokenAccount} {m : Mint}
  {es : List Event}

/-- The instruction that only accrues goes through exactly if the accrual does. -/
theorem Standing.accrueFees_ok_iff (h : Standing ctx π w p t m)
    {caller pool vault clock : AccountInfo} (hsigner : caller.isSigner = true)
    (hk : pool.key = π) (hwritable : pool.isWritable = true) (hvault : vault.key = p.vault)
    {c : Clock} (hclock : readClock w clock = .ok c) :
    (∃ w', process ctx w [caller, pool, vault, clock] .accrueFees = .ok w') ↔
      ∃ p', accrueFeesInner p t.amount = .ok p' := by
  obtain ⟨howner, hdata, hread⟩ := h.readPool_eq hk
  have hbal : vaultBalance w vault = .ok t.amount :=
    (vaultBalance_eq_ok (hvault ▸ h.vault_eq) h.vault_live).mpr rfl
  have hpda : (ctx.derivation.derivePoolPda ctx.programId p.slab).1 = π :=
    congrArg Prod.fst h.chartered.pool_eq
  have hmode : ¬p.poolMode > 1 := UInt8.not_lt.mpr h.chartered.mode
  have heq : process ctx w [caller, pool, vault, clock] .accrueFees =
      accrueFeesInner p t.amount >>= fun p' => w.store pool (.pool { p' with
        lastFeeAccrualSlot := c.slot
        lastVaultSnapshot := t.amount }) := by
    simp [process, processAccrueFees, AccrueAccounts.next, requireSigner,
      validateAccountOwner, validateAccountNotEmpty, validateAccountWritable, rejectIf, ok_bind,
      hsigner, howner, hdata, hwritable, hread, hbal, hclock, hpda, hk, hvault, hmode]
  simp only [heq, bind_eq_ok]
  constructor
  · rintro ⟨-, p', hp', -⟩
    exact ⟨p', hp'⟩
  · rintro ⟨p', hp'⟩
    exact ⟨_, p', hp', World.store_eq_ok.mpr ⟨hwritable, rfl⟩⟩

/-- In a reachable state with LP and a defined senior value, an accrual of a vault
balance at or above the pool value goes through exactly if there is no surplus, no
junior tranche, or the junior balance with its share of the surplus stays within the
vault balance.  `AccrueFees` goes through exactly if the accrual of the balance in
the vault does, and the accrual in front of a pricing is that same accrual. -/
theorem accrual_ok_iff (h : ctx.Reached π es w) :
    ∃ p t v, w.pool ctx.programId π = some p ∧ w.token p.vault = some t ∧
      p.totalPoolValue = some v ∧
      (∀ s b, 0 < p.totalLpSupply → p.seniorBalance = some s → v ≤ b →
        p.totalFeesEarned.toNat + (b.toNat - v.toNat) < 2 ^ 64 →
        ((∃ p', accrueFeesInner p b = .ok p') ↔
          b = v ∨ p.trancheEnabled = false ∨ p.juniorTotalLp = 0 ∨ JuniorFits p s v b)) ∧
      (∀ vault : AccountInfo, vault.key = p.vault →
        preAccrueFeeModes w p vault = accrueFeesInner p t.amount) ∧
      (∀ (caller pool vault clock : AccountInfo) (c : Clock), caller.isSigner = true →
        pool.key = π → pool.isWritable = true → vault.key = p.vault →
        readClock w clock = .ok c →
        ((∃ w', process ctx w [caller, pool, vault, clock] .accrueFees = .ok w') ↔
          ∃ p', accrueFeesInner p t.amount = .ok p')) := by
  obtain ⟨p, t, m, hvalid⟩ := h.stands
  obtain ⟨v, hv, -⟩ :=
    StakePool.totalPoolValue_isSome (p := p) hvalid.sound.value_nonneg hvalid.value_lt
  refine ⟨p, t, v, hvalid.standing.pool_eq, hvalid.standing.vault_eq, hv, ?_, ?_, ?_⟩
  · intro s b hsupply hs hb hfit
    exact accrueFeesInner_ok_iff hsupply hv hs hb hfit
  · intro vault hvault
    exact hvalid.standing.preAccrue hvault.symm
  · intro caller pool vault clock c hsigner hk hwritable hvault hclock
    exact hvalid.standing.accrueFees_ok_iff hsigner hk hwritable hvault hclock

/-- A junior tranche with a loss that leaves some of it. -/
def Sample.marked : List Action :=
  [enableTranches, deposit alice 100000, depositJunior bob 50000, flush 30000]

theorem Sample.marked_accrual :
    ∃ p p', (after marked).pool Sample.ctx.programId pool = some p ∧
      accrueFeesInner p 120500 = .ok p' := by
  have hstate : ((after marked).pool Sample.ctx.programId pool).map (fun p =>
      ([p.totalLpSupply, p.totalFeesEarned, p.juniorBalance], p.juniorFeeMultBps,
        p.totalPoolValue, p.seniorBalance)) =
      some ([150000, 0, 50000], 10000, some 120000, some 100000) := by decide +kernel
  obtain ⟨p, t, v, hp, -, hv, hiff, -⟩ := accrual_ok_iff (after_reached (run_of_pool hstate))
  rw [hp, Option.map_some, Option.some_inj] at hstate
  simp only [Prod.mk.injEq, List.cons.injEq, and_true] at hstate
  obtain ⟨⟨hsupply, hfees, hjb⟩, hmult, hv', hs⟩ := hstate
  obtain rfl : v = 120000 := Option.some_inj.mp (hv.symm.trans hv')
  obtain ⟨p', hp'⟩ := (hiff 100000 120500 (by rw [hsupply]; decide) hs (by decide)
    (by rw [hfees]; decide)).mpr
    (.inr (.inr (.inr (by unfold JuniorFits; rw [hjb, hmult]; decide))))
  exact ⟨p, p', hp, hp'⟩

/-- A loss that takes more than the junior tranche. -/
def Sample.drained : List Action :=
  [enableTranches, deposit alice 100000, depositJunior bob 50000, flush 120000, .tick ⟨200, 1⟩]

def Sample.overflows {α : Type} : Except ProgramError α → Bool
  | .error e => e = ↑StakeError.overflow
  | .ok _ => false

theorem Sample.eq_of_overflows {α : Type} {x : Except ProgramError α} (h : overflows x = true) :
    x = .error ↑StakeError.overflow := by
  cases x with
  | error e => rw [of_decide_eq_true h]
  | ok a => cases h

/-- One token sent to the vault, and neither an accrual nor a withdrawal goes
through any more. -/
theorem Sample.drained_accrual :
    Sample.ctx.Reached pool (drained.map Action.event) (after drained) ∧
      (∃ p, (after drained).pool Sample.ctx.programId pool = some p ∧ 0 < p.totalLpSupply ∧
        p.seniorBalance = some 30000 ∧ p.totalPoolValue = some 30000 ∧ p.totalFeesEarned = 0 ∧
        accrueFeesInner p 30001 = .error ↑StakeError.overflow) ∧
      Sample.ctx.Step pool (after drained) (.outside 1) (after (drained ++ [.send 1])) ∧
      process Sample.ctx (after (drained ++ [.send 1])) accrueAccounts .accrueFees =
        .error ↑StakeError.overflow ∧
      process Sample.ctx (after (drained ++ [.send 1])) (withdrawAccounts alice)
        (.withdraw 50000) = .error ↑StakeError.overflow := by
  have hstuck : (run (drained ++ [.send 1])).isSome = true ∧
      overflows (process Sample.ctx (after (drained ++ [.send 1])) accrueAccounts
        .accrueFees) = true ∧
      overflows (process Sample.ctx (after (drained ++ [.send 1])) (withdrawAccounts alice)
        (.withdraw 50000)) = true := by decide +kernel
  obtain ⟨hrun, haccrue, hwithdraw⟩ := hstuck
  have hstep := after_step hrun
  refine ⟨after_reached hstep.1, ?_, hstep.2, eq_of_overflows haccrue,
    eq_of_overflows hwithdraw⟩
  have hstate : ((after drained).pool Sample.ctx.programId pool).map (fun p =>
      (decide (0 < p.totalLpSupply), p.seniorBalance, p.totalPoolValue, p.totalFeesEarned,
        overflows (accrueFeesInner p 30001))) =
      some (true, some 30000, some 30000, 0, true) := by decide +kernel
  obtain ⟨p, hp, h⟩ := Option.map_eq_some_iff.mp hstate
  simp only [Prod.mk.injEq, decide_eq_true_eq] at h
  obtain ⟨hsupply, hs, hv, hfees, hover⟩ := h
  exact ⟨p, hp, hsupply, hs, hv, hfees, eq_of_overflows hover⟩

end

end PercolatorStake
