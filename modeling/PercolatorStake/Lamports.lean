import PercolatorStake.AccountBytes

/-!
# Lamports

The other modules take the creation of an account at a derived address as one payment and
one write.  Here it is what the program does: one instruction of the system program at an
address without lamports, and up to three at an address that someone has sent lamports to
before.
-/

namespace PercolatorStake

open Bytes Result Word

/-! ## The program -/

/-- The program a call goes to has to be among the accounts of the instruction. -/
def Context.invokeSystem (ctx : Context) (b : Bank) (accounts : List AccountInfo)
    (ix : SystemInstruction) (infos : List AccountInfo) (seeds : List (List (List UInt8))) :
    Except ProgramError Bank := do
  let signers := seeds.filterMap fun s => ctx.derivation.createProgramAddress s ctx.programId
  rejectIf (accounts.all (·.key ≠ systemProgramId) = true) ProgramError.invocationFailed
  rejectIf (ix.accounts.all (Context.privileged infos signers) = false)
    ProgramError.privilegeEscalation
  ctx.systemProgram.process b ix

def Bank.createOrAdoptPda (ctx : Context) (b : Bank) (accounts : List AccountInfo)
    (target payer systemProgram : AccountInfo) (owner : Pubkey) (space : Nat)
    (signerSeeds : List (List UInt8)) : Except ProgramError Bank := do
  let need := ctx.minimumBalance space
  if (b.account target.key).lamports = 0 then
    ctx.invokeSystem b accounts (.createAccount payer.key target.key need space owner)
      [payer, target, systemProgram] [signerSeeds]
  else do
    let held := (b.account target.key).lamports
    let b ←
      if held < need then
        ctx.invokeSystem b accounts (.transfer payer.key target.key (need - held))
          [payer, target, systemProgram] []
      else .ok b
    let b ← ctx.invokeSystem b accounts (.allocate target.key space) [target, systemProgram]
      [signerSeeds]
    ctx.invokeSystem b accounts (.assign target.key owner) [target, systemProgram] [signerSeeds]

/-! ## What it comes to -/

namespace Bank

/-- The account `k` can pay `x`. -/
def Covers (b : Bank) (k : Pubkey) (x : UInt64) : Prop :=
  b.Free k ∧ x ≤ (b.account k).lamports

instance (b : Bank) (k : Pubkey) (x : UInt64) : Decidable (b.Covers k x) :=
  inferInstanceAs (Decidable (_ ∧ _))

/-- What the address `target` is short of. -/
def shortfall (b : Bank) (target : Pubkey) (need : UInt64) : UInt64 :=
  saturatingSub need (b.account target).lamports

/-- The payer makes up what the address is short of, and the address holds `space` zero
bytes of `owner`. -/
def adopted (b : Bank) (payer target owner : Pubkey) (need : UInt64) (space : Nat) : Bank :=
  (b.set payer { b.account payer with
      lamports := (b.account payer).lamports - b.shortfall target need }).set target
    ⟨(b.account target).lamports + b.shortfall target need, owner, List.replicate space 0⟩

end Bank

/-- The call as the handlers make it: with the seeds of the target, paid by another account,
and with every account under one set of privileges however often it is named. -/
structure Context.Adoptable (ctx : Context) (target payer systemProgram : AccountInfo)
    (signerSeeds : List (List UInt8)) : Prop where
  seeds_eq : ctx.derivation.createProgramAddress signerSeeds ctx.programId = some target.key
  payer_ne : payer.key ≠ target.key
  payer_eq : systemProgram.key = payer.key → systemProgram = payer
  target_eq : systemProgram.key = target.key → systemProgram = target

namespace SystemInstruction

variable {b b' : Bank} {source dest account owner : Pubkey} {lamports : UInt64} {space : Nat}

theorem processTransfer_eq_ok (hne : source ≠ dest) :
    processTransfer b source dest lamports = .ok b' ↔ b.Covers source lamports ∧
      ∃ sum, (b.account dest).lamports.toNat + lamports.toNat = UInt64.toNat sum ∧
        b' = (b.set source { b.account source with
            lamports := (b.account source).lamports - lamports }).set dest
          { b.account dest with lamports := sum } := by
  unfold processTransfer Bank.Covers
  simp only [bind_eq_ok, rejectIf_eq_ok, okOr_eq_ok, ok_eq_ok, not_not, checkedSub_eq_some,
    checkedAdd_eq_some, Bank.account_set_of_ne hne.symm]
  constructor
  · rintro ⟨-, hfree, rest, hrest, sum, hsum, rfl⟩
    have hle : lamports ≤ (b.account source).lamports := by
      rw [UInt64.le_iff_toNat_le]
      omega
    have hsub : (b.account source).lamports - lamports = rest := by
      rw [← UInt64.toNat_inj, UInt64.toNat_sub_of_le _ _ hle]
      omega
    rw [hsub]
    exact ⟨⟨hfree, hle⟩, sum, by omega, rfl⟩
  · rintro ⟨⟨hfree, hle⟩, sum, hsum, rfl⟩
    have hsub := UInt64.toNat_sub_of_le _ _ hle
    rw [UInt64.le_iff_toNat_le] at hle
    exact ⟨(), hfree, _, by omega, sum, by omega, rfl⟩

theorem processAllocate_eq_ok : processAllocate b account space = .ok b' ↔
    b.Free account ∧ space ≤ maxPermittedDataLength ∧
      b' = b.set account { b.account account with data := List.replicate space 0 } := by
  unfold processAllocate
  simp only [bind_eq_ok, rejectIf_eq_ok, ok_eq_ok, not_not, gt_iff_lt, Nat.not_lt, exists_const]
  exact ⟨fun h => ⟨h.1, h.2.1, h.2.2.symm⟩, fun h => ⟨h.1, h.2.1, h.2.2.symm⟩⟩

theorem processAssign_eq_ok : processAssign b account owner = .ok b' ↔
    (b.account account).owner = systemProgramId ∧
      b' = b.set account { b.account account with owner := owner } := by
  unfold processAssign
  simp only [bind_eq_ok, rejectIf_eq_ok, ok_eq_ok, not_not, exists_const]
  exact ⟨fun h => ⟨h.1, h.2.symm⟩, fun h => ⟨h.1, h.2.symm⟩⟩

end SystemInstruction

section

variable {ctx : Context} {b b' : Bank} {target payer systemProgram : AccountInfo} {owner : Pubkey}
  {space : Nat} {signerSeeds : List (List UInt8)} {accounts : List AccountInfo}

theorem invokeSystem_eq_ok {ix : SystemInstruction} {infos : List AccountInfo}
    {seeds : List (List (List UInt8))} :
    ctx.invokeSystem b accounts ix infos seeds = .ok b' ↔
      (∃ a ∈ accounts, a.key = systemProgramId) ∧
      ix.accounts.all (Context.privileged infos (seeds.filterMap fun s =>
        ctx.derivation.createProgramAddress s ctx.programId)) = true ∧
      ctx.systemProgram.process b ix = .ok b' := by
  unfold Context.invokeSystem
  simp only [bind_eq_ok, rejectIf_eq_ok, Bool.not_eq_false, exists_const]
  refine and_congr_left fun _ => ?_
  rw [Bool.not_eq_true, List.all_eq_false]
  simp only [decide_eq_true_eq, not_not]

namespace Context.Adoptable

/-- What the payer is named with, wherever it is named. -/
theorem any_payer (h : ctx.Adoptable target payer systemProgram signerSeeds)
    (f : AccountInfo → Bool) :
    ([payer, target, systemProgram].any fun a => a.key == payer.key && f a) = f payer := by
  have htarget : (target.key == payer.key) = false := beq_eq_false_iff_ne.mpr h.payer_ne.symm
  by_cases he : systemProgram.key = payer.key
  · rw [h.payer_eq he]
    simp [htarget]
  · simp [htarget, he]

theorem any_target (h : ctx.Adoptable target payer systemProgram signerSeeds)
    (f : AccountInfo → Bool) :
    ([target, systemProgram].any fun a => a.key == target.key && f a) = f target := by
  by_cases he : systemProgram.key = target.key
  · rw [h.target_eq he]
    simp
  · simp [he]

/-- Both calls of the payer pass exactly if it is a writable signer and the target is
writable. -/
theorem payer_privileged (h : ctx.Adoptable target payer systemProgram signerSeeds) {dest : Bool}
    {seeds : List (List (List UInt8))}
    (hseeds : seeds = [signerSeeds] ∨ seeds = [] ∧ dest = false) :
    [AccountMeta.writable payer.key true, .writable target.key dest].all
        (privileged [payer, target, systemProgram] (seeds.filterMap fun s =>
          ctx.derivation.createProgramAddress s ctx.programId)) = true ↔
      (payer.isSigner = true ∧ payer.isWritable = true) ∧ target.isWritable = true := by
  have hskip : ([payer, target, systemProgram].any fun a => a.key == target.key && a.isWritable) =
      target.isWritable := by
    rw [List.any_cons, beq_eq_false_iff_ne.mpr h.payer_ne, Bool.false_and, Bool.false_or]
    exact h.any_target AccountInfo.isWritable
  have hpayer := h.any_payer AccountInfo.isSigner
  have hpayer' := h.any_payer AccountInfo.isWritable
  have hne := h.payer_ne
  rcases hseeds with rfl | ⟨rfl, rfl⟩
  · simp [privileged, AccountMeta.writable, h.seeds_eq, hskip, hpayer, hpayer', hne]
  · simp [privileged, AccountMeta.writable, hskip, hpayer, hpayer']

theorem target_privileged (h : ctx.Adoptable target payer systemProgram signerSeeds) :
    [AccountMeta.writable target.key true].all
        (privileged [target, systemProgram] ([signerSeeds].filterMap fun s =>
          ctx.derivation.createProgramAddress s ctx.programId)) = true ↔
      target.isWritable = true := by
  have hwritable := h.any_target AccountInfo.isWritable
  simp [privileged, AccountMeta.writable, h.seeds_eq, hwritable]

end Context.Adoptable

theorem processCreateAccount_eq_ok {source dest : Pubkey} {x : UInt64} (hne : source ≠ dest)
    (hzero : (b.account dest).lamports = 0) :
    SystemInstruction.processCreateAccount b source dest x space owner = .ok b' ↔
      (b.Free dest ∧ space ≤ SystemInstruction.maxPermittedDataLength) ∧ b.Covers source x ∧
        b' = (b.set source { b.account source with
          lamports := (b.account source).lamports - x }).set dest
            ⟨x, owner, List.replicate space 0⟩ := by
  unfold SystemInstruction.processCreateAccount
  simp only [bind_eq_ok, rejectIf_eq_ok, hzero, gt_iff_lt, UInt64.lt_irrefl, not_false_eq_true,
    true_and, exists_const, SystemInstruction.processAllocate_eq_ok,
    SystemInstruction.processAssign_eq_ok]
  -- the blank account that the transfer finds
  have hcovers : ∀ z, (b.set dest z).Covers source x ↔ b.Covers source x := by
    intro z
    unfold Bank.Covers Bank.Free
    rw [Bank.account_set_of_ne hne]
  constructor
  · rintro ⟨b₁, ⟨hfree, hspace, rfl⟩, b₂, ⟨-, rfl⟩, htransfer⟩
    rw [Bank.account_set_self, Bank.set_set,
      SystemInstruction.processTransfer_eq_ok hne] at htransfer
    obtain ⟨hpay, sum, hsum, rfl⟩ := htransfer
    simp only [Bank.account_set_self, UInt64.toNat_zero, Nat.zero_add, UInt64.toNat_inj] at hsum
    rw [Bank.account_set_self, Bank.account_set_of_ne hne, Bank.set_set_set, ← hsum]
    exact ⟨⟨hfree, hspace⟩, (hcovers _).mp hpay, rfl⟩
  · rintro ⟨⟨hfree, hspace⟩, hpay, rfl⟩
    refine ⟨_, ⟨hfree, hspace, rfl⟩, _, ⟨?_, rfl⟩, ?_⟩
    · rw [Bank.account_set_self]
      exact hfree.1
    · rw [Bank.account_set_self, Bank.set_set, SystemInstruction.processTransfer_eq_ok hne]
      refine ⟨(hcovers _).mpr hpay, x, ?_, ?_⟩
      · rw [Bank.account_set_self]
        exact Nat.zero_add _
      · rw [Bank.account_set_self, Bank.account_set_of_ne hne, Bank.set_set_set]

/-- Allocated and assigned, an address has zero bytes and a new owner. -/
theorem allocate_assign_eq_ok {k : Pubkey} :
    (∃ b₁, SystemInstruction.processAllocate b k space = .ok b₁ ∧
      SystemInstruction.processAssign b₁ k owner = .ok b') ↔
      (b.Free k ∧ space ≤ SystemInstruction.maxPermittedDataLength) ∧
        b' = b.set k ⟨(b.account k).lamports, owner, List.replicate space 0⟩ := by
  simp only [SystemInstruction.processAllocate_eq_ok, SystemInstruction.processAssign_eq_ok]
  constructor
  · rintro ⟨b₁, ⟨hfree, hspace, rfl⟩, -, rfl⟩
    rw [Bank.account_set_self, Bank.set_set]
    exact ⟨⟨hfree, hspace⟩, rfl⟩
  · rintro ⟨⟨hfree, hspace⟩, rfl⟩
    refine ⟨_, ⟨hfree, hspace, rfl⟩, ?_, ?_⟩
    · rw [Bank.account_set_self]
      exact hfree.1
    · rw [Bank.account_set_self, Bank.set_set]

/-- The two calls that make a plain address an account of `owner`. -/
theorem Context.Adoptable.allocate_assign
    (h : ctx.Adoptable target payer systemProgram signerSeeds) :
    (∃ b₁, ctx.invokeSystem b accounts (.allocate target.key space) [target, systemProgram]
        [signerSeeds] = .ok b₁ ∧
      ctx.invokeSystem b₁ accounts (.assign target.key owner) [target, systemProgram]
        [signerSeeds] = .ok b') ↔
      ((∃ a ∈ accounts, a.key = systemProgramId) ∧ target.isWritable = true) ∧
        (b.Free target.key ∧ space ≤ SystemInstruction.maxPermittedDataLength) ∧
        b' = b.set target.key
          ⟨(b.account target.key).lamports, owner, List.replicate space 0⟩ := by
  rw [← allocate_assign_eq_ok]
  simp only [invokeSystem_eq_ok, SystemInstruction.accounts, h.target_privileged,
    ctx.systemProgram.allocate, ctx.systemProgram.assign]
  constructor
  · rintro ⟨b₁, ⟨hcallee, hwritable, halloc⟩, -, -, hassign⟩
    exact ⟨⟨hcallee, hwritable⟩, b₁, halloc, hassign⟩
  · rintro ⟨⟨hcallee, hwritable⟩, b₁, halloc, hassign⟩
    exact ⟨b₁, ⟨hcallee, hwritable, halloc⟩, hcallee, hwritable, hassign⟩

theorem toNat_shortfall {k : Pubkey} {need : UInt64} :
    (b.shortfall k need).toNat = need.toNat - (b.account k).lamports.toNat :=
  toNat_saturatingSub ..

theorem shortfall_of_le {k : Pubkey} {need : UInt64} (h : (b.account k).lamports ≤ need) :
    b.shortfall k need = need - (b.account k).lamports := by
  rw [← UInt64.toNat_inj, toNat_shortfall, UInt64.toNat_sub_of_le _ _ h]

theorem shortfall_of_ge {k : Pubkey} {need : UInt64} (h : need ≤ (b.account k).lamports) :
    b.shortfall k need = 0 := by
  rw [UInt64.le_iff_toNat_le] at h
  rw [← UInt64.toNat_inj, toNat_shortfall, UInt64.toNat_zero, Nat.sub_eq_zero_of_le h]

/-- What is held and what it is short of come to the rent or to what is held, and so to a
word. -/
theorem toNat_add_shortfall {k : Pubkey} {need : UInt64} :
    ((b.account k).lamports + b.shortfall k need).toNat =
      (b.account k).lamports.toNat + (b.shortfall k need).toNat := by
  have hneed := need.toNat_lt
  have hheld := (b.account k).lamports.toNat_lt
  rw [UInt64.toNat_add, toNat_shortfall, Nat.mod_eq_of_lt (by omega)]

/-- Exactly when an account is created, and what is created. -/
theorem createOrAdoptPda_eq_ok (h : ctx.Adoptable target payer systemProgram signerSeeds) :
    Bank.createOrAdoptPda ctx b accounts target payer systemProgram owner space signerSeeds =
        .ok b' ↔
      ((∃ a ∈ accounts, a.key = systemProgramId) ∧ target.isWritable = true) ∧
      (b.Free target.key ∧ space ≤ SystemInstruction.maxPermittedDataLength) ∧
      ((b.account target.key).lamports = 0 ∨
          (b.account target.key).lamports < ctx.minimumBalance space →
        (payer.isSigner = true ∧ payer.isWritable = true) ∧
          b.Covers payer.key (b.shortfall target.key (ctx.minimumBalance space))) ∧
      b' = b.adopted payer.key target.key owner (ctx.minimumBalance space) space := by
  have hne := h.payer_ne
  unfold Bank.createOrAdoptPda
  by_cases hzero : (b.account target.key).lamports = 0
  · have hshort : b.shortfall target.key (ctx.minimumBalance space) =
        ctx.minimumBalance space := by
      rw [shortfall_of_le (hzero ▸ UInt64.zero_le), hzero, UInt64.sub_zero]
    rw [if_pos hzero, invokeSystem_eq_ok, SystemInstruction.accounts,
      h.payer_privileged (.inl rfl), ctx.systemProgram.createAccount,
      processCreateAccount_eq_ok hne hzero]
    unfold Bank.adopted
    rw [hshort, hzero, UInt64.zero_add]
    simp only [true_or, true_imp_iff]
    constructor
    · rintro ⟨hcallee, ⟨hflags, hwritable⟩, hfree, hpay, rfl⟩
      exact ⟨⟨hcallee, hwritable⟩, hfree, ⟨hflags, hpay⟩, rfl⟩
    · rintro ⟨⟨hcallee, hwritable⟩, hfree, ⟨hflags, hpay⟩, rfl⟩
      exact ⟨hcallee, ⟨hflags, hwritable⟩, hfree, hpay, rfl⟩
  · rw [if_neg hzero]
    by_cases hlow : (b.account target.key).lamports < ctx.minimumBalance space
    · have hshort : ctx.minimumBalance space - (b.account target.key).lamports =
          b.shortfall target.key (ctx.minimumBalance space) :=
        (shortfall_of_le (UInt64.le_of_lt hlow)).symm
      have hsum : ∀ sum : UInt64, (b.account target.key).lamports.toNat +
          (b.shortfall target.key (ctx.minimumBalance space)).toNat = sum.toNat ↔
          (b.account target.key).lamports + b.shortfall target.key (ctx.minimumBalance space) =
            sum := by
        intro sum
        rw [← UInt64.toNat_inj, toNat_add_shortfall]
      simp only [if_pos hlow]
      simp only [bind_eq_ok, h.allocate_assign]
      simp only [invokeSystem_eq_ok, SystemInstruction.accounts, ctx.systemProgram.transfer,
        h.payer_privileged (.inr ⟨rfl, rfl⟩), hshort,
        SystemInstruction.processTransfer_eq_ok hne, hsum, exists_eq_left', hlow, or_true,
        true_imp_iff]
      constructor
      · rintro ⟨b₁, ⟨hcallee, ⟨hflags, hwritable⟩, hpay, rfl⟩, -, ⟨hfree, hspace⟩, rfl⟩
        unfold Bank.Free at hfree
        rw [Bank.account_set_self] at hfree
        rw [Bank.account_set_self, Bank.set_set]
        exact ⟨⟨hcallee, hwritable⟩, ⟨hfree, hspace⟩, ⟨hflags, hpay⟩, rfl⟩
      · rintro ⟨⟨hcallee, hwritable⟩, ⟨hfree, hspace⟩, ⟨hflags, hpay⟩, rfl⟩
        refine ⟨_, ⟨hcallee, ⟨hflags, hwritable⟩, hpay, rfl⟩, ⟨hcallee, hwritable⟩,
          ⟨?_, hspace⟩, ?_⟩
        · unfold Bank.Free
          rw [Bank.account_set_self]
          exact hfree
        · rw [Bank.account_set_self, Bank.set_set, Bank.adopted]
    · have hshort : b.shortfall target.key (ctx.minimumBalance space) = 0 :=
        shortfall_of_ge (UInt64.not_lt.mp hlow)
      have hsame : b.adopted payer.key target.key owner (ctx.minimumBalance space) space =
          b.set target.key ⟨(b.account target.key).lamports, owner, List.replicate space 0⟩ := by
        unfold Bank.adopted
        rw [hshort, UInt64.sub_zero, UInt64.add_zero, Bank.set_account]
      simp only [if_neg hlow]
      simp only [ok_bind, bind_eq_ok, h.allocate_assign, hsame, hzero, hlow, or_self,
        false_imp_iff, true_and]

/-! ## Sent beforehand -/

/-- What the creation leaves: rent paid for zero bytes of the owner, what the payer and the
address held between them, and every other account. -/
structure Bank.Created (b : Bank) (payer target owner : Pubkey) (need : UInt64) (space : Nat)
    (b' : Bank) : Prop where
  owner_eq : (b'.account target).owner = owner
  data_eq : (b'.account target).data = List.replicate space 0
  rent : need ≤ (b'.account target).lamports
  conserved : (b'.account payer).lamports.toNat + (b'.account target).lamports.toNat =
    (b.account payer).lamports.toNat + (b.account target).lamports.toNat
  payer_eq : (b'.account payer).owner = (b.account payer).owner ∧
    (b'.account payer).data = (b.account payer).data
  others : ∀ k, k ≠ payer → k ≠ target → b'.account k = b.account k

/-- Who pays covers what the address is short of. -/
theorem toNat_shortfall_le {source dest : Pubkey} {need : UInt64}
    (h : (b.account dest).lamports = 0 ∨ (b.account dest).lamports < need →
      b.Covers source (b.shortfall dest need)) :
    (b.shortfall dest need).toNat ≤ (b.account source).lamports.toNat := by
  by_cases hlow : (b.account dest).lamports < need
  · exact UInt64.le_iff_toNat_le.mp (h (.inr hlow)).2
  · rw [UInt64.not_lt, UInt64.le_iff_toNat_le] at hlow
    rw [toNat_shortfall]
    omega

theorem Bank.adopted_payer {source dest : Pubkey} {need : UInt64} (hne : source ≠ dest)
    (hpay : (b.shortfall dest need).toNat ≤ (b.account source).lamports.toNat) :
    ((b.adopted source dest owner need space).account source).lamports.toNat =
      (b.account source).lamports.toNat - (b.shortfall dest need).toNat := by
  rw [adopted, account_set_of_ne hne, account_set_self]
  exact UInt64.toNat_sub_of_le _ _ (UInt64.le_iff_toNat_le.mpr hpay)

theorem Bank.adopted_created {need : UInt64} {source dest : Pubkey} (hne : source ≠ dest)
    (hpay : (b.shortfall dest need).toNat ≤ (b.account source).lamports.toNat) :
    b.Created source dest owner need space (b.adopted source dest owner need space) := by
  have hshort : (b.shortfall dest need).toNat = need.toNat - (b.account dest).lamports.toNat :=
    toNat_shortfall
  constructor
  · rw [adopted, account_set_self]
  · rw [adopted, account_set_self]
  · rw [adopted, account_set_self, UInt64.le_iff_toNat_le, toNat_add_shortfall, hshort]
    omega
  · rw [adopted_payer hne hpay, adopted, account_set_self, toNat_add_shortfall]
    omega
  · rw [adopted, account_set_of_ne hne, account_set_self]
    exact ⟨rfl, rfl⟩
  · intro k hsource hdest
    rw [adopted, account_set_of_ne hdest, account_set_of_ne hsource]

theorem createOrAdoptPda_created (h : ctx.Adoptable target payer systemProgram signerSeeds)
    (hb : Bank.createOrAdoptPda ctx b accounts target payer systemProgram owner space
      signerSeeds = .ok b') :
    b.Created payer.key target.key owner (ctx.minimumBalance space) space b' := by
  obtain ⟨-, -, hpay, rfl⟩ := (createOrAdoptPda_eq_ok h).mp hb
  exact Bank.adopted_created h.payer_ne (toNat_shortfall_le fun hlow => (hpay hlow).2)

/-- Lamports sent to the address beforehand neither keep the account from being created nor
make it dearer. -/
theorem prefunding_harmless {gift : UInt64}
    (h : ctx.Adoptable target payer systemProgram signerSeeds)
    (hgift : (b.account target.key).lamports.toNat + gift.toNat < 2 ^ 64)
    (hb : Bank.createOrAdoptPda ctx b accounts target payer systemProgram owner space
      signerSeeds = .ok b') :
    ∃ b'', Bank.createOrAdoptPda ctx (b.set target.key
        { b.account target.key with lamports := (b.account target.key).lamports + gift })
        accounts target payer systemProgram owner space signerSeeds = .ok b'' ∧
      (b.set target.key { b.account target.key with
        lamports := (b.account target.key).lamports + gift }).Created payer.key target.key owner
          (ctx.minimumBalance space) space b'' ∧
      (b'.account payer.key).lamports ≤ (b''.account payer.key).lamports := by
  have hne := h.payer_ne
  obtain ⟨hcalls, ⟨hfree, hspace⟩, hpay, hb'⟩ := (createOrAdoptPda_eq_ok h).mp hb
  generalize hsent : b.set target.key { b.account target.key with
    lamports := (b.account target.key).lamports + gift } = c
  have htarget : c.account target.key = { b.account target.key with
      lamports := (b.account target.key).lamports + gift } := by
    rw [← hsent, Bank.account_set_self]
  have hpayer : c.account payer.key = b.account payer.key := by
    rw [← hsent, Bank.account_set_of_ne hne]
  have hlamports : (c.account target.key).lamports.toNat =
      (b.account target.key).lamports.toNat + gift.toNat := by
    rw [htarget, UInt64.toNat_add, Nat.mod_eq_of_lt hgift]
  have hshort : (c.shortfall target.key (ctx.minimumBalance space)).toNat ≤
      (b.shortfall target.key (ctx.minimumBalance space)).toNat := by
    rw [toNat_shortfall, toNat_shortfall, hlamports]
    omega
  -- who could pay before can pay now
  have hcovers : (c.account target.key).lamports = 0 ∨
      (c.account target.key).lamports < ctx.minimumBalance space →
      (payer.isSigner = true ∧ payer.isWritable = true) ∧
        c.Covers payer.key (c.shortfall target.key (ctx.minimumBalance space)) := by
    intro hlow
    have hlow' : (b.account target.key).lamports = 0 ∨
        (b.account target.key).lamports < ctx.minimumBalance space := by
      rw [eq_zero_iff, UInt64.lt_iff_toNat_lt] at hlow ⊢
      omega
    obtain ⟨hflags, hfree, hle⟩ := hpay hlow'
    unfold Bank.Covers Bank.Free
    rw [hpayer]
    refine ⟨hflags, hfree, ?_⟩
    rw [UInt64.le_iff_toNat_le] at hle ⊢
    omega
  have hcfree : c.Free target.key := by
    unfold Bank.Free
    rw [htarget]
    exact hfree
  have hc : Bank.createOrAdoptPda ctx c accounts target payer systemProgram owner space
      signerSeeds = .ok (c.adopted payer.key target.key owner (ctx.minimumBalance space) space) :=
    (createOrAdoptPda_eq_ok h).mpr ⟨hcalls, ⟨hcfree, hspace⟩, hcovers, rfl⟩
  refine ⟨_, hc, createOrAdoptPda_created h hc, ?_⟩
  rw [hb', UInt64.le_iff_toNat_le,
    Bank.adopted_payer hne (toNat_shortfall_le fun hlow => (hpay hlow).2),
    Bank.adopted_payer hne (toNat_shortfall_le fun hlow => (hcovers hlow).2), hpayer]
  omega

/-- The users hold what they hold in the world, and every address is a plain one. -/
def Sample.bank : Bank := ⟨fun k => ⟨Sample.lamports k, systemProgramId, []⟩⟩

def Sample.recordPda : AccountInfo := writable (Sample.ctx.depositPda pool (key alice))

def Sample.recordSeeds : List (List UInt8) :=
  [Derivation.stakeDepositSeed, pool.toList, (key alice).toList, [254]]

theorem Sample.record_adoptable :
    Sample.ctx.Adoptable recordPda (signer (key alice)) (readonly systemProgramId) recordSeeds :=
  ⟨by decide +kernel, by decide +kernel, fun e => absurd e (by decide +kernel),
    fun e => absurd e (by decide +kernel)⟩

theorem Sample.record_created :
    Bank.createOrAdoptPda Sample.ctx bank (depositAccounts alice) recordPda (signer (key alice))
      (readonly systemProgramId) Sample.ctx.programId stakeDepositSize recordSeeds =
      .ok (bank.adopted (key alice) recordPda.key Sample.ctx.programId 1 stakeDepositSize) :=
  (createOrAdoptPda_eq_ok record_adoptable).mpr
    ⟨⟨by decide +kernel, rfl⟩, by decide +kernel, by decide +kernel, rfl⟩

/-- One lamport sent to the address of the record. -/
theorem Sample.prefunding_harmless_dust : ∃ b'',
    Bank.createOrAdoptPda Sample.ctx (bank.set recordPda.key
      { bank.account recordPda.key with lamports := (bank.account recordPda.key).lamports + 1 })
      (depositAccounts alice) recordPda (signer (key alice)) (readonly systemProgramId)
      Sample.ctx.programId stakeDepositSize recordSeeds = .ok b'' ∧
    999 ≤ (b''.account (key alice)).lamports := by
  have hgift : (bank.account recordPda.key).lamports.toNat + UInt64.toNat 1 < 2 ^ 64 := by
    decide +kernel
  obtain ⟨b'', hb, -, hle⟩ := prefunding_harmless record_adoptable hgift record_created
  refine ⟨b'', hb, UInt64.le_trans ?_ hle⟩
  decide +kernel

/-! ## The creation of the other modules -/

/-- The records an account is created for. -/
inductive AccountData.Blank : AccountData → Prop
  | pool : Blank (.pool .zeroed)
  | deposit : Blank (.deposit .zeroed)

/-- Zero bytes read as the zeroed record. -/
theorem AccountData.Blank.holds {x : AccountData} (h : x.Blank) :
    x.Holds (List.replicate x.len 0) := by
  cases h with
  | pool =>
    have hzero : List.replicate stakePoolSize 0 = StoredPool.pod.encode
        ⟨.zeroed, Vector.replicate 4 0, Vector.replicate 7 0⟩ := by decide +kernel
    show AccountData.Holds (List.replicate stakePoolSize 0) _
    rw [hzero]
    exact AccountData.holds_pool _
  | deposit =>
    have hzero : List.replicate stakeDepositSize 0 = StoredDeposit.pod.encode
        ⟨.zeroed, Vector.replicate 6 0⟩ := by decide +kernel
    show AccountData.Holds (List.replicate stakeDepositSize 0) _
    rw [hzero]
    exact AccountData.holds_deposit _

theorem AccountData.Holds.eq_empty_iff {data : List UInt8} {x : AccountData} (h : x.Holds data) :
    x = .empty ↔ data = [] := by
  cases x with
  | empty => exact ⟨fun _ => h, fun _ => rfl⟩
  | pool p =>
    refine ⟨fun e => (by cases e), ?_⟩
    rintro rfl
    cases h.1
  | deposit d =>
    refine ⟨fun e => (by cases e), ?_⟩
    rintro rfl
    cases h.1
  | _ => exact h.elim

/-- The account at `k` is the one the world has there. -/
structure Bank.Matches (b : Bank) (w : World) (k : Pubkey) : Prop where
  owner_eq : (b.account k).owner = (w.account k).owner
  holds : (w.account k).data.Holds (b.account k).data
  lamports_eq : (b.account k).lamports = w.lamports k

theorem Bank.Matches.free_iff {w : World} {k : Pubkey} (h : b.Matches w k) :
    b.Free k ↔ w.account k = ⟨systemProgramId, .empty⟩ := by
  unfold Bank.Free
  rw [h.owner_eq, ← h.holds.eq_empty_iff]
  cases w.account k
  exact Account.mk.injEq .. ▸ Iff.rfl

/-- The rent that the one creation finds paid, the other finds. -/
theorem Bank.Matches.fundsRent_iff {w : World} (htarget : b.Matches w target.key)
    (hpayer : b.Matches w payer.key) : ctx.FundsRent w target payer space ↔
      ((b.account target.key).lamports = 0 ∨
          (b.account target.key).lamports < ctx.minimumBalance space →
        (payer.isSigner = true ∧ payer.isWritable = true) ∧
          b.Covers payer.key (b.shortfall target.key (ctx.minimumBalance space))) := by
  unfold Context.FundsRent Bank.Covers
  simp only [hpayer.free_iff, UInt64.le_iff_toNat_le, toNat_shortfall, htarget.lamports_eq,
    hpayer.lamports_eq, eq_zero_iff, UInt64.lt_iff_toNat_lt, UInt64.toNat_zero]
  constructor
  · rintro (hheld | ⟨hflags, hplain, hcovers⟩) hlow
    · omega
    · exact ⟨hflags, hplain, by omega⟩
  · intro h
    by_cases hlow : (w.lamports target.key).toNat = 0 ∨
        (w.lamports target.key).toNat < (ctx.minimumBalance space).toNat
    · obtain ⟨hflags, hplain, hcovers⟩ := h hlow
      exact .inr ⟨hflags, hplain, by omega⟩
    · exact .inl (by omega)

/-- The one creation moves the lamports that the other moves. -/
theorem payShortfall_adopted {w w' : World} {k : Pubkey} (hne : payer.key ≠ target.key)
    (htarget : b.Matches w target.key) (hpayer : b.Matches w payer.key)
    (h : ctx.payShortfall w target payer space = .ok w')
    (hk : (b.account k).lamports = w.lamports k) :
    ((b.adopted payer.key target.key owner (ctx.minimumBalance space) space).account k).lamports =
      w'.lamports k := by
  rw [Context.payShortfall_eq_ok] at h
  unfold Bank.adopted
  by_cases hlow : w.lamports target.key = 0 ∨
      w.lamports target.key < ctx.minimumBalance space
  · rw [if_pos hlow] at h
    obtain ⟨-, rest, sum, hrest, hsum, rfl⟩ := World.pay_eq_ok.mp h.2
    have hle : (b.account target.key).lamports ≤ ctx.minimumBalance space := by
      rw [htarget.lamports_eq, UInt64.le_iff_toNat_le]
      rw [eq_zero_iff, UInt64.lt_iff_toNat_lt] at hlow
      omega
    rw [← htarget.lamports_eq, ← shortfall_of_le hle] at hrest hsum
    rw [Function.update_of_ne hne.symm, ← htarget.lamports_eq, ← toNat_add_shortfall,
      UInt64.toNat_inj] at hsum
    show _ = Function.update (Function.update w.lamports payer.key rest) target.key sum k
    by_cases hkt : k = target.key
    · rw [hkt, Bank.account_set_self, Function.update_self]
      exact hsum.symm
    · rw [Bank.account_set_of_ne hkt, Function.update_of_ne hkt]
      by_cases hkp : k = payer.key
      · rw [hkp, Bank.account_set_self, Function.update_self, ← UInt64.toNat_inj,
          UInt64.toNat_sub_of_le, hpayer.lamports_eq]
        · omega
        · rw [UInt64.le_iff_toNat_le, hpayer.lamports_eq]
          omega
      · rw [Bank.account_set_of_ne hkp, Function.update_of_ne hkp]
        exact hk
  · rw [if_neg hlow] at h
    have hge : ctx.minimumBalance space ≤ (b.account target.key).lamports := by
      rw [htarget.lamports_eq]
      exact UInt64.not_lt.mp fun e => hlow (.inr e)
    rw [h, shortfall_of_ge hge, UInt64.sub_zero, UInt64.add_zero, Bank.set_account]
    by_cases hkt : k = target.key
    · rw [hkt, Bank.account_set_self]
      exact htarget.lamports_eq
    · rw [Bank.account_set_of_ne hkt]
      exact hk

/-- The creation by the system program is the one write of the other modules: it goes through
on the same calls, and afterwards the accounts match that matched before, the new one among
them, lamports and all. -/
theorem create_or_adopt_refines {w : World} {blank : AccountData}
    (h : ctx.Adoptable target payer systemProgram signerSeeds) (hblank : blank.Blank)
    (htarget : b.Matches w target.key) (hpayer : b.Matches w payer.key) :
    ((∃ b', Bank.createOrAdoptPda ctx b accounts target payer systemProgram ctx.programId
        blank.len signerSeeds = .ok b') ↔
      ∃ w', ctx.createOrAdoptPda w accounts target payer blank signerSeeds = .ok w') ∧
    ∀ b' w', Bank.createOrAdoptPda ctx b accounts target payer systemProgram ctx.programId
        blank.len signerSeeds = .ok b' →
      ctx.createOrAdoptPda w accounts target payer blank signerSeeds = .ok w' →
      b'.Matches w' target.key ∧ ∀ k, b.Matches w k → b'.Matches w' k := by
  have hspace : blank.len ≤ SystemInstruction.maxPermittedDataLength := by
    cases hblank <;> decide
  constructor
  · simp only [createOrAdoptPda_eq_ok h, Context.createOrAdoptPda_ok_iff, h.seeds_eq, hspace,
      htarget.free_iff, htarget.fundsRent_iff hpayer, and_true, true_and, exists_and_left,
      exists_eq, and_assoc]
  · intro b' w' hb hw
    obtain ⟨-, -, -, w₁, hpaid, rfl⟩ := Context.createOrAdoptPda_eq_ok.mp hw
    obtain ⟨-, -, -, hb'⟩ := (createOrAdoptPda_eq_ok h).mp hb
    have hcreated := createOrAdoptPda_created h hb
    obtain ⟨l, hw₁⟩ := Context.payShortfall_lamports hpaid
    have hlamports : ∀ k, (b.account k).lamports = w.lamports k →
        (b'.account k).lamports = w₁.lamports k := by
      intro k hk
      rw [hb']
      exact payShortfall_adopted h.payer_ne htarget hpayer hpaid hk
    have hnew : b'.Matches (w₁.set target.key ⟨ctx.programId, blank⟩) target.key := by
      refine ⟨?_, ?_, hlamports _ htarget.lamports_eq⟩
      · rw [hcreated.owner_eq, World.account_set_self]
      · rw [hcreated.data_eq, World.account_set_self]
        exact hblank.holds
    refine ⟨hnew, fun k hk => ?_⟩
    by_cases hkt : k = target.key
    · rw [hkt]
      exact hnew
    · have hsame : (b'.account k).owner = (b.account k).owner ∧
          (b'.account k).data = (b.account k).data := by
        by_cases hkp : k = payer.key
        · rw [hkp]
          exact hcreated.payer_eq
        · rw [hcreated.others k hkp hkt]
          exact ⟨rfl, rfl⟩
      refine ⟨?_, ?_, hlamports k hk.lamports_eq⟩
      · rw [hsame.1, World.account_set_of_ne hkt, hw₁]
        exact hk.owner_eq
      · rw [hsame.2, World.account_set_of_ne hkt, hw₁]
        exact hk.holds

theorem Sample.create_or_adopt_refines_record :
    ∃ w', Sample.ctx.createOrAdoptPda world (depositAccounts alice) recordPda (signer (key alice))
      (.deposit .zeroed) recordSeeds = .ok w' ∧
      (bank.adopted (key alice) recordPda.key Sample.ctx.programId 1 stakeDepositSize).Matches w'
        recordPda.key := by
  have hplain : world.account recordPda.key = ⟨systemProgramId, .empty⟩ ∧
      world.account (key alice) = ⟨systemProgramId, .empty⟩ := by decide +kernel
  have hmatch : ∀ k, world.account k = ⟨systemProgramId, .empty⟩ → bank.Matches world k := by
    intro k hk
    refine ⟨?_, ?_, rfl⟩
    · rw [hk]
      rfl
    · rw [hk]
      rfl
  obtain ⟨hiff, hafter⟩ :=
    create_or_adopt_refines record_adoptable .deposit (hmatch _ hplain.1) (hmatch _ hplain.2)
  obtain ⟨w', hw'⟩ := hiff.mp ⟨_, record_created⟩
  exact ⟨w', hw', (hafter _ _ record_created hw').1⟩

end

end PercolatorStake
