import PercolatorStake.Outside

/-!
# Cross-program invocation

An invocation runs another program on the same world.  The host first checks that
the caller passes on no signature and no write access it does not hold, where the
seeds of a program-derived address count as its signature.
-/

namespace PercolatorStake

open Bytes Result Word

/-- What is fixed over a run: how addresses derive, the program's own address, and the
programs outside the repository. -/
structure Context where
  derivation : Derivation
  programId : Pubkey
  tokenProgram : TokenProgram
  wrapper : Wrapper
  systemProgram : SystemProgram
  /-- The lamports that an account of a size has to hold. -/
  minimumBalance : Nat → UInt64

namespace Context

variable (ctx : Context)

/-- Whether the caller, holding `infos` and signing for `signers`, may pass on
what `m` asks for. -/
def privileged (infos : List AccountInfo) (signers : List Pubkey) (m : AccountMeta) : Bool :=
  (!m.isSigner || signers.contains m.pubkey ||
      infos.any fun a => a.key == m.pubkey && a.isSigner) &&
    (!m.isWritable || infos.any fun a => a.key == m.pubkey && a.isWritable)

def invokeSigned (w : World) (ix : Instruction) (infos : List AccountInfo)
    (seeds : List (List (List UInt8))) : Except ProgramError World := do
  let signers := seeds.filterMap fun s => ctx.derivation.createProgramAddress s ctx.programId
  rejectIf (ix.accounts.all (privileged infos signers) = false) ProgramError.privilegeEscalation
  if ix.programId = splTokenId then ctx.tokenProgram.process w ix
  else ctx.wrapper.process w ix

def invoke (w : World) (ix : Instruction) (infos : List AccountInfo) :
    Except ProgramError World :=
  ctx.invokeSigned w ix infos []

/-- The payer makes up what the address is short of for an account of `space` bytes. -/
def payShortfall (w : World) (target payer : AccountInfo) (space : Nat) :
    Except ProgramError World :=
  let need := ctx.minimumBalance space
  let held := w.lamports target.key
  if held = 0 ∨ held < need then do
    rejectIf (payer.isSigner = false ∨ payer.isWritable = false) ProgramError.privilegeEscalation
    w.pay payer.key target.key (need - held)
  else .ok w

/-- Create a program-owned account at a derived address that holds no data yet.  Whether
the account is created or adopted, the outcome is one zero-filled account of this program,
with its rent paid.  It is the system program that is called, so the accounts of the
instruction have to name it. -/
def createOrAdoptPda (w : World) (accounts : List AccountInfo) (target payer : AccountInfo)
    (blank : AccountData) (seeds : List (List UInt8)) : Except ProgramError World := do
  rejectIf (accounts.all (·.key ≠ systemProgramId) = true) ProgramError.invocationFailed
  rejectIf (ctx.derivation.createProgramAddress seeds ctx.programId ≠ some target.key ∨
    target.isWritable = false) ProgramError.privilegeEscalation
  rejectIf (w.account target.key ≠ ⟨systemProgramId, .empty⟩) ProgramError.invocationFailed
  let w ← ctx.payShortfall w target payer blank.len
  .ok (w.set target.key ⟨ctx.programId, blank⟩)

/-- What the payer owes for an account of `space` bytes at `target` it can pay. -/
def FundsRent (w : World) (target payer : AccountInfo) (space : Nat) : Prop :=
  0 < w.lamports target.key ∧ ctx.minimumBalance space ≤ w.lamports target.key ∨
    (payer.isSigner = true ∧ payer.isWritable = true) ∧
      w.account payer.key = ⟨systemProgramId, .empty⟩ ∧
      (ctx.minimumBalance space).toNat ≤
        (w.lamports target.key).toNat + (w.lamports payer.key).toNat

/-! ## What an invocation does -/

section

variable {ctx}

theorem invokeSigned_eq_ok {w w' : World} {ix : Instruction} {infos : List AccountInfo}
    {seeds : List (List (List UInt8))} :
    ctx.invokeSigned w ix infos seeds = .ok w' ↔
      (ix.accounts.all (privileged infos (seeds.filterMap fun s =>
        ctx.derivation.createProgramAddress s ctx.programId)) = true) ∧
      (if ix.programId = splTokenId then ctx.tokenProgram.process w ix
        else ctx.wrapper.process w ix) = .ok w' := by
  unfold invokeSigned
  simp only [bind_eq_ok, rejectIf_eq_ok, Bool.not_eq_false]
  constructor
  · rintro ⟨-, h⟩
    exact h
  · intro h
    exact ⟨(), h⟩

theorem process_of_invokeSigned {w w' : World} {ix : Instruction} {infos : List AccountInfo}
    {seeds : List (List (List UInt8))} (hid : ix.programId = splTokenId)
    (h : ctx.invokeSigned w ix infos seeds = .ok w') : ctx.tokenProgram.process w ix = .ok w' := by
  have hp := (invokeSigned_eq_ok.mp h).2
  rwa [if_pos hid] at hp

/-- What is meant for the wrapper goes to the wrapper. -/
theorem wrapper_of_invokeSigned {w w' : World} {ix : Instruction} {infos : List AccountInfo}
    {seeds : List (List (List UInt8))} (hsent : Cpi.Sent ix)
    (h : ctx.invokeSigned w ix infos seeds = .ok w') : ctx.wrapper.process w ix = .ok w' := by
  have hp := (invokeSigned_eq_ok.mp h).2
  by_cases hid : ix.programId = splTokenId
  · rw [if_pos hid] at hp
    exact (ctx.tokenProgram.rejects hsent hp).elim
  · rwa [if_neg hid] at hp

section Invoked

variable {w w' : World} {infos : List AccountInfo} {seeds : List (List (List UInt8))}
  {amount : UInt64}

theorem transfer_of_invokeSigned {source dest authority : Pubkey}
    (h : ctx.invokeSigned w (SplToken.transfer source dest authority amount) infos seeds = .ok w') :
    SplToken.processTransfer w source dest authority amount = .ok w' :=
  ctx.tokenProgram.transfer.mp (process_of_invokeSigned rfl h)

theorem mintTo_of_invokeSigned {mint dest authority : Pubkey}
    (h : ctx.invokeSigned w (SplToken.mintTo mint dest authority amount) infos seeds = .ok w') :
    SplToken.processMintTo w mint dest authority amount = .ok w' :=
  ctx.tokenProgram.mintTo.mp (process_of_invokeSigned rfl h)

theorem burn_of_invokeSigned {account mint authority : Pubkey}
    (h : ctx.invokeSigned w (SplToken.burn account mint authority amount) infos seeds = .ok w') :
    SplToken.processBurn w account mint authority amount = .ok w' :=
  ctx.tokenProgram.burn.mp (process_of_invokeSigned rfl h)

theorem initializeMint_of_invokeSigned {mint authority : Pubkey} {decimals : UInt8}
    (h : ctx.invokeSigned w (SplToken.initializeMint mint authority none decimals) infos seeds =
      .ok w') :
    SplToken.processInitializeMint w mint authority.toList decimals = .ok w' :=
  ctx.tokenProgram.initializeMint.mp (process_of_invokeSigned rfl h)

theorem initializeAccount_of_invokeSigned {account mint owner : Pubkey}
    (h : ctx.invokeSigned w (SplToken.initializeAccount account mint owner) infos seeds =
      .ok w') :
    SplToken.processInitializeAccount w account mint owner = .ok w' :=
  ctx.tokenProgram.initializeAccount.mp (process_of_invokeSigned rfl h)

theorem topUp_of_invokeSigned {program signer slab source dest tokenProgram : Pubkey}
    (h : ctx.invokeSigned w (Cpi.topUpInsurance program signer slab source dest tokenProgram
      amount) infos seeds = .ok w') :
    ctx.wrapper.accepts w
        (Cpi.topUpInsurance program signer slab source dest tokenProgram amount) = true ∧
      source ≠ dest ∧ SplToken.processTransfer w source dest signer amount = .ok w' :=
  ctx.wrapper.topUpInsurance.mp (wrapper_of_invokeSigned (.topUpInsurance ..) h)

theorem withdraw_of_invokeSigned {program signer market dest source wrapperVaultAuth
    tokenProgram : Pubkey}
    (h : ctx.invokeSigned w (Cpi.withdrawInsuranceAsset program signer market dest source
      wrapperVaultAuth tokenProgram amount) infos seeds = .ok w') :
    ctx.wrapper.accepts w (Cpi.withdrawInsuranceAsset program signer market dest source
        wrapperVaultAuth tokenProgram amount) = true ∧
      source ≠ dest ∧ SplToken.moveTokens w source dest amount = .ok w' :=
  ctx.wrapper.withdrawInsuranceAsset.mp (wrapper_of_invokeSigned (.withdrawInsuranceAsset ..) h)

/-- Every other instruction leaves the tokens where they are. -/
theorem world_of_invokeSigned {ix : Instruction} (hix : Cpi.Administrative ix)
    (h : ctx.invokeSigned w ix infos seeds = .ok w') : w' = w :=
  ((ctx.wrapper.administrative hix).mp (wrapper_of_invokeSigned (.administrative hix) h)).2

/-- What the caller may pass on is up to the wrapper. -/
theorem invokeSigned_wrapper {ix : Instruction} (hid : ix.programId ≠ splTokenId)
    (hprivileged : ix.accounts.all (privileged infos (seeds.filterMap fun s =>
      ctx.derivation.createProgramAddress s ctx.programId)) = true) :
    ctx.invokeSigned w ix infos seeds = .ok w' ↔ ctx.wrapper.process w ix = .ok w' := by
  rw [invokeSigned_eq_ok, if_neg hid]
  exact and_iff_right hprivileged

end Invoked

/-- What a caller needs to send a transfer, a mint or a burn: write access to both
accounts and the signature of the authority. -/
structure Authorized (ctx : Context) (infos : List AccountInfo) (seeds : List (List (List UInt8)))
    (x y : AccountInfo) (authority : Pubkey) : Prop where
  left_writable : x ∈ infos ∧ x.isWritable = true
  right_writable : y ∈ infos ∧ y.isWritable = true
  signed : (∃ z ∈ infos, z.key = authority ∧ z.isSigner = true) ∨
    ∃ s ∈ seeds, ctx.derivation.createProgramAddress s ctx.programId = some authority

section Authorized

variable {w w' : World} {tag : UInt8} {x y : AccountInfo} {authority : Pubkey} {amount : UInt64}
  {infos : List AccountInfo} {seeds : List (List (List UInt8))}

theorem Authorized.invokeSigned_eq (h : ctx.Authorized infos seeds x y authority) :
    ctx.invokeSigned w (SplToken.amountInstruction tag x.key y.key authority amount) infos seeds =
      ctx.tokenProgram.process w
        (SplToken.amountInstruction tag x.key y.key authority amount) := by
  have hwrite : ∀ z : AccountInfo, z ∈ infos ∧ z.isWritable = true →
      (infos.any fun a => a.key == z.key && a.isWritable) = true := by
    intro z hz
    exact List.any_eq_true.mpr ⟨z, hz.1, by rw [hz.2, beq_self_eq_true]; rfl⟩
  have hauth : ((seeds.filterMap fun s =>
      ctx.derivation.createProgramAddress s ctx.programId).contains authority ||
      infos.any fun a => a.key == authority && a.isSigner) = true := by
    rw [Bool.or_eq_true]
    rcases h.signed with ⟨z, hz, hk, hs⟩ | ⟨s, hs, hc⟩
    · exact .inr (List.any_eq_true.mpr ⟨z, hz, by rw [hs, hk, beq_self_eq_true]; rfl⟩)
    · exact .inl (List.contains_iff_mem.mpr (List.mem_filterMap.mpr ⟨s, hs, hc⟩))
  have hall : (SplToken.amountInstruction tag x.key y.key authority amount).accounts.all
      (privileged infos (seeds.filterMap fun s =>
        ctx.derivation.createProgramAddress s ctx.programId)) = true := by
    simp only [SplToken.amountInstruction, AccountMeta.writable, AccountMeta.readonly,
      List.all_cons, List.all_nil, privileged, hwrite x h.left_writable,
      hwrite y h.right_writable]
    simpa using hauth
  unfold invokeSigned
  simp only [hall, Bool.true_eq_false, rejectIf_neg not_false, ok_bind]
  exact if_pos rfl

theorem Authorized.transfer (h : ctx.Authorized infos seeds x y authority) :
    ctx.invokeSigned w (SplToken.transfer x.key y.key authority amount) infos seeds = .ok w' ↔
      SplToken.processTransfer w x.key y.key authority amount = .ok w' := by
  rw [← ctx.tokenProgram.transfer]
  exact Eq.congr_left h.invokeSigned_eq

theorem Authorized.mintTo (h : ctx.Authorized infos seeds x y authority) :
    ctx.invokeSigned w (SplToken.mintTo x.key y.key authority amount) infos seeds = .ok w' ↔
      SplToken.processMintTo w x.key y.key authority amount = .ok w' := by
  rw [← ctx.tokenProgram.mintTo]
  exact Eq.congr_left h.invokeSigned_eq

theorem Authorized.burn (h : ctx.Authorized infos seeds x y authority) :
    ctx.invokeSigned w (SplToken.burn x.key y.key authority amount) infos seeds = .ok w' ↔
      SplToken.processBurn w x.key y.key authority amount = .ok w' := by
  rw [← ctx.tokenProgram.burn]
  exact Eq.congr_left h.invokeSigned_eq

end Authorized

theorem payShortfall_eq_ok {w w' : World} {target payer : AccountInfo} {space : Nat} :
    ctx.payShortfall w target payer space = .ok w' ↔
      if w.lamports target.key = 0 ∨ w.lamports target.key < ctx.minimumBalance space then
        (payer.isSigner = true ∧ payer.isWritable = true) ∧ w.pay payer.key target.key
          (ctx.minimumBalance space - w.lamports target.key) = .ok w'
      else w' = w := by
  unfold payShortfall
  by_cases hlow : w.lamports target.key = 0 ∨ w.lamports target.key < ctx.minimumBalance space
  · simp only [if_pos hlow, bind_eq_ok, rejectIf_eq_ok, not_or, Bool.not_eq_false, exists_const]
  · simp only [if_neg hlow, ok_eq_ok]
    exact eq_comm

theorem payShortfall_lamports {w w' : World} {target payer : AccountInfo} {space : Nat}
    (h : ctx.payShortfall w target payer space = .ok w') : ∃ l, w' = w.withLamports l := by
  rw [payShortfall_eq_ok] at h
  split at h
  · obtain ⟨-, _, _, -, -, rfl⟩ := World.pay_eq_ok.mp h.2
    exact ⟨_, rfl⟩
  · exact ⟨w.lamports, h⟩

/-- Exactly when the shortfall is made up. -/
theorem payShortfall_ok_iff {w : World} {target payer : AccountInfo} {space : Nat} :
    (∃ w', ctx.payShortfall w target payer space = .ok w') ↔
      ctx.FundsRent w target payer space := by
  simp only [payShortfall_eq_ok]
  unfold FundsRent
  have hneed := (ctx.minimumBalance space).toNat_lt
  by_cases hlow : w.lamports target.key = 0 ∨ w.lamports target.key < ctx.minimumBalance space
  · have hle : w.lamports target.key ≤ ctx.minimumBalance space := by
      rw [UInt64.le_iff_toNat_le]
      rw [eq_zero_iff, UInt64.lt_iff_toNat_lt] at hlow
      omega
    have hdue := UInt64.toNat_sub_of_le _ _ hle
    have hnot : ¬(0 < w.lamports target.key ∧
        ctx.minimumBalance space ≤ w.lamports target.key) := by
      rw [pos_iff, UInt64.le_iff_toNat_le]
      rw [eq_zero_iff, UInt64.lt_iff_toNat_lt] at hlow
      omega
    rw [UInt64.le_iff_toNat_le] at hle
    simp only [if_pos hlow, hnot, false_or, World.pay_eq_ok, hdue]
    constructor
    · rintro ⟨_, hflags, hplain, rest, sum, hrest, -, -⟩
      exact ⟨hflags, hplain, by omega⟩
    · rintro ⟨hflags, hplain, hcovers⟩
      have hpayer := (w.lamports payer.key).toNat_lt
      obtain ⟨rest, hrest⟩ : ∃ rest : UInt64, rest.toNat = (w.lamports payer.key).toNat -
          ((ctx.minimumBalance space).toNat - (w.lamports target.key).toNat) :=
        exists_toNat (by omega)
      -- the target then holds its rent, or what it held if it pays itself
      obtain ⟨sum, hsum⟩ : ∃ sum : UInt64, sum.toNat =
          (Function.update w.lamports payer.key rest target.key).toNat +
            ((ctx.minimumBalance space).toNat - (w.lamports target.key).toNat) := by
        refine exists_toNat ?_
        by_cases he : target.key = payer.key
        · rw [he, Function.update_self, hrest]
          rw [he] at hcovers
          omega
        · rw [Function.update_of_ne he]
          omega
      exact ⟨_, hflags, hplain, rest, sum, by omega, hsum, rfl⟩
  · have hpos : 0 < w.lamports target.key ∧
        ctx.minimumBalance space ≤ w.lamports target.key := by
      rw [pos_iff, UInt64.le_iff_toNat_le]
      rw [eq_zero_iff, UInt64.lt_iff_toNat_lt] at hlow
      omega
    simp only [if_neg hlow, exists_eq, true_iff]
    exact .inl hpos

/-- The stages of a creation. -/
theorem createOrAdoptPda_eq_ok {w w' : World} {accounts : List AccountInfo}
    {target payer : AccountInfo} {blank : AccountData} {seeds : List (List UInt8)} :
    ctx.createOrAdoptPda w accounts target payer blank seeds = .ok w' ↔
      (∃ a ∈ accounts, a.key = systemProgramId) ∧
      (ctx.derivation.createProgramAddress seeds ctx.programId = some target.key ∧
        target.isWritable = true) ∧
      w.account target.key = ⟨systemProgramId, .empty⟩ ∧
      ∃ w₁, ctx.payShortfall w target payer blank.len = .ok w₁ ∧
        w' = w₁.set target.key ⟨ctx.programId, blank⟩ := by
  unfold createOrAdoptPda
  simp only [bind_eq_ok, rejectIf_eq_ok, ok_eq_ok, not_or, not_not, Bool.not_eq_false,
    Bool.not_eq_true, List.all_eq_false, decide_eq_true_eq]
  constructor
  · rintro ⟨-, hcallee, -, hauth, -, hempty, w₁, hw₁, e⟩
    exact ⟨hcallee, hauth, hempty, w₁, hw₁, e.symm⟩
  · rintro ⟨hcallee, hauth, hempty, w₁, hw₁, e⟩
    exact ⟨(), hcallee, (), hauth, (), hempty, w₁, hw₁, e.symm⟩

/-- A creation writes one account, and moves lamports. -/
theorem createOrAdoptPda_writes {w w' : World} {accounts : List AccountInfo}
    {target payer : AccountInfo} {blank : AccountData} {seeds : List (List UInt8)}
    (h : ctx.createOrAdoptPda w accounts target payer blank seeds = .ok w') :
    w.account target.key = ⟨systemProgramId, .empty⟩ ∧
      ∃ l, w' = (w.withLamports l).set target.key ⟨ctx.programId, blank⟩ := by
  obtain ⟨-, -, hempty, w₁, hpaid, rfl⟩ := createOrAdoptPda_eq_ok.mp h
  obtain ⟨l, rfl⟩ := payShortfall_lamports hpaid
  exact ⟨hempty, l, rfl⟩

/-- Exactly when an account is created. -/
theorem createOrAdoptPda_ok_iff {w : World} {accounts : List AccountInfo}
    {target payer : AccountInfo} {blank : AccountData} {seeds : List (List UInt8)} :
    (∃ w', ctx.createOrAdoptPda w accounts target payer blank seeds = .ok w') ↔
      (∃ a ∈ accounts, a.key = systemProgramId) ∧
      (ctx.derivation.createProgramAddress seeds ctx.programId = some target.key ∧
        target.isWritable = true) ∧
      w.account target.key = ⟨systemProgramId, .empty⟩ ∧
      ctx.FundsRent w target payer blank.len := by
  rw [← payShortfall_ok_iff]
  simp only [createOrAdoptPda_eq_ok, exists_and_left]
  refine and_congr_right fun _ => and_congr_right fun _ => and_congr_right fun _ => ?_
  constructor
  · rintro ⟨_, w₁, hw₁, -⟩
    exact ⟨w₁, hw₁⟩
  · rintro ⟨w₁, hw₁⟩
    exact ⟨_, w₁, hw₁, rfl⟩

end

end Context

end PercolatorStake
