import PercolatorStake.Configuration

/-!
# Who runs a pool

Deposits, withdrawals, accruals and recoveries are open.  Everything else is the admin's,
and the office of the admin changes hands in two steps: the admin in office proposes a
successor, and the successor accepts.
-/

namespace PercolatorStake

open Result Word

/-- The key that has to sign an instruction on a pool with the settings `s`. -/
def StakeInstruction.authority (s : Settings) : StakeInstruction → Option Pubkey
  | .initPool .. | .initTradingPool .. | .deposit _ | .depositJunior _ | .withdraw _
  | .accrueFees | .recoverFlushedInsurance _ => none
  | .acceptAdmin => some s.pendingAdmin
  | _ => some s.admin

namespace Event

def SignedBy (K : Pubkey) : Event → Prop
  | .instruction _ accounts => ∃ a ∈ accounts, a.isSigner = true ∧ a.key = K
  | .outside _ => False

instance {K : Pubkey} : ∀ e : Event, Decidable (e.SignedBy K)
  | .instruction _ accounts =>
    inferInstanceAs (Decidable (∃ a ∈ accounts, a.isSigner = true ∧ a.key = K))
  | .outside _ => inferInstanceAs (Decidable False)

def Proposes (K : Pubkey) : Event → Prop
  | .instruction ix _ => ix = .proposeAdmin K
  | .outside _ => False

def accepts : Event → Bool
  | .instruction .acceptAdmin _ => true
  | _ => false

/-- The events that name or install an admin. -/
def rotates : Event → Bool
  | .instruction (.proposeAdmin _) _ | .instruction .acceptAdmin _ => true
  | _ => false

/-- The events that need no admin. -/
def isOpen : Event → Bool
  | .instruction (.deposit _) _ | .instruction (.depositJunior _) _
  | .instruction (.withdraw _) _ | .instruction .accrueFees _
  | .instruction (.recoverFlushedInsurance _) _ | .outside _ => true
  | _ => false

theorem accepts_of_rotates {e : Event} (h : e.rotates = false) : e.accepts = false := by
  cases e with
  | outside => rfl
  | instruction ix accounts => cases ix <;> first | rfl | cases h

end Event

/-! ## Checks -/

section

variable {ctx : Context} {w w' : World} {accounts : List AccountInfo} {ix : StakeInstruction}
  {u k : AccountInfo} {p q : StakePool}

/-- The first account signs, and it is the admin of the pool the second one holds. -/
structure SignedByAdmin (ctx : Context) (w : World) (accounts : List AccountInfo) : Prop where
  signed : ∃ u k q, accounts[0]? = some u ∧ u.isSigner = true ∧ accounts[1]? = some k ∧
    w.pool ctx.programId k.key = some q ∧ q.admin = u.key

theorem readAdminPool_signed (hu : accounts[0]? = some u) (hk : accounts[1]? = some k)
    (h : readAdminPool ctx w u k = .ok q) : SignedByAdmin ctx w accounts := by
  have hsigner : u.isSigner = true := by
    unfold readAdminPool requireSigner at h
    simp only [bind_eq_ok, rejectIf_eq_ok, Bool.not_eq_false] at h
    obtain ⟨_, hsigner, -⟩ := h
    exact hsigner
  obtain ⟨hq, hadmin⟩ := readAdminPool_eq_ok h
  exact ⟨u, k, q, hu, hsigner, hk, hq, hadmin⟩

theorem readTimelockPool_signed {a : TimelockAccounts} {c : Clock}
    (ha : TimelockAccounts.next accounts = .ok a) (h : readTimelockPool ctx w a = .ok (q, c)) :
    SignedByAdmin ctx w accounts := by
  unfold TimelockAccounts.next at ha
  split at ha <;> cases ha
  unfold readTimelockPool requireSigner at h
  simp only [bind_eq_ok, ok_eq_ok, rejectIf_eq_ok, validateAccountOwner_eq_ok, readPool_eq_ok,
    Bool.not_eq_false, not_not, Prod.mk.injEq] at h
  obtain ⟨_, hsigner, _, howner, _, -, _, -, c', -, q', ⟨hq, -⟩, _, hadmin, -, -⟩ := h
  exact ⟨_, _, q', rfl, hsigner, rfl, pool_of_read howner hq, hadmin⟩

theorem validateGroupAProxy_signed {slab program : AccountInfo} {b : UInt8}
    (hu : accounts[0]? = some u) (hk : accounts[1]? = some k)
    (h : validateGroupAProxy ctx w u k slab program = .ok b) : SignedByAdmin ctx w accounts := by
  unfold validateGroupAProxy requireSigner at h
  simp only [bind_eq_ok, rejectIf_eq_ok, validateAccountOwner_eq_ok, readPool_eq_ok,
    Bool.not_eq_false, not_not] at h
  obtain ⟨_, hsigner, _, howner, _, -, q, ⟨hq, -⟩, _, hadmin, -⟩ := h
  exact ⟨u, k, q, hu, hsigner, hk, pool_of_read howner hq, hadmin⟩

theorem AdminPoolAccounts.next_admin {a : AdminPoolAccounts}
    (h : AdminPoolAccounts.next accounts = .ok a) : accounts[0]? = some a.admin := by
  unfold AdminPoolAccounts.next at h
  split at h <;> cases h
  rfl

theorem MarketAccounts.next_admin {a : MarketAccounts}
    (h : MarketAccounts.next accounts = .ok a) : accounts[0]? = some a.admin := by
  unfold MarketAccounts.next at h
  split at h <;> cases h
  rfl

theorem AuthorityAccounts.next_admin {a : AuthorityAccounts}
    (h : AuthorityAccounts.next accounts = .ok a) : accounts[0]? = some a.admin := by
  unfold AuthorityAccounts.next at h
  split at h <;> cases h
  rfl

theorem rotateRole_signed {build : Pubkey → Pubkey → Pubkey → Pubkey → Instruction}
    (h : rotateRole ctx w accounts build = .ok w') : SignedByAdmin ctx w accounts := by
  unfold rotateRole requireSigner at h
  simp only [bind_eq_ok, rejectIf_eq_ok, validateAccountOwner_eq_ok, readPool_eq_ok,
    Bool.not_eq_false, not_not] at h
  obtain ⟨a, ha, _, hsigner, _, -, _, howner, _, -, q, ⟨hq, -⟩, _, hadmin, -⟩ := h
  have hu : accounts[0]? = some a.admin := by
    unfold RotateAccounts.next at ha
    split at ha <;> cases ha
    rfl
  exact ⟨a.admin, a.poolPda, q, hu, hsigner, RotateAccounts.next_eq_ok ha, pool_of_read howner hq,
    hadmin⟩

theorem groupAProxy_signed {build : Pubkey → Pubkey → Pubkey → Instruction}
    (h : groupAProxy ctx w accounts build = .ok w') : SignedByAdmin ctx w accounts := by
  unfold groupAProxy at h
  simp only [bind_eq_ok] at h
  obtain ⟨a, ha, bump, hvalid, -⟩ := h
  exact validateGroupAProxy_signed (MarketAccounts.next_admin ha) (MarketAccounts.next_eq_ok ha)
    hvalid

theorem groupBProxy_signed {build : Pubkey → Pubkey → Pubkey → Instruction}
    (h : groupBProxy ctx w accounts build = .ok w') : SignedByAdmin ctx w accounts := by
  unfold groupBProxy validateGroupBProxy at h
  simp only [bind_eq_ok] at h
  obtain ⟨a, ha, bump, ⟨_, hvalid, -⟩, -⟩ := h
  exact validateGroupAProxy_signed (AuthorityAccounts.next_admin ha)
    (AuthorityAccounts.next_eq_ok ha) hvalid

/-- What is the admin's, the admin of the pool signs. -/
theorem process_signed (h : process ctx w accounts ix = .ok w') {s : Settings}
    (hix : ix.authority s = some s.admin) (hne : ix ≠ .acceptAdmin) :
    SignedByAdmin ctx w accounts := by
  have hnext : ∀ {a : AdminPoolAccounts} {q : StakePool}, AdminPoolAccounts.next accounts = .ok a →
      readAdminPool ctx w a.admin a.poolPda = .ok q → SignedByAdmin ctx w accounts :=
    fun ha hq => readAdminPool_signed (AdminPoolAccounts.next_admin ha)
      (AdminPoolAccounts.next_eq_ok ha) hq
  cases ix with
  | initPool | initTradingPool | deposit | depositJunior | withdraw | accrueFees |
    recoverFlushedInsurance => cases hix
  | acceptAdmin => exact (hne rfl).elim
  | updateConfig =>
    unfold process processUpdateConfig at h
    simp only [bind_eq_ok] at h
    obtain ⟨a, ha, q, hq, -⟩ := h
    exact hnext ha hq
  | proposeAdmin =>
    unfold process processProposeAdmin at h
    simp only [bind_eq_ok] at h
    obtain ⟨a, ha, q, hq, -⟩ := h
    exact hnext ha hq
  | cancelCooldownIncrease =>
    unfold process processCancelCooldownIncrease at h
    simp only [bind_eq_ok] at h
    obtain ⟨a, ha, q, hq, -⟩ := h
    exact hnext ha hq
  | adminSetHwmConfig =>
    unfold process processAdminSetHwmConfig at h
    simp only [bind_eq_ok] at h
    obtain ⟨a, ha, q, hq, -⟩ := h
    exact hnext ha hq
  | adminSetTrancheConfig =>
    unfold process processAdminSetTrancheConfig at h
    simp only [bind_eq_ok] at h
    obtain ⟨a, ha, q, hq, -⟩ := h
    exact hnext ha hq
  | proposeCooldownIncrease =>
    unfold process processProposeCooldownIncrease at h
    simp only [bind_eq_ok, Prod.exists] at h
    obtain ⟨a, ha, q, c, hq, -⟩ := h
    exact readTimelockPool_signed ha hq
  | commitCooldownIncrease =>
    unfold process processCommitCooldownIncrease at h
    simp only [bind_eq_ok, Prod.exists] at h
    obtain ⟨a, ha, q, c, hq, -⟩ := h
    exact readTimelockPool_signed ha hq
  | rotateInsuranceAuthority | rotateInsuranceOperator => exact rotateRole_signed h
  | adminUpdateFeeSplit =>
    unfold process processAdminUpdateFeeSplit at h
    exact groupAProxy_signed h
  | adminUpdateMaintenanceFeePerSlot =>
    unfold process processAdminUpdateMaintenanceFeePerSlot at h
    exact groupAProxy_signed h
  | adminUpdateBackingFeePolicy =>
    unfold process processAdminUpdateBackingFeePolicy at h
    exact groupBProxy_signed h
  | adminUpdateTradeFeePolicy =>
    unfold process processAdminUpdateTradeFeePolicy at h
    exact groupBProxy_signed h
  | setMarketResolved =>
    unfold process processSetMarketResolved requireSigner at h
    simp only [bind_eq_ok, rejectIf_eq_ok, validateAccountOwner_eq_ok, readPool_eq_ok,
      Bool.not_eq_false, not_not] at h
    obtain ⟨a, ha, _, hsigner, _, howner, _, -, _, -, q, ⟨hq, -⟩, _, hadmin, -⟩ := h
    exact ⟨_, _, q, AdminPoolAccounts.next_admin ha, hsigner, AdminPoolAccounts.next_eq_ok ha,
      pool_of_read howner hq, hadmin⟩
  | adminResolveMarket =>
    unfold process processAdminResolveMarket requireSigner at h
    simp only [bind_eq_ok, rejectIf_eq_ok, validateAccountOwner_eq_ok, readPool_eq_ok,
      Bool.not_eq_false, not_not] at h
    obtain ⟨a, ha, _, hsigner, _, howner, _, -, q, ⟨hq, -⟩, _, hadmin, -⟩ := h
    exact ⟨_, _, q, MarketAccounts.next_admin ha, hsigner, MarketAccounts.next_eq_ok ha,
      pool_of_read howner hq, hadmin⟩
  | bindInsuranceAuthority =>
    unfold process processBindInsuranceAuthority requireSigner at h
    simp only [bind_eq_ok, rejectIf_eq_ok, validateAccountOwner_eq_ok, readPool_eq_ok,
      Bool.not_eq_false, not_not] at h
    obtain ⟨a, ha, _, hsigner, _, howner, _, -, q, ⟨hq, -⟩, _, hadmin, -⟩ := h
    exact ⟨_, _, q, AuthorityAccounts.next_admin ha, hsigner, AuthorityAccounts.next_eq_ok ha,
      pool_of_read howner hq, hadmin⟩
  | burnAssetAdmin =>
    unfold process processBurnAssetAdmin requireSigner at h
    simp only [bind_eq_ok, rejectIf_eq_ok, validateAccountOwner_eq_ok, readPool_eq_ok,
      Bool.not_eq_false, not_not] at h
    obtain ⟨a, ha, _, hsigner, _, -, _, howner, _, -, q, ⟨hq, -⟩, _, hadmin, -⟩ := h
    exact ⟨_, _, q, AuthorityAccounts.next_admin ha, hsigner, AuthorityAccounts.next_eq_ok ha,
      pool_of_read howner hq, hadmin⟩
  | flushToInsurance =>
    unfold process processFlushToInsurance requireSigner at h
    simp only [bind_eq_ok, rejectIf_eq_ok, validateAccountOwner_eq_ok, readPool_eq_ok,
      Bool.not_eq_false, not_not] at h
    obtain ⟨_, -, a, ha, _, hsigner, _, howner, _, -, _, -, _, -, q, ⟨hq, -⟩, _, hadmin, -⟩ := h
    have hu : accounts[0]? = some a.caller := by
      unfold FlushAccounts.next at ha
      split at ha <;> cases ha
      rfl
    exact ⟨_, _, q, hu, hsigner, FlushAccounts.next_eq_ok ha, pool_of_read howner hq, hadmin⟩
  | returnInsurance =>
    unfold process processReturnInsurance requireSigner at h
    simp only [bind_eq_ok, rejectIf_eq_ok, validateAccountOwner_eq_ok, readPool_eq_ok,
      Bool.not_eq_false, not_not] at h
    obtain ⟨_, -, a, ha, _, hsigner, _, -, _, howner, _, -, _, -, _, -, q, ⟨hq, -⟩, _, hadmin,
      -⟩ := h
    obtain ⟨hu, hk⟩ := ReturnAccounts.next_eq_ok ha
    exact ⟨_, _, q, hu, hsigner, hk, pool_of_read howner hq, hadmin⟩

/-- An acceptance is signed by the admin it installs. -/
theorem processAcceptAdmin_signed (h : processAcceptAdmin ctx w accounts = .ok w') :
    ∃ u k q, accounts[0]? = some u ∧ u.isSigner = true ∧ accounts[1]? = some k ∧
      w.pool ctx.programId k.key = some q ∧ q.pendingAdmin = u.key ∧
      q.pendingAdmin ≠ Vector.replicate 32 0 := by
  unfold processAcceptAdmin requireSigner at h
  simp only [bind_eq_ok, rejectIf_eq_ok, validateAccountOwner_eq_ok, readPool_eq_ok,
    Bool.not_eq_false, not_not] at h
  obtain ⟨a, ha, _, hsigner, _, howner, _, -, _, -, q, ⟨hq, -⟩, _, hsome, _, hpending, -⟩ := h
  exact ⟨_, _, q, AdminPoolAccounts.next_admin ha, hsigner, AdminPoolAccounts.next_eq_ok ha,
    pool_of_read howner hq, hpending, hsome⟩

/-! ## One event -/

variable {π : Pubkey} {p' : StakePool} {t : TokenAccount} {m : Mint} {e : Event}

theorem SignedByAdmin.event (h : SignedByAdmin ctx w accounts) (hst : Standing ctx π w p t m)
    (hix : ix.poolAccount accounts = accounts[1]?)
    (hs : ctx.Step π w (.instruction ix accounts) w') :
    (Event.instruction ix accounts).SignedBy p.admin := by
  obtain ⟨u, k, q, hu, hsigner, hk, hq, hadmin⟩ := h.signed
  obtain ⟨-, rfl⟩ := hst.pool_read (hix ▸ hs.1) hk hq
  exact ⟨u, List.mem_of_getElem? hu, hsigner, hadmin.symm⟩

/-- What is not open, the admin in office signs, or the successor who accepts. -/
theorem Standing.signed_of_closed (h : Standing ctx π w p t m) (hs : ctx.Step π w e w')
    (he : e.isOpen = false) :
    e.accepts = false ∧ e.SignedBy p.admin ∨
      e.accepts = true ∧ e.SignedBy p.pendingAdmin ∧ p.pendingAdmin ≠ Vector.replicate 32 0 := by
  cases e with
  | outside => cases he
  | instruction ix accounts =>
    cases hix : (Event.instruction ix accounts).accepts with
    | true =>
      right
      obtain rfl : ix = .acceptAdmin := by
        cases ix <;> first | rfl | cases hix
      obtain ⟨u, k, q, hu, hsigner, hk, hq, hpending, hsome⟩ := processAcceptAdmin_signed hs.2.2
      obtain ⟨-, rfl⟩ := h.pool_read hs.1 hk hq
      exact ⟨rfl, ⟨u, List.mem_of_getElem? hu, hsigner, hpending.symm⟩, hsome⟩
    | false =>
      left
      obtain ⟨p', -, hstep, -⟩ := h.settings_step hs
      have hauthority : ix.authority p.settings = some p.settings.admin := by
        cases ix with
        | initPool | initTradingPool => exact hstep.elim
        | acceptAdmin => cases hix
        | deposit | depositJunior | withdraw | accrueFees | recoverFlushedInsurance => cases he
        | _ => rfl
      have hne : ix ≠ .acceptAdmin := by
        rintro rfl
        cases hix
      have hpool : ix.poolAccount accounts = accounts[1]? := by
        cases ix with
        | initPool | initTradingPool => exact hstep.elim
        | _ => rfl
      exact ⟨rfl, (process_signed hs.2.2 hauthority hne).event h hpool hs⟩

theorem Settings.Step.office_eq {clock : Option Clock} {s s' : Settings}
    (h : Settings.Step clock s ix s') (hix : (Event.instruction ix accounts).rotates = false) :
    s'.admin = s.admin ∧ s'.pendingAdmin = s.pendingAdmin := by
  cases ix with
  | initPool | initTradingPool => exact h.elim
  | proposeAdmin | acceptAdmin => cases hix
  | proposeCooldownIncrease =>
    obtain ⟨c, -, -, -, rfl⟩ := h
    exact ⟨rfl, rfl⟩
  | commitCooldownIncrease =>
    obtain ⟨c, -, -, -, -, rfl⟩ := h
    exact ⟨rfl, rfl⟩
  | updateConfig | deposit | depositJunior | flushToInsurance | cancelCooldownIncrease
  | adminSetHwmConfig | setMarketResolved | burnAssetAdmin | rotateInsuranceAuthority
  | rotateInsuranceOperator =>
    obtain ⟨-, rfl⟩ := h
    exact ⟨rfl, rfl⟩
  | _ =>
    cases h
    exact ⟨rfl, rfl⟩

/-- What an event makes of the admin and of the successor. -/
inductive OfficeStep (e : Event) (p p' : StakePool) : Prop
  | keep (he : e.rotates = false) (hadmin : p'.admin = p.admin)
      (hpending : p'.pendingAdmin = p.pendingAdmin)
  | propose (he : e.accepts = false) (hproposes : e.Proposes p'.pendingAdmin)
      (hsigned : e.SignedBy p.admin) (hadmin : p'.admin = p.admin)
  | accept (he : e.accepts = true) (hsigned : e.SignedBy p.pendingAdmin)
      (hsome : p.pendingAdmin ≠ Vector.replicate 32 0) (hadmin : p'.admin = p.pendingAdmin)
      (hpending : p'.pendingAdmin = Vector.replicate 32 0)

theorem Standing.office_step (h : Standing ctx π w p t m) (hs : ctx.Step π w e w')
    (hp' : w'.pool ctx.programId π = some p') : OfficeStep e p p' := by
  rcases h.settings_next hs hp' with ⟨ix, accounts, rfl, hstep⟩ | ⟨⟨x, rfl⟩, rfl⟩
  · cases hix : (Event.instruction ix accounts).rotates with
    | false =>
      obtain ⟨hadmin, hpending⟩ := hstep.office_eq hix
      exact .keep hix hadmin hpending
    | true =>
      cases ix with
      | proposeAdmin K =>
        have hnext : p'.settings = { p.settings with pendingAdmin := K } := hstep
        obtain rfl : p'.pendingAdmin = K := congrArg Settings.pendingAdmin hnext
        rcases h.signed_of_closed hs rfl with ⟨-, hsigned⟩ | ⟨haccepts, -⟩
        · exact .propose rfl rfl hsigned (congrArg Settings.admin hnext)
        · cases haccepts
      | acceptAdmin =>
        have hnext : p'.settings = { p.settings with
          admin := p.settings.pendingAdmin, pendingAdmin := Vector.replicate 32 0 } := hstep
        rcases h.signed_of_closed hs rfl with ⟨haccepts, -⟩ | ⟨-, hsigned, hsome⟩
        · cases haccepts
        · exact .accept rfl hsigned hsome (congrArg Settings.admin hnext)
            (congrArg Settings.pendingAdmin hnext)
      | _ => cases hix
  · exact .keep rfl rfl rfl

end

/-! ## Into office -/

/-- On the way from `w₀` through `es`, the admin in office proposes `K`, and after that
nobody is proposed and nobody accepts. -/
def Context.Proposed (ctx : Context) (π : Pubkey) (w₀ : World) (es : List Event) (K : Pubkey) :
    Prop :=
  ∃ es₁ proposal es₂ w₁ p₁, es = es₁ ++ proposal :: es₂ ∧
    Transition.Run (ctx.Step π) w₀ es₁ w₁ ∧ w₁.pool ctx.programId π = some p₁ ∧
    proposal.Proposes K ∧ proposal.SignedBy p₁.admin ∧ ∀ e ∈ es₂, e.rotates = false

/-- The last acceptance of `es` is signed by `K`, on the last proposal before it. -/
def Context.TookOffice (ctx : Context) (π : Pubkey) (w₀ : World) (es : List Event) (K : Pubkey) :
    Prop :=
  ∃ es₁ acceptance es₂, es = es₁ ++ acceptance :: es₂ ∧ ctx.Proposed π w₀ es₁ K ∧
    acceptance.accepts = true ∧ acceptance.SignedBy K ∧ ∀ e ∈ es₂, e.accepts = false

/-- How the admin of `p` came into office, and that the successor is the last proposed. -/
structure Office (ctx : Context) (π : Pubkey) (w₀ : World) (p₀ : StakePool) (es : List Event)
    (p : StakePool) : Prop where
  admin : p.admin = p₀.admin ∧ (∀ e ∈ es, e.accepts = false) ∨ ctx.TookOffice π w₀ es p.admin
  pending : p.pendingAdmin = Vector.replicate 32 0 ∨ ctx.Proposed π w₀ es p.pendingAdmin

section

variable {ctx : Context} {π : Pubkey} {w₀ w w' : World} {p₀ p p' : StakePool} {e : Event}
  {es : List Event} {K : Pubkey}

theorem forall_mem_snoc {P : Event → Prop} (h : ∀ a ∈ es, P a) (he : P e) :
    ∀ a ∈ es ++ [e], P a := by
  intro a ha
  rcases List.mem_append.mp ha with ha | ha
  · exact h a ha
  · rw [List.mem_singleton.mp ha]
    exact he

theorem Context.Proposed.snoc (h : ctx.Proposed π w₀ es K) (he : e.rotates = false) :
    ctx.Proposed π w₀ (es ++ [e]) K := by
  obtain ⟨es₁, proposal, es₂, w₁, p₁, hes, hrun, hp₁, hproposes, hsigned, hlater⟩ := h
  refine ⟨es₁, proposal, es₂ ++ [e], w₁, p₁, ?_, hrun, hp₁, hproposes, hsigned,
    forall_mem_snoc hlater he⟩
  rw [hes, List.append_assoc, List.cons_append]

theorem Context.TookOffice.snoc (h : ctx.TookOffice π w₀ es K) (he : e.accepts = false) :
    ctx.TookOffice π w₀ (es ++ [e]) K := by
  obtain ⟨es₁, acceptance, es₂, hes, hproposed, haccepts, hsigned, hlater⟩ := h
  refine ⟨es₁, acceptance, es₂ ++ [e], ?_, hproposed, haccepts, hsigned,
    forall_mem_snoc hlater he⟩
  rw [hes, List.append_assoc, List.cons_append]

theorem Office.step (h : Office ctx π w₀ p₀ es p) (hrun : Transition.Run (ctx.Step π) w₀ es w)
    (hp : w.pool ctx.programId π = some p) (hstep : OfficeStep e p p') :
    Office ctx π w₀ p₀ (es ++ [e]) p' := by
  -- without an acceptance the admin stays in office
  have hstay : e.accepts = false → p'.admin = p.admin →
      p'.admin = p₀.admin ∧ (∀ a ∈ es ++ [e], a.accepts = false) ∨
        ctx.TookOffice π w₀ (es ++ [e]) p'.admin := by
    intro he hadmin
    rw [hadmin]
    rcases h.admin with ⟨hfounder, hnone⟩ | htook
    · exact .inl ⟨hfounder, forall_mem_snoc hnone he⟩
    · exact .inr (htook.snoc he)
  cases hstep with
  | keep he hadmin hpending =>
    refine ⟨hstay (Event.accepts_of_rotates he) hadmin, ?_⟩
    rw [hpending]
    rcases h.pending with h0 | hproposed
    · exact .inl h0
    · exact .inr (hproposed.snoc he)
  | propose he hproposes hsigned hadmin =>
    exact ⟨hstay he hadmin, .inr ⟨es, e, [], w, p, rfl, hrun, hp, hproposes, hsigned,
      List.forall_mem_nil _⟩⟩
  | accept he hsigned hsome hadmin hpending =>
    refine ⟨.inr ?_, .inl hpending⟩
    rw [hadmin]
    rcases h.pending with h0 | hproposed
    · exact (hsome h0).elim
    · exact ⟨es, e, [], rfl, hproposed, he, hsigned, List.forall_mem_nil _⟩

/-- The admin of a pool is its founder, or came into office by a proposal of the admin then in
office and an acceptance of its own, with no other proposal between the two. -/
theorem admin_handover (h₀ : ctx.Genesis π w₀) (hp₀ : w₀.pool ctx.programId π = some p₀)
    (hrun : Transition.Run (ctx.Step π) w₀ es w) (hp : w.pool ctx.programId π = some p) :
    p.admin = p₀.admin ∧ (∀ e ∈ es, e.accepts = false) ∨ ctx.TookOffice π w₀ es p.admin := by
  have hoffice : ∃ q, w.pool ctx.programId π = some q ∧ Office ctx π w₀ p₀ es q := by
    apply hrun.history (P := fun es w => ∃ q, w.pool ctx.programId π = some q ∧
      Office ctx π w₀ p₀ es q)
    · obtain ⟨v, q, hc⟩ := h₀.creates
      obtain rfl : q = p₀ := Option.some_inj.mp (hc.after.symm.trans hp₀)
      obtain ⟨admin, slots, cap, -, hsettings⟩ := hc.settings_eq
      exact ⟨q, hp₀, .inl ⟨rfl, List.forall_mem_nil _⟩,
        .inl (congrArg Settings.pendingAdmin hsettings)⟩
    · intro es w e w' hpre hP hs
      obtain ⟨q, hq, hoffice⟩ := hP
      obtain ⟨r, t, m, hvalid⟩ := Context.Reached.stands ⟨w₀, h₀, hpre⟩
      have hst := hvalid.standing
      obtain rfl : q = r := Option.some_inj.mp (hq.symm.trans hst.pool_eq)
      obtain ⟨_, -, q', t', m', h', -⟩ := hst.step hs
      exact ⟨q', h'.pool_eq, hoffice.step hpre hq (hst.office_step hs h'.pool_eq)⟩
  obtain ⟨q, hq, hoffice⟩ := hoffice
  obtain rfl : q = p := Option.some_inj.mp (hq.symm.trans hp)
  exact hoffice.admin

/-- Alice succeeds the founder, between two deposits of bob. -/
def Sample.succession : List Action :=
  [deposit alice 100000, .call (.proposeAdmin (key alice)) adminAccounts, deposit bob 50000,
    .call .acceptAdmin [signer (key alice), writable pool], deposit bob 50000]

theorem Sample.succession_admin :
    ((after []).pool Sample.ctx.programId pool).map StakePool.admin = some (key admin) ∧
    ((after succession).pool Sample.ctx.programId pool).map StakePool.admin =
      some (key alice) := by
  decide +kernel

theorem Sample.admin_handover_succession : Sample.ctx.TookOffice pool (after [])
    (succession.map Action.event) (key alice) := by
  obtain ⟨hfounder, hlast⟩ := succession_admin
  obtain ⟨p₀, hp₀, hadmin₀⟩ := Option.map_eq_some_iff.mp hfounder
  obtain ⟨p, hp, hadmin⟩ := Option.map_eq_some_iff.mp hlast
  have hrun := (after_run (s := []) (r := succession) (run_of_pool hlast)).2
  rcases admin_handover after_nil_genesis hp₀ hrun hp with ⟨hsame, -⟩ | htook
  · rw [hadmin, hadmin₀] at hsame
    exact absurd hsame (by decide)
  · rwa [hadmin] at htook

/-! ## With the admin away -/

/-- What of the books only the admin moves. -/
def Book.granted (b : Book) : Nat × Bool × Nat :=
  (b.flushed, b.tranches, b.multiplier)

theorem Ledger.Step.granted_eq {K : Type} [DecidableEq K] {l l' : Ledger K} {mv : Move K}
    (hm : Ledger.Step l mv l') (hflush : ∀ x, mv ≠ .flush x) (hset : ∀ x, mv ≠ .setTranches x) :
    l'.book.granted = l.book.granted := by
  cases hm with
  | flush => exact (hflush _ rfl).elim
  | setTranches => exact (hset _ rfl).elim
  | _ => rfl

theorem Settings.Step.eq_of_open {clock : Option Clock} {s s' : Settings} {ix : StakeInstruction}
    {accounts : List AccountInfo} (h : Settings.Step clock s ix s')
    (hix : (Event.instruction ix accounts).isOpen = true) : s' = s := by
  cases ix with
  | deposit | depositJunior => exact h.2
  | withdraw | accrueFees | recoverFlushedInsurance => exact h
  | _ => cases hix

theorem Standing.open_step {t : TokenAccount} {m : Mint} (h : Standing ctx π w p t m)
    (hs : ctx.Step π w e w') (he : e.isOpen = true) :
    ∃ p', w'.pool ctx.programId π = some p' ∧ p'.settings = p.settings ∧
      p'.book.granted = p.book.granted := by
  obtain ⟨ms, hms, p', t', m', h', -, hrun⟩ := h.step hs
  refine ⟨p', h'.pool_eq, ?_, ?_⟩
  · rcases h.settings_next hs h'.pool_eq with ⟨ix, accounts, rfl, hstep⟩ | ⟨-, rfl⟩
    · exact hstep.eq_of_open he
    · rfl
  · apply hrun.invariant (I := fun l => l.book.granted = p.book.granted) _ rfl
    intro mv hmv l l' hl hm
    have hcause := hms.causedBy mv hmv
    rw [← hl]
    apply hm.granted_eq
    · rintro x rfl
      obtain ⟨amount, accounts, rfl, -⟩ := hcause
      cases he
    · rintro x rfl
      obtain ⟨mult, accounts, rfl, -⟩ := hcause
      cases he

/-- As long as neither the admin nor a successor signs, only the open instructions run.  The
pool keeps its settings and the terms of the junior tranche, and nothing is flushed. -/
theorem absent_admin {es₀ : List Event} (h₀ : ctx.Reached π es₀ w₀)
    (hp₀ : w₀.pool ctx.programId π = some p₀) (hrun : Transition.Run (ctx.Step π) w₀ es w)
    (hadmin : ∀ e ∈ es, ¬e.SignedBy p₀.admin)
    (hpending : p₀.pendingAdmin = Vector.replicate 32 0 ∨ ∀ e ∈ es, ¬e.SignedBy p₀.pendingAdmin) :
    (∀ e ∈ es, e.isOpen = true) ∧ ∃ p, w.pool ctx.programId π = some p ∧
      p.settings = p₀.settings ∧ p.totalFlushed = p₀.totalFlushed ∧
      p.trancheEnabled = p₀.trancheEnabled ∧ p.juniorFeeMultBps = p₀.juniorFeeMultBps := by
  have hkept : (∀ e ∈ es, e.isOpen = true) ∧ ∃ p, w.pool ctx.programId π = some p ∧
      p.settings = p₀.settings ∧ p.book.granted = p₀.book.granted := by
    have hrun' : Transition.Run (fun u e u' => e ∈ es ∧ ctx.Step π u e u') w₀ es w :=
      hrun.mono fun e he _ _ hs => ⟨he, hs⟩
    apply hrun'.history (P := fun es w => (∀ e ∈ es, e.isOpen = true) ∧
      ∃ p, w.pool ctx.programId π = some p ∧ p.settings = p₀.settings ∧
        p.book.granted = p₀.book.granted)
    · exact ⟨List.forall_mem_nil _, p₀, hp₀, rfl, rfl⟩
    · intro fs u e u' hpre hP hs
      obtain ⟨he, hs⟩ := hs
      obtain ⟨hopen, q, hq, hsettings, hgranted⟩ := hP
      have hpre' := hpre.mono fun _ _ _ _ hs => hs.2
      obtain ⟨r, t, m, hvalid⟩ := (h₀.append hpre').stands
      have hst := hvalid.standing
      obtain rfl : q = r := Option.some_inj.mp (hq.symm.trans hst.pool_eq)
      have heopen : e.isOpen = true := by
        cases hclosed : e.isOpen with
        | true => rfl
        | false =>
          have hadmin₀ : q.admin = p₀.admin := congrArg Settings.admin hsettings
          have hpending₀ : q.pendingAdmin = p₀.pendingAdmin :=
            congrArg Settings.pendingAdmin hsettings
          rcases hst.signed_of_closed hs hclosed with ⟨-, hsigned⟩ | ⟨-, hsigned, hsome⟩
          · exact (hadmin e he (hadmin₀ ▸ hsigned)).elim
          · rw [hpending₀] at hsigned hsome
            rcases hpending with h0 | hnone
            · exact (hsome h0).elim
            · exact (hnone e he hsigned).elim
      obtain ⟨q', hq', hsettings', hgranted'⟩ := hst.open_step hs heopen
      exact ⟨forall_mem_snoc hopen heopen, q', hq', hsettings'.trans hsettings,
        hgranted'.trans hgranted⟩
  obtain ⟨hopen, p, hp, hsettings, hgranted⟩ := hkept
  unfold Book.granted at hgranted
  simp only [Prod.mk.injEq] at hgranted
  obtain ⟨hflushed, htranche, hmult⟩ := hgranted
  exact ⟨hopen, p, hp, hsettings, UInt64.toNat_inj.mp hflushed, htranche,
    UInt16.toNat_inj.mp hmult⟩

/-- What happens while the admin and the proposed alice are away. -/
def Sample.away : List Action :=
  [deposit bob 50000, .tick ⟨200, 1⟩, withdraw bob 20000, recover 30000, .send 7, accrue]

def Sample.leave : List Action :=
  [deposit bob 100000, flush 40000, .call (.proposeAdmin (key alice)) adminAccounts]

theorem Sample.leave_state :
    ((after leave).pool Sample.ctx.programId pool).map (fun p => (p.admin, p.pendingAdmin)) =
      some (key admin, key alice) ∧ (run (leave ++ away)).isSome = true ∧
    (away.map Action.event).all (fun e => !decide (e.SignedBy (key admin)) &&
      !decide (e.SignedBy (key alice))) = true := by
  decide +kernel

theorem Sample.absent_admin_away : ∃ p₀ p, (after leave).pool Sample.ctx.programId pool = some p₀ ∧
    (after (leave ++ away)).pool Sample.ctx.programId pool = some p ∧
    p.settings = p₀.settings ∧ p.totalFlushed = p₀.totalFlushed := by
  obtain ⟨hpool, hrun, haway⟩ := leave_state
  obtain ⟨p₀, hp₀, hkeys⟩ := Option.map_eq_some_iff.mp hpool
  obtain ⟨hadmin, hpending⟩ := Prod.mk.inj hkeys
  obtain ⟨hleave, hstep⟩ := after_run hrun
  have hnone : ∀ e ∈ away.map Action.event, ¬e.SignedBy (key admin) ∧ ¬e.SignedBy (key alice) := by
    intro e he
    have h := List.all_eq_true.mp haway e he
    rw [Bool.and_eq_true, Bool.not_eq_true', Bool.not_eq_true', decide_eq_false_iff_not,
      decide_eq_false_iff_not] at h
    exact h
  obtain ⟨-, p, hp, hsettings, hflushed, -⟩ := absent_admin (after_reached hleave) hp₀ hstep
    (fun e he => hadmin ▸ (hnone e he).1) (.inr fun e he => hpending ▸ (hnone e he).2)
  exact ⟨p₀, p, hp₀, hp, hsettings, hflushed⟩

end

end PercolatorStake
