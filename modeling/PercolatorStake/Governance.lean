import PercolatorStake.Governed
import PercolatorStake.Recovery

/-!
# The market authority

The address of a pool signs no transaction, so once it is the authority of its market the
market hears only what the program passes on.  It stays the authority, its market is what
the commands made of it, and the admin gets each of the three commands through.
-/

namespace PercolatorStake

open Bytes Result Word

/-! ## A deployment next to its wrapper -/

/-- Carry out events, the signers among `signs` and the pools among `pools`. -/
def Context.runGoverned (ctx : Context) (program : MarketProgram) (signs : Pubkey → Bool)
    (pools : List Pubkey) : Governed → List CustodyEvent → Option Governed
  | s, [] => some s
  | s, .stake ix accounts :: es =>
    if (ix.poolAccount accounts).all (fun a => pools.contains a.key) = true ∧
        accounts.all (fun a => !a.isSigner || signs a.key) = true then do
      let s ← (ctx.processGoverned program s accounts ix).toOption
      runGoverned ctx program signs pools s es
    else none
  | s, .wrapper ix :: es =>
    if ix.accounts.all (fun a => !a.isSigner || signs a.pubkey) = true then do
      let M ← program.handle s.markets ix
      runGoverned ctx program signs pools ⟨s.world, M⟩ es
    else none
  | s, .outside :: es => runGoverned ctx program signs pools s es

theorem Context.runGoverned_run {ctx : Context} {program : MarketProgram} {signs : Pubkey → Bool}
    {pools : List Pubkey} {s s' : Governed} {es : List CustodyEvent}
    (h : ctx.runGoverned program signs pools s es = some s') :
    Transition.Run (ctx.GovernedStep program {k | k ∈ pools} {k | signs k = true}) s es s' := by
  have hidle : ∀ w, ctx.Elsewhere {k | signs k = true} w w :=
    fun w => ⟨fun _ => rfl, fun _ => rfl, fun A _ => .refl A w⟩
  have hsigns : ∀ {b : Bool} {k : Pubkey}, (!b || signs k) = true → b = true →
      signs k = true := by
    intro b k h hb
    rw [hb] at h
    exact h
  induction es generalizing s with
  | nil =>
    cases h
    rfl
  | cons e es ih =>
    cases e with
    | stake ix accounts =>
      unfold Context.runGoverned at h
      split at h
      · rename_i hguard
        obtain ⟨hpool, hall⟩ := hguard
        obtain ⟨u, hu, hrest⟩ := Option.bind_eq_some_iff.mp h
        refine ⟨u, ⟨?_, ?_, Result.toOption_eq_some.mp hu⟩, ih hrest⟩
        · intro a ha
          rw [ha] at hpool
          exact List.contains_iff_mem.mp hpool
        · exact fun a ha hs => hsigns (List.all_eq_true.mp hall a ha) hs
      · cases h
    | wrapper ix =>
      unfold Context.runGoverned at h
      split at h
      · rename_i hall
        obtain ⟨M, hM, hrest⟩ := Option.bind_eq_some_iff.mp h
        refine ⟨⟨s.world, M⟩, ⟨?_, hM, hidle s.world⟩, ih hrest⟩
        exact fun a ha hs => hsigns (List.all_eq_true.mp hall a ha) hs
      · cases h
    | outside => exact ⟨s, ⟨rfl, hidle s.world⟩, ih h⟩

namespace Sample

/-- The admin has both markets to begin with. -/
def chartered : Governed := ⟨twinWorld, fun _ => some ⟨key admin, false, (0, 0, 0), 0⟩⟩

def twinRecover (n : UInt8) (amount : UInt64) : CustodyEvent :=
  .stake (.recoverFlushedInsurance amount) [signer (key alice), writable (twinPool n),
    writable (key (n + 30)), readonly (twinCtx.vaultAuthority (twinPool n)), writable (key n),
    writable wrapperVault, readonly percolatorMainnet, readonly splTokenId,
    readonly percolatorMainnet]

def proxyAccounts (n : UInt8) : MarketAccounts :=
  ⟨signer (key admin), readonly (twinPool n), writable (key n), readonly percolatorMainnet⟩

def proxy (n : UInt8) (ix : StakeInstruction) : CustodyEvent :=
  .stake ix [signer (key admin), readonly (twinPool n), writable (key n),
    readonly percolatorMainnet]

/-- The admin sets the fee split of the first market, signs it over, and goes on through
the pool. -/
def mandate : List CustodyEvent :=
  [.wrapper (Cpi.updateFeeSplit percolatorMainnet (key admin) (key 11) 5000 3000 2000),
    .stake (.initPool 1 0) [signer (key admin), writable (key 11), writable (twinPool 11),
      writable (key 31), writable (key 41), readonly (twinCtx.vaultAuthority (twinPool 11)),
      readonly collateralMint, readonly percolatorMainnet, readonly splTokenId,
      readonly systemProgramId, readonly rentSysvarId],
    .stake (.deposit 100000) [signer (key alice), writable (twinPool 11), writable (ata alice),
      writable (key 41), writable (key 31), writable (key 71),
      readonly (twinCtx.vaultAuthority (twinPool 11)),
      writable (twinCtx.depositPda (twinPool 11) (key alice)), readonly splTokenId,
      readonly clockSysvarId, readonly systemProgramId],
    .stake (.flushToInsurance 30000) [signer (key admin), writable (twinPool 11),
      writable (key 41), readonly (twinCtx.vaultAuthority (twinPool 11)), writable (key 11),
      writable wrapperVault, readonly percolatorMainnet, readonly splTokenId],
    proxy 11 (.adminUpdateMaintenanceFeePerSlot 7),
    .outside,
    twinRecover 11 30000]

def ruled (es : List CustodyEvent) : Governed :=
  (twinCtx.runGoverned marketProgram twinSigns twinPools chartered es).getD chartered

theorem ruled_run (es : List CustodyEvent)
    (h : (twinCtx.runGoverned marketProgram twinSigns twinPools chartered es).isSome = true) :
    Transition.Run (twinCtx.GovernedStep marketProgram {k | k ∈ twinPools}
      {k | twinSigns k = true}) chartered es (ruled es) := by
  obtain ⟨s, hs⟩ := Option.isSome_iff_exists.mp h
  rw [ruled, hs, Option.getD_some]
  exact Context.runGoverned_run hs

theorem chartered_pools (k : Pubkey) : chartered.world.pool twinCtx.programId k = none :=
  (ofList_foreign (by decide +kernel) (by decide +kernel) k).1

theorem chartered_records (k : Pubkey) : chartered.world.record twinCtx.programId k = none :=
  (ofList_foreign (by decide +kernel) (by decide +kernel) k).2

theorem twin_unsigned : ∀ κ ∈ {k | k ∈ twinPools}, κ ∉ {k | twinSigns k = true} := by
  have hall : twinPools.all (fun κ => !twinSigns κ) = true := by decide +kernel
  intro κ hκ h
  have hno := List.all_eq_true.mp hall κ hκ
  rw [show twinSigns κ = true from h] at hno
  cases hno

end Sample

section

variable {ctx : Context} {program : MarketProgram} {P U : Set Pubkey} {π : Pubkey}
  {s s' : Governed} {e : CustodyEvent} {es : List CustodyEvent} {p p' : StakePool}

/-! ## What a pool is to its market -/

theorem MovesRecoverable.le {e : Event} (h : MovesRecoverable p p' e)
    (he : ∀ amount accounts, e ≠ .instruction (.flushToInsurance amount) accounts) :
    p'.book.recoverable ≤ p.book.recoverable := by
  have hword : p'.wrapperRecoverable ≤ p.wrapperRecoverable →
      p'.book.recoverable ≤ p.book.recoverable := by
    intro h
    rw [UInt64.le_iff_toNat_le, StakePool.toNat_wrapperRecoverable,
      StakePool.toNat_wrapperRecoverable] at h
    exact h
  cases e with
  | outside => exact hword h
  | instruction ix accounts =>
    cases ix with
    | flushToInsurance amount => exact (he amount accounts rfl).elim
    | recoverFlushedInsurance amount =>
      have h : p'.wrapperRecoverable.toNat + amount.toNat = p.wrapperRecoverable.toNat := h
      rw [StakePool.toNat_wrapperRecoverable, StakePool.toNat_wrapperRecoverable] at h
      omega
    | _ => exact hword h

/-- Every pool governs its market, and one that is resolved owes the pool nothing. -/
def Context.Staked (ctx : Context) (s : Governed) : Prop :=
  ∀ π p, s.world.pool ctx.programId π = some p → ∃ m, s.markets p.slab = some m ∧
    m.authority = π ∧ (m.resolved = true → p.book.recoverable = 0)

/-- On a resolved market nothing more becomes recoverable. -/
theorem Context.GovernedStep.recoverable_le {X : Nat} {t : TokenAccount} {mint : Mint}
    {m : Market} (hP : ctx.Parties P U) (h : ctx.Coherent P U s.world)
    (hv : Valid ctx π X s.world p t mint) (hs : ctx.GovernedStep program P U s e s')
    (hp' : s'.world.pool ctx.programId π = some p') (hm : s.markets p.slab = some m)
    (hresolved : m.resolved = true) : p'.book.recoverable ≤ p.book.recoverable := by
  obtain ⟨e', he, hstep⟩ := h.seen hP hv.standing hs.system
  obtain ⟨q, t', m', ms, hv', hreal, hrun⟩ := hv.step hstep
  obtain rfl : q = p' := Option.some_inj.mp (hv'.standing.pool_eq.symm.trans hp')
  apply (hv.movesRecoverable hreal hrun).le
  rintro amount accounts rfl
  cases e with
  | wrapper | outside => cases he
  | stake ix accounts' =>
    cases he
    rename_i hon
    obtain ⟨a, ha, rfl⟩ := hon
    obtain ⟨m₁, hm₁, hlive⟩ := live_of_flush h.allChartered ha hv.standing.pool_eq hs.2.2
    obtain rfl : m = m₁ := Option.some_inj.mp (hm.symm.trans hm₁)
    rw [hresolved] at hlive
    cases hlive

theorem Context.Staked.step (hP : ctx.Parties P U) (hU : ∀ κ ∈ P, κ ∉ U)
    (h : ctx.Coherent P U s.world) (h' : ctx.Coherent P U s'.world)
    (hvalid : ∀ π p, s.world.pool ctx.programId π = some p →
      ∃ X t m, Valid ctx π X s.world p t m)
    (hI : ctx.Staked s) (hs : ctx.GovernedStep program P U s e s') : ctx.Staked s' := by
  intro π p' hp'
  cases hbefore : s.world.pool ctx.programId π with
  | none =>
    -- a new pool is empty, and its market has been signed over
    obtain ⟨-, hgenesis⟩ := h.genesis hP hs.system hbefore hp'
    obtain ⟨q, t, mint, hv, hempty⟩ := hgenesis.valid
    obtain rfl : q = p' := Option.some_inj.mp (hv.standing.pool_eq.symm.trans hp')
    obtain ⟨ix, accounts, a, m, -, -, rfl, hf⟩ := hs.founded hP h hbefore hp'
    refine ⟨{ m with authority := a.poolPda.key }, ?_, rfl, fun _ => ?_⟩
    · rw [hf.markets_eq, Function.update_self]
    · rw [show q.book = Book.empty from congrArg Ledger.book hempty]
      rfl
  | some p =>
    obtain ⟨m, hm, hauth, hsettled⟩ := hI π p hbefore
    rw [hs.system.slab_eq hbefore hp']
    rcases hs.market hU h h'.allChartered hbefore hm hauth with ⟨-, hsame⟩ |
      ⟨ix, accounts, c, a, m', -, hc, -, ho⟩
    · refine ⟨m, hsame, hauth, fun hresolved => ?_⟩
      obtain ⟨X, t, mint, hv⟩ := hvalid π p hbefore
      have hle := hs.recoverable_le hP h hv hp' hm hresolved
      rw [hsettled hresolved] at hle
      omega
    · rw [ho.world_eq, hbefore, Option.some_inj] at hp'
      rw [← hp']
      refine ⟨m', ?_, (StakeInstruction.command_keeps hc ho.obey_eq).trans hauth,
        fun hresolved => ?_⟩
      · rw [ho.markets_eq, Function.update_self]
      · rcases StakeInstruction.command_resolved hc ho.obey_eq with hsame | rfl
        · exact hsettled (hsame ▸ hresolved)
        · exact StakePool.wrapperFullyRecovered_iff.mp (ho.gate rfl)

/-- What holds of the world and of the markets in every state that is reached. -/
theorem Context.Governs.staked (hP : ctx.Parties P U) (hU : ∀ κ ∈ P, κ ∉ U)
    (h : ctx.Governs program P U es s) : ctx.Coherent P U s.world ∧ ctx.Staked s := by
  refine ⟨(h.system.projects hP).1, ?_⟩
  obtain ⟨s₀, hpools, hrecords, hrun⟩ := h
  apply hrun.history (P := fun _ s => ctx.Staked s)
  · intro π p hp
    rw [hpools π] at hp
    cases hp
  · intro es s e s' hpre hI hs
    have hgov : ctx.Governs program P U es s := ⟨s₀, hpools, hrecords, hpre⟩
    obtain ⟨hcoherent, hprojects⟩ := hgov.system.projects hP
    refine hI.step hP hU hcoherent (hcoherent.step hP hs.system) ?_ hs
    intro π p hp
    obtain ⟨-, -, -, seen, -, -, -, hreached⟩ := hprojects π p hp
    obtain ⟨q, t, m, hv⟩ := hreached.stands
    obtain rfl : q = p := Option.some_inj.mp (hv.standing.pool_eq.symm.trans hp)
    exact ⟨_, t, m, hv⟩

/-- The market `k` of the pool at `π` is what its former authority left, with the commands
since then obeyed in their order. -/
def Context.Replayed (ctx : Context) (program : MarketProgram) (P U : Set Pubkey) (s₀ : Governed)
    (es : List CustodyEvent) (π k : Pubkey) (s : Governed) : Prop :=
  ∃ before ix accounts after s₁ a m, es = before ++ .stake ix accounts :: after ∧
    Transition.Run (ctx.GovernedStep program P U) s₀ before s₁ ∧ ix.creates = true ∧
    InitAccounts.next accounts = .ok a ∧ a.poolPda.key = π ∧ a.admin.isSigner = true ∧
    s₁.markets k = some m ∧ a.admin.key = m.authority ∧ ∃ m',
      (after.filterMap (CustodyEvent.commandOn π)).foldlM Market.obey
        { m with authority := π } = some m' ∧ s.markets k = some m'

theorem Context.Replayed.snoc {s₀ : Governed} {k : Pubkey}
    (h : ctx.Replayed program P U s₀ es π k s)
    (hs : ∀ m, s.markets k = some m → (e.commandOn π = none ∧ s'.markets k = some m) ∨
      ∃ c m', e.commandOn π = some c ∧ m.obey c = some m' ∧ s'.markets k = some m') :
    ctx.Replayed program P U s₀ (es ++ [e]) π k s' := by
  obtain ⟨before, ix, accounts, after, s₁, a, m, rfl, hrun, hix, ha, hπ, hsigner, hm, hauth, m₁,
    hfold, hm₁⟩ := h
  refine ⟨before, ix, accounts, after ++ [e], s₁, a, m, by simp, hrun, hix, ha, hπ, hsigner, hm,
    hauth, ?_⟩
  rw [List.filterMap_append, List.foldlM_append, hfold]
  rcases hs m₁ hm₁ with ⟨hnone, hsame⟩ | ⟨c, m', hc, hobey, hm'⟩
  · rw [List.filterMap_cons_none hnone]
    exact ⟨m₁, rfl, hsame⟩
  · rw [List.filterMap_cons_some hc]
    refine ⟨m', ?_, hm'⟩
    show m₁.obey c >>= some = _
    rw [hobey]
    rfl

/-- A market with a pool is what the authority that signed it over had made of it, with
exactly those commands obeyed that the program has passed on for the pool since. -/
theorem market_history {s₀ : Governed} (hP : ctx.Parties P U) (hU : ∀ κ ∈ P, κ ∉ U)
    (hpools : ∀ k, s₀.world.pool ctx.programId k = none)
    (hrecords : ∀ k, s₀.world.record ctx.programId k = none)
    (hrun : Transition.Run (ctx.GovernedStep program P U) s₀ es s)
    (hp : s.world.pool ctx.programId π = some p) :
    ctx.Replayed program P U s₀ es π p.slab s := by
  have hall : ∀ π p, s.world.pool ctx.programId π = some p →
      ctx.Replayed program P U s₀ es π p.slab s := by
    apply hrun.history (P := fun es s => ∀ π p, s.world.pool ctx.programId π = some p →
      ctx.Replayed program P U s₀ es π p.slab s)
    · intro π p hp
      rw [hpools π] at hp
      cases hp
    · intro es s e s' hpre hI hs π p' hp'
      have hgov : ctx.Governs program P U es s := ⟨s₀, hpools, hrecords, hpre⟩
      obtain ⟨hcoherent, hstaked⟩ := hgov.staked hP hU
      cases hbefore : s.world.pool ctx.programId π with
      | none =>
        obtain ⟨ix, accounts, a, m, rfl, hix, hπ, hf⟩ := hs.founded hP hcoherent hbefore hp'
        refine ⟨es, ix, accounts, [], s, a, m, rfl, hpre, hix, hf.next_eq, hπ, hf.signed,
          hf.before, ?_, _, rfl, ?_⟩
        · rw [hf.authority_eq, hf.admin_eq]
        · rw [hf.markets_eq, Function.update_self, hπ]
      | some p =>
        rw [hs.system.slab_eq hbefore hp']
        apply (hI π p hbefore).snoc
        intro m hm
        obtain ⟨m₁, hm₁, hauth, -⟩ := hstaked π p hbefore
        obtain rfl : m = m₁ := Option.some_inj.mp (hm.symm.trans hm₁)
        rcases hs.market hU hcoherent (hcoherent.step hP hs.system).allChartered hbefore hm hauth
          with hsame | ⟨ix, accounts, c, a, m', -, -, hc, ho⟩
        · exact .inl hsame
        · refine .inr ⟨c, m', hc, ho.obey_eq, ?_⟩
          rw [ho.markets_eq, Function.update_self]
  exact hall π p hp

/-- Signed over with the fee split its admin gave it, and then given a maintenance fee. -/
theorem Sample.market_history_mandate : twinCtx.Replayed marketProgram {k | k ∈ twinPools}
    {k | twinSigns k = true} chartered mandate (twinPool 11) (key 11) (ruled mandate) ∧
    (ruled mandate).markets (key 11) = some ⟨twinPool 11, false, (5000, 3000, 2000), 7⟩ := by
  have hstate : ((ruled mandate).world.pool twinCtx.programId (twinPool 11)).map (·.slab) =
      some (key 11) ∧
      (ruled mandate).markets (key 11) = some ⟨twinPool 11, false, (5000, 3000, 2000), 7⟩ := by
    decide +kernel
  obtain ⟨hpool, hmarket⟩ := hstate
  obtain ⟨p, hp, hslab⟩ := Option.map_eq_some_iff.mp hpool
  have h := market_history twin_parties twin_unsigned chartered_pools chartered_records
    (ruled_run mandate (by decide +kernel)) hp
  rw [hslab] at h
  exact ⟨h, hmarket⟩

/-! ## The three commands stay open -/

theorem Derivation.create_poolSeeds (d : Derivation) (programId slab : Pubkey) :
    d.createProgramAddress (poolSeeds slab (d.derivePoolPda programId slab).2) programId =
      some (d.derivePoolPda programId slab).1 :=
  d.create_find [stakePoolSeed, slab.toList] programId

/-- The accounts of a proxy for the pool `p` at `π`, as its admin passes them. -/
structure MarketAccounts.For (a : MarketAccounts) (π : Pubkey) (p : StakePool) : Prop where
  signed : a.admin.isSigner = true
  admin_eq : a.admin.key = p.admin
  pool_eq : a.poolPda.key = π
  slab_eq : a.slab.key = p.slab
  slab_writable : a.slab.isWritable = true
  program_eq : a.percolatorProgram.key = p.percolatorProgram

section

variable {w w' : World} {t : TokenAccount} {m : Mint} {ix : StakeInstruction} {c : MarketCommand}
  {accounts : List AccountInfo} {a : MarketAccounts} {d : Dispatch}

/-- What the admin of a pool gets through to a call. -/
theorem Standing.dispatch_command (h : Standing ctx π w p t m) (ha : a.For π p)
    (hnext : MarketAccounts.next accounts = .ok a) (hc : ix.command = some c) :
    dispatch ctx w accounts ix = .ok d ↔
      (c = .resolveMarket → p.wrapperFullyRecovered = true) ∧
        d = ⟨w, [c.call a p.bump], .ok⟩ := by
  obtain ⟨howner, hdata, hread⟩ := h.readPool_eq ha.pool_eq
  have hvalid : validateGroupAProxy ctx w a.admin a.poolPda a.slab a.percolatorProgram =
      .ok p.bump := by
    simp [validateGroupAProxy, requireSigner, validateAccountOwner, validateAccountNotEmpty,
      rejectIf, ok_bind, ha.signed, howner, hdata, hread, ha.admin_eq, ha.slab_eq, ha.program_eq]
  have hgroup : ∀ {build : Pubkey → Pubkey → Pubkey → Instruction},
      build a.percolatorProgram.key a.poolPda.key a.slab.key = (c.call a p.bump).ix →
      c ≠ .resolveMarket → (dispatchGroupAProxy ctx w accounts build = .ok d ↔
        (c = .resolveMarket → p.wrapperFullyRecovered = true) ∧
          d = ⟨w, [c.call a p.bump], .ok⟩) := by
    intro build hbuild hne
    unfold dispatchGroupAProxy
    rw [hnext, ok_bind, hvalid, ok_bind, hbuild, ok_eq_ok]
    refine ⟨fun e => ⟨fun e => (hne e).elim, e.symm⟩, fun e => e.2.symm⟩
  cases ix with
  | adminResolveMarket =>
    cases hc
    have hdispatch : dispatch ctx w accounts .adminResolveMarket =
        resolveGate p >>= fun _ => .ok ⟨w, [MarketCommand.resolveMarket.call a p.bump], .ok⟩ := by
      unfold dispatch dispatchAdminResolveMarket requireSigner validateAccountOwner
        validateAccountNotEmpty
      simp only [hnext, ok_bind, ha.signed, howner, hdata, hread, ha.admin_eq, ha.slab_eq,
        ha.program_eq, rejectIf, ne_eq, not_true_eq_false, if_false, reduceCtorEq]
      unfold MarketCommand.call
      rw [ha.slab_eq, ha.program_eq]
      rfl
    rw [hdispatch, bind_eq_ok]
    simp only [resolveGate, rejectIf_eq_ok, Bool.not_eq_false, ok_eq_ok, exists_const,
      forall_const]
    exact and_congr_right fun _ => eq_comm
  | adminUpdateFeeSplit | adminUpdateMaintenanceFeePerSlot =>
    cases hc
    unfold dispatch
    exact hgroup rfl (by intro e; cases e)
  | _ => cases hc

/-- The pool signs its own commands, so only the wrapper can turn them down. -/
theorem Standing.issue_command {gate : World → Instruction → Bool} (h : Standing ctx π w p t m)
    (ha : a.For π p) (hc : ix.command = some c) :
    (ctx.gated gate).issue w (c.call a p.bump) = .ok w' ↔
      (ctx.wrapper.accepts w (c.call a p.bump).ix && gate w (c.call a p.bump).ix) = true ∧
        w' = w := by
  have hcreate : ctx.derivation.createProgramAddress (Derivation.poolSeeds a.slab.key p.bump)
      ctx.programId = some a.poolPda.key := by
    have hpool : ctx.derivation.derivePoolPda ctx.programId p.slab = (π, p.bump) :=
      h.chartered.pool_eq
    have hseeds := ctx.derivation.create_poolSeeds ctx.programId p.slab
    rw [hpool] at hseeds
    rw [ha.slab_eq, ha.pool_eq]
    exact hseeds
  have hid : (c.call a p.bump).ix.programId ≠ splTokenId := by
    have hkey : (c.call a p.bump).ix.programId = a.percolatorProgram.key := by cases c <;> rfl
    rw [hkey, ha.program_eq]
    exact h.program_ne
  have hsigners : (c.call a p.bump).seeds.filterMap (fun s =>
      ctx.derivation.createProgramAddress s ctx.programId) = [a.poolPda.key] := by
    simp [MarketCommand.call, hcreate]
  have haccounts : (c.call a p.bump).ix.accounts =
      [.readonly a.poolPda.key true, .writable a.slab.key false] := by
    cases ix <;> cases hc <;> rfl
  have hprivileged : (c.call a p.bump).ix.accounts.all (Context.privileged (c.call a p.bump).infos
      ((c.call a p.bump).seeds.filterMap fun s =>
        ctx.derivation.createProgramAddress s ctx.programId)) = true := by
    rw [hsigners, haccounts]
    simp [MarketCommand.call, Context.privileged, AccountMeta.readonly, AccountMeta.writable,
      ha.slab_writable]
  exact (Context.invokeSigned_wrapper hid (by exact hprivileged)).trans
    ((ctx.wrapper.gated gate).administrative (c.administrative ..))

end

/-- Resolution, the fee split and the maintenance fee stay open: in every state that is
reached the admin gets each of the three through, and it does to the market what the former
authority could have done with it, unless the wrapper's own checks are against it.
Resolution waits for the insurance. -/
theorem market_open {ix : StakeInstruction} {c : MarketCommand} {accounts : List AccountInfo}
    {a : MarketAccounts} (hP : ctx.Parties P U) (hU : ∀ κ ∈ P, κ ∉ U)
    (h : ctx.Governs program P U es s) (hp : s.world.pool ctx.programId π = some p)
    (hc : ix.command = some c) (hnext : MarketAccounts.next accounts = .ok a)
    (ha : a.For π p) :
    ctx.processGoverned program s accounts ix = .ok s' ↔
      (c = .resolveMarket → p.wrapperFullyRecovered = true) ∧
      ctx.wrapper.accepts s.world (c.call a p.bump).ix = true ∧
      program.admits s.markets s.world (c.call a p.bump).ix = true ∧
      ∃ m m', s.markets p.slab = some m ∧ m.obey c = some m' ∧
        s' = ⟨s.world, Function.update s.markets p.slab (some m')⟩ := by
  obtain ⟨hcoherent, hstaked⟩ := h.staked hP hU
  obtain ⟨-, t, mint, hst⟩ := hcoherent.standing π p hp
  obtain ⟨m, hm, hauth, -⟩ := hstaked π p hp
  have hreceive : ∀ {M}, program.receive s.markets (c.call a p.bump).ix = .ok M ↔
      ∃ m m', s.markets p.slab = some m ∧ m.obey c = some m' ∧
        M = Function.update s.markets p.slab (some m') := by
    intro M
    have hmainnet : a.percolatorProgram.key = percolatorMainnet :=
      ha.program_eq.trans hst.chartered.program
    unfold MarketCommand.call
    rw [hmainnet, ha.slab_eq, ha.pool_eq, MarketProgram.receive_eq_ok (by cases c <;> rfl),
      program.command]
    constructor
    · rintro ⟨m₁, m', hm₁, -, hobey, hM⟩
      exact ⟨m₁, m', hm₁, hobey, hM⟩
    · rintro ⟨m₁, m', hm₁, hobey, hM⟩
      obtain rfl : m₁ = m := Option.some_inj.mp (hm₁.symm.trans hm)
      exact ⟨m₁, m', hm₁, hauth, hobey, hM⟩
  unfold Context.processGoverned
  simp only [bind_eq_ok, hst.dispatch_command ha hnext hc, ok_eq_ok]
  constructor
  · rintro ⟨d, ⟨hgate, rfl⟩, s₁, hs₁, w', hw', rfl⟩
    unfold Context.issueAllGoverned Context.issueAllGoverned Context.issueGoverned at hs₁
    simp only [bind_eq_ok, ok_eq_ok] at hs₁
    obtain ⟨s₂, ⟨w₂, hw₂, M₂, hM₂, rfl⟩, rfl⟩ := hs₁
    obtain ⟨haccepts, rfl⟩ := (hst.issue_command ha hc).mp hw₂
    rw [Bool.and_eq_true] at haccepts
    obtain ⟨m, m', hm, hobey, rfl⟩ := hreceive.mp hM₂
    obtain rfl : s.world = w' := Except.ok.inj hw'
    exact ⟨hgate, haccepts.1, haccepts.2, m, m', hm, hobey, rfl⟩
  · rintro ⟨hgate, haccepts, hadmits, m, m', hm, hobey, rfl⟩
    refine ⟨_, ⟨hgate, rfl⟩, ⟨s.world, Function.update s.markets p.slab (some m')⟩, ?_, s.world,
      rfl, rfl⟩
    unfold Context.issueAllGoverned Context.issueAllGoverned Context.issueGoverned
    simp only [bind_eq_ok, ok_eq_ok]
    refine ⟨_, ⟨s.world, (hst.issue_command ha hc).mpr ⟨?_, rfl⟩, _,
      hreceive.mpr ⟨m, m', hm, hobey, rfl⟩, rfl⟩, rfl⟩
    rw [haccepts, hadmits]
    rfl

/-- Resolution once the insurance is back. -/
theorem Sample.market_open_mandate : ∃ s', twinCtx.processGoverned marketProgram (ruled mandate)
    [signer (key admin), readonly (twinPool 11), writable (key 11), readonly percolatorMainnet]
    .adminResolveMarket = .ok s' ∧
      (s'.markets (key 11)).map Market.resolved = some true := by
  have hstate : ((ruled mandate).world.pool twinCtx.programId (twinPool 11)).map
      (fun p => (p.slab, p.admin, p.percolatorProgram, p.wrapperFullyRecovered)) =
        some (key 11, key admin, percolatorMainnet, true) ∧
      ((ruled mandate).markets (key 11)).map Market.resolved = some false := by
    decide +kernel
  obtain ⟨hpool, hmarket⟩ := hstate
  obtain ⟨p, hp, hfields⟩ := Option.map_eq_some_iff.mp hpool
  obtain ⟨m, hm, hlive⟩ := Option.map_eq_some_iff.mp hmarket
  simp only [Prod.mk.injEq] at hfields
  obtain ⟨hslab, hadmin, hprogram, hrecovered⟩ := hfields
  have hobey : m.obey .resolveMarket = some { m with resolved := true } := by
    show (if m.resolved = true then none else some { m with resolved := true }) = _
    rw [hlive]
    rfl
  refine ⟨_, (market_open (a := proxyAccounts 11) twin_parties twin_unsigned
    ⟨chartered, chartered_pools, chartered_records, ruled_run _ (by decide +kernel)⟩ hp rfl rfl
    ⟨rfl, hadmin.symm, rfl, hslab.symm, rfl, hprogram.symm⟩).mpr
    ⟨fun _ => hrecovered, rfl, rfl, m, _, by rw [hslab, hm], hobey, rfl⟩, ?_⟩
  show (Function.update (ruled mandate).markets p.slab (some { m with resolved := true })
    (key 11)).map Market.resolved = some true
  rw [hslab, Function.update_self]
  rfl

end

end PercolatorStake
