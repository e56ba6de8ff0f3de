import PercolatorStake.Market
import PercolatorStake.Custody
import PercolatorStake.Composition
import PercolatorStake.WireFidelity

/-!
# The program next to its markets

The creation of a pool makes the pool's address the authority of its market, and three
proxies pass the admin's commands on.  Here the program runs next to a wrapper that keeps
the markets: what an instruction does to them, and what one event of a deployment does.
-/

namespace PercolatorStake

open Bytes Result Word

/-! ## What the program passes on -/

/-- The command that an instruction is the proxy of. -/
def StakeInstruction.command : StakeInstruction → Option MarketCommand
  | .adminResolveMarket => some .resolveMarket
  | .adminUpdateFeeSplit creatorShareBps lpShareBps insuranceShareBps =>
    some (.updateFeeSplit creatorShareBps lpShareBps insuranceShareBps)
  | .adminUpdateMaintenanceFeePerSlot maintenanceFeePerSlot =>
    some (.updateMaintenanceFeePerSlot maintenanceFeePerSlot)
  | _ => none

/-- The command as the pool address sends it. -/
def MarketCommand.call (c : MarketCommand) (a : MarketAccounts) (bump : UInt8) : Call where
  ix := c.instruction a.percolatorProgram.key a.poolPda.key a.slab.key
  infos := [a.poolPda, a.slab]
  seeds := [Derivation.poolSeeds a.slab.key bump]

section

variable {ctx : Context} {w w' : World} {accounts : List AccountInfo} {ix : StakeInstruction}
  {d : Dispatch} {c : MarketCommand} {q : Call}

/-- A proxy does not give the authority away. -/
theorem StakeInstruction.command_keeps {m m' : Market} (hc : ix.command = some c)
    (h : m.obey c = some m') : m'.authority = m.authority := by
  cases ix with
  | adminResolveMarket =>
    cases hc
    have h : (if m.resolved = true then none else some { m with resolved := true }) = some m' := h
    split at h <;> cases h
    rfl
  | adminUpdateFeeSplit | adminUpdateMaintenanceFeePerSlot =>
    cases hc
    cases h
    rfl
  | _ => cases hc

theorem StakeInstruction.command_resolved {m m' : Market} (hc : ix.command = some c)
    (h : m.obey c = some m') : m'.resolved = m.resolved ∨ c = .resolveMarket := by
  cases ix with
  | adminResolveMarket =>
    cases hc
    exact .inr rfl
  | adminUpdateFeeSplit | adminUpdateMaintenanceFeePerSlot =>
    cases hc
    cases h
    exact .inl rfl
  | _ => cases hc

theorem StakeInstruction.command_of_creates (ix : StakeInstruction) (hix : ix.creates = true) :
    ix.command = none := by
  cases ix with
  | initPool | initTradingPool => rfl
  | _ => cases hix

/-- The other handlers command nothing. -/
theorem StakeInstruction.wrapperTag_other {t : UInt8} (ix : StakeInstruction)
    (hix : ix.creates = false) (hc : ix.command = none) (ht : ix.wrapperTag = some t) :
    t ∈ Cpi.otherTags := by
  cases ix with
  | initPool | initTradingPool => cases hix
  | adminResolveMarket | adminUpdateFeeSplit | adminUpdateMaintenanceFeePerSlot => cases hc
  | _ =>
    cases ht
    all_goals decide

/-- A proxy on the pool `p` gets through to its call. -/
structure Context.Proxied (ctx : Context) (w : World) (accounts : List AccountInfo)
    (c : MarketCommand) (a : MarketAccounts) (p : StakePool) : Prop where
  next_eq : MarketAccounts.next accounts = .ok a
  signed : a.admin.isSigner = true
  pool_eq : w.pool ctx.programId a.poolPda.key = some p
  admin_eq : p.admin = a.admin.key
  slab_eq : p.slab = a.slab.key
  program_eq : p.percolatorProgram = a.percolatorProgram.key
  gate : c = .resolveMarket → p.wrapperFullyRecovered = true

theorem dispatchGroupAProxy_command {build : Pubkey → Pubkey → Pubkey → Instruction}
    (hbuild : ∀ a : MarketAccounts, build a.percolatorProgram.key a.poolPda.key a.slab.key =
      (c.call a 0).ix) (hne : c ≠ .resolveMarket)
    (h : dispatchGroupAProxy ctx w accounts build = .ok d) :
    ∃ a p, ctx.Proxied w accounts c a p ∧ d = ⟨w, [c.call a p.bump], .ok⟩ := by
  unfold dispatchGroupAProxy validateGroupAProxy requireSigner at h
  simp only [bind_eq_ok, rejectIf_eq_ok, validateAccountOwner_eq_ok, readPool_eq_ok, not_not,
    Bool.not_eq_false, ok_eq_ok] at h
  obtain ⟨a, ha, bump, ⟨_, hsigner, _, howner, _, -, p, ⟨hp, -⟩, _, hadmin, _, hslab, _,
    hprogram, rfl⟩, rfl⟩ := h
  refine ⟨a, p, ⟨ha, hsigner, pool_of_read howner hp, hadmin, hslab, hprogram,
    fun e => (hne e).elim⟩, ?_⟩
  rw [hbuild]
  rfl

theorem dispatch_command (hc : ix.command = some c) (h : dispatch ctx w accounts ix = .ok d) :
    ∃ a p, ctx.Proxied w accounts c a p ∧ d = ⟨w, [c.call a p.bump], .ok⟩ := by
  cases ix with
  | adminResolveMarket =>
    cases hc
    unfold dispatch dispatchAdminResolveMarket resolveGate requireSigner at h
    simp only [bind_eq_ok, rejectIf_eq_ok, validateAccountOwner_eq_ok, readPool_eq_ok, not_not,
      Bool.not_eq_false, ok_eq_ok] at h
    obtain ⟨a, ha, _, hsigner, _, howner, _, -, p, ⟨hp, -⟩, _, hadmin, _, hslab, _, hprogram, _,
      hgate, rfl⟩ := h
    exact ⟨a, p, ⟨ha, hsigner, pool_of_read howner hp, hadmin, hslab, hprogram, fun _ => hgate⟩,
      rfl⟩
  | adminUpdateFeeSplit | adminUpdateMaintenanceFeePerSlot =>
    cases hc
    unfold dispatch at h
    exact dispatchGroupAProxy_command (fun _ => rfl) (by intro e; cases e) h
  | _ => cases hc

theorem processInitPool_initial {slots cap : UInt64} {a : InitAccounts}
    (h : processInitPool ctx w accounts slots cap = .ok w')
    (ha : InitAccounts.next accounts = .ok a) :
    w'.pool ctx.programId a.poolPda.key = some (initialPool ctx a .zeroed slots cap) := by
  obtain ⟨b, hb, hc⟩ := processInitPool_creates h
  obtain rfl : a = b := Except.ok.inj (ha.symm.trans hb)
  exact hc.after

/-- Whoever creates a pool is its admin. -/
theorem process_founder (hix : ix.creates = true) (h : process ctx w accounts ix = .ok w')
    {a : InitAccounts} {p : StakePool} (ha : InitAccounts.next accounts = .ok a)
    (hp : w'.pool ctx.programId a.poolPda.key = some p) : p.admin = a.admin.key := by
  cases ix with
  | initPool =>
    obtain rfl := Option.some_inj.mp ((processInitPool_initial h ha).symm.trans hp)
    rfl
  | initTradingPool slots cap =>
    unfold process processInitTradingPool at h
    simp only [bind_eq_ok, poolFromData_eq_ok] at h
    obtain ⟨w₁, hw₁, b, hb, _, -, q, hq, _, -, hstore⟩ := h
    obtain rfl : a = b := Except.ok.inj (ha.symm.trans hb)
    have hinitial := processInitPool_initial hw₁ ha
    have hpool : w₁.data a.poolPda = .pool (initialPool ctx a .zeroed slots cap) :=
      congrArg Account.data (World.pool_eq_some.mp hinitial)
    obtain rfl : initialPool ctx a .zeroed slots cap = q :=
      AccountData.pool.inj (hpool.symm.trans hq)
    obtain ⟨-, rfl⟩ := (store_pool_eq_ok rfl hinitial).mp hstore
    rw [World.pool_eq_some.mpr (World.account_set_self ..), Option.some_inj] at hp
    rw [← hp]
    rfl
  | _ => cases hix

end

/-! ## Next to the wrapper -/

/-- The program's world and the wrapper's markets. -/
structure Governed where
  world : World
  markets : Markets

namespace Context

variable (ctx : Context) (program : MarketProgram)

def issueGoverned (s : Governed) (q : Call) : Except ProgramError Governed := do
  let w ← (ctx.gated (program.admits s.markets)).issue s.world q
  let M ← program.receive s.markets q.ix
  .ok ⟨w, M⟩

def issueAllGoverned : Governed → List Call → Except ProgramError Governed
  | s, [] => .ok s
  | s, q :: qs => do
    let s ← ctx.issueGoverned program s q
    issueAllGoverned s qs

/-- `process`, with the markets next to the world. -/
def processGoverned (s : Governed) (accounts : List AccountInfo) (ix : StakeInstruction) :
    Except ProgramError Governed := do
  let d ← dispatch ctx s.world accounts ix
  let s ← ctx.issueAllGoverned program ⟨d.world, s.markets⟩ d.calls
  let w ← d.finish s.world
  .ok ⟨w, s.markets⟩

end Context

/-- What an accepted command does to the market `m`: it comes from the admin of a pool that
governs it. -/
structure Context.Obeyed (ctx : Context) (s : Governed) (accounts : List AccountInfo)
    (c : MarketCommand) (a : MarketAccounts) (p : StakePool) (m m' : Market) (s' : Governed) :
    Prop extends ctx.Proxied s.world accounts c a p where
  before : s.markets p.slab = some m
  authority_eq : m.authority = a.poolPda.key
  obey_eq : m.obey c = some m'
  world_eq : s'.world = s.world
  markets_eq : s'.markets = Function.update s.markets p.slab (some m')

/-- What the creation of a pool does: the authority of the market `m` signs it over to the
pool. -/
structure Context.Founded (ctx : Context) (s : Governed) (accounts : List AccountInfo)
    (a : InitAccounts) (p : StakePool) (m : Market) (s' : Governed) : Prop where
  next_eq : InitAccounts.next accounts = .ok a
  signed : a.admin.isSigner = true
  creates : ctx.Creates s.world a.poolPda.key p s'.world
  admin_eq : p.admin = a.admin.key
  before : s.markets p.slab = some m
  authority_eq : m.authority = p.admin
  markets_eq : s'.markets = Function.update s.markets p.slab
    (some { m with authority := a.poolPda.key })

section

variable {ctx : Context} {program : MarketProgram} {s s' : Governed} {accounts : List AccountInfo}
  {ix : StakeInstruction} {q : Call} {qs : List Call} {M M' : Markets} {w w' : World}

theorem issueAllGoverned_issueAll (h : ctx.issueAllGoverned program s qs = .ok s') :
    ctx.issueAll s.world qs = .ok s'.world := by
  induction qs generalizing s with
  | nil =>
    cases h
    rfl
  | cons q qs ih =>
    unfold Context.issueAllGoverned Context.issueGoverned at h
    simp only [bind_eq_ok, ok_eq_ok] at h
    obtain ⟨s₁, ⟨w₁, hw₁, M₁, -, rfl⟩, hrest⟩ := h
    unfold Context.issueAll
    rw [bind_eq_ok]
    exact ⟨w₁, Context.issue_of_gated hw₁, ih hrest⟩

theorem issueAllGoverned_singleton (h : ctx.issueAllGoverned program s [q] = .ok s') :
    ctx.issue s.world q = .ok s'.world ∧ program.receive s.markets q.ix = .ok s'.markets := by
  unfold Context.issueAllGoverned Context.issueAllGoverned Context.issueGoverned at h
  simp only [bind_eq_ok, ok_eq_ok] at h
  obtain ⟨s₁, ⟨w₁, hw₁, M₁, hM₁, rfl⟩, rfl⟩ := h
  exact ⟨Context.issue_of_gated hw₁, hM₁⟩

/-- Forgetting the markets, the program does what it does. -/
theorem processGoverned_process (h : ctx.processGoverned program s accounts ix = .ok s') :
    process ctx s.world accounts ix = .ok s'.world := by
  unfold Context.processGoverned at h
  simp only [bind_eq_ok, ok_eq_ok] at h
  obtain ⟨d, hd, s₁, hs₁, w', hw', rfl⟩ := h
  rw [process_eq_dispatch, bind_eq_ok]
  refine ⟨d, hd, ?_⟩
  unfold Context.run
  rw [bind_eq_ok]
  exact ⟨s₁.world, issueAllGoverned_issueAll hs₁, hw'⟩

/-- Calls that are no command leave the markets. -/
theorem issueAllGoverned_markets (h : ctx.issueAllGoverned program s qs = .ok s')
    (hqs : ∀ q ∈ qs, ∃ t, q.ix.data.head? = some t ∧ t ∈ Cpi.otherTags) :
    s'.markets = s.markets := by
  induction qs generalizing s with
  | nil =>
    cases h
    rfl
  | cons q qs ih =>
    unfold Context.issueAllGoverned Context.issueGoverned at h
    simp only [bind_eq_ok, ok_eq_ok] at h
    obtain ⟨s₁, ⟨w₁, -, M₁, hM₁, rfl⟩, hrest⟩ := h
    have hsame : M₁ = s.markets := by
      by_cases hid : q.ix.programId = percolatorMainnet
      · obtain ⟨t, hhead, ht⟩ := hqs q List.mem_cons_self
        exact program.other hhead ht ((MarketProgram.receive_eq_ok hid).mp hM₁)
      · exact (Except.ok.inj ((if_neg hid).symm.trans hM₁)).symm
    exact (ih hrest fun q hq => hqs q (List.mem_cons_of_mem _ hq)).trans hsame

/-- The creation of a pool is tag 32 with the address of the pool as the successor. -/
theorem processGoverned_founds (hix : ix.creates = true)
    (h : ctx.processGoverned program s accounts ix = .ok s') :
    ∃ a p m, ctx.Founded s accounts a p m s' := by
  have hprocess := processGoverned_process h
  unfold Context.processGoverned at h
  simp only [bind_eq_ok, ok_eq_ok] at h
  obtain ⟨d, hd, s₁, hs₁, w', hw', rfl⟩ := h
  obtain ⟨a, slots, bump, ha, hval, hcalls⟩ := dispatch_created hd hix
  obtain ⟨b, p, hb, hcreates, hslab, -⟩ := process_creates hprocess hix
  obtain rfl : a = b := Except.ok.inj (ha.symm.trans hb)
  have hadmin := process_founder hix hprocess ha hcreates.after
  rw [hcalls] at hs₁
  obtain ⟨-, hM⟩ := issueAllGoverned_singleton hs₁
  rw [(validateInit_eq_ok hval).1] at hM
  obtain ⟨m, m', hm, hauthority, hobey, hmarkets⟩ :=
    (program.command (c := .updateAuthority a.poolPda.key)).mp
      ((MarketProgram.receive_eq_ok rfl).mp hM)
  cases hobey
  refine ⟨a, p, m, ⟨ha, validateInit_signed hval, hcreates, hadmin, ?_, ?_, ?_⟩⟩
  · rw [hslab]
    exact hm
  · rw [hadmin]
    exact hauthority
  · rw [hslab]
    exact hmarkets

/-- A proxy is the command of its admin to the market of its pool. -/
theorem processGoverned_obeys {c : MarketCommand} (hall : ctx.AllChartered s.world)
    (hc : ix.command = some c) (h : ctx.processGoverned program s accounts ix = .ok s') :
    ∃ a p m m', ctx.Obeyed s accounts c a p m m' s' := by
  unfold Context.processGoverned at h
  simp only [bind_eq_ok, ok_eq_ok] at h
  obtain ⟨d, hd, s₁, hs₁, w', hw', rfl⟩ := h
  obtain ⟨a, p, hproxied, rfl⟩ := dispatch_command hc hd
  obtain ⟨hw, hM⟩ := issueAllGoverned_singleton hs₁
  have hmainnet : a.percolatorProgram.key = percolatorMainnet :=
    hproxied.program_eq.symm.trans (hall _ p hproxied.pool_eq).program
  have hworld : s₁.world = s.world := Context.world_of_invokeSigned (c.administrative ..) hw
  have hfinal : w' = s.world := (Except.ok.inj hw').symm.trans hworld
  unfold MarketCommand.call at hM
  rw [hmainnet, ← hproxied.slab_eq] at hM
  have hhandle := (MarketProgram.receive_eq_ok (by cases c <;> rfl)).mp hM
  obtain ⟨m, m', hm, hauthority, hobey, hmarkets⟩ := program.command.mp hhandle
  rw [hfinal]
  exact ⟨a, p, m, m', hproxied, hm, hauthority, hobey, rfl, hmarkets⟩

/-- An instruction founds a pool, or passes on a command, or leaves the markets. -/
theorem processGoverned_cases (hall : ctx.AllChartered s.world)
    (h : ctx.processGoverned program s accounts ix = .ok s') :
    (ix.creates = true ∧ ∃ a p m, ctx.Founded s accounts a p m s') ∨
      (∃ c a p m m', ix.command = some c ∧ ctx.Obeyed s accounts c a p m m' s') ∨
      (ix.creates = false ∧ ix.command = none ∧ s'.markets = s.markets) := by
  cases hix : ix.creates with
  | true => exact .inl ⟨rfl, processGoverned_founds hix h⟩
  | false =>
    refine .inr ?_
    cases hc : ix.command with
    | some c =>
      obtain ⟨a, p, m, m', ho⟩ := processGoverned_obeys hall hc h
      exact .inl ⟨c, a, p, m, m', rfl, ho⟩
    | none =>
      unfold Context.processGoverned at h
      simp only [bind_eq_ok, ok_eq_ok] at h
      obtain ⟨d, hd, s₁, hs₁, w', -, rfl⟩ := h
      have hsame : s₁.markets = s.markets := by
        apply issueAllGoverned_markets hs₁
        intro q hq
        obtain ⟨t, ht, hhead⟩ := dispatch_tag hd hq
        exact ⟨t, hhead, ix.wrapperTag_other hix hc ht⟩
      exact .inr ⟨rfl, rfl, hsame⟩

/-- A flush reaches a live market. -/
theorem live_of_flush {amount : UInt64} {a : AccountInfo} {p : StakePool}
    (hall : ctx.AllChartered s.world) (ha : accounts[1]? = some a)
    (hp : s.world.pool ctx.programId a.key = some p)
    (h : ctx.processGoverned program s accounts (.flushToInsurance amount) = .ok s') :
    ∃ m, s.markets p.slab = some m ∧ m.resolved = false := by
  unfold Context.processGoverned dispatch dispatchFlushToInsurance at h
  simp only [bind_eq_ok, rejectIf_eq_ok, validateAccountOwner_eq_ok, readPool_eq_ok, not_not,
    ok_eq_ok] at h
  obtain ⟨d, ⟨_, -, b, hb, _, -, _, howner, _, -, _, -, _, -, q, ⟨hq, -⟩, _, -, _, hslab, _, -,
    _, hprogram, _, -, _, -, _, -, _, -, _, -, _, -, rfl⟩, s₁, hs₁, w', -, rfl⟩ := h
  obtain rfl : a = b.poolPda := Option.some_inj.mp (ha.symm.trans (FlushAccounts.next_eq_ok hb))
  obtain rfl : q = p := Option.some_inj.mp ((pool_of_read howner hq).symm.trans hp)
  have hmainnet : b.percolatorProgram.key = percolatorMainnet :=
    hprogram.symm.trans (hall _ q hp).program
  obtain ⟨-, hM⟩ := issueAllGoverned_singleton hs₁
  rw [hmainnet] at hM
  rw [hslab]
  exact program.topUpInsurance ((MarketProgram.receive_eq_ok rfl).mp hM)

end

/-! ## Runs -/

/-- One event of the deployment next to the wrapper.  The keys of `U` sign, and nobody but
the wrapper writes its markets. -/
def Context.GovernedStep (ctx : Context) (program : MarketProgram) (P U : Set Pubkey)
    (s : Governed) (e : CustodyEvent) (s' : Governed) : Prop :=
  match e with
  | .stake ix accounts =>
    (∀ a, ix.poolAccount accounts = some a → a.key ∈ P) ∧
      (∀ a ∈ accounts, a.isSigner = true → a.key ∈ U) ∧
      ctx.processGoverned program s accounts ix = .ok s'
  | .wrapper ix =>
    (∀ a ∈ ix.accounts, a.isSigner = true → a.pubkey ∈ U) ∧
      program.handle s.markets ix = some s'.markets ∧ ctx.Elsewhere U s.world s'.world
  | .outside => s'.markets = s.markets ∧ ctx.Elsewhere U s.world s'.world

/-- `s` is reached from a world without a pool and without a record, and whatever markets
there are. -/
def Context.Governs (ctx : Context) (program : MarketProgram) (P U : Set Pubkey)
    (es : List CustodyEvent) (s : Governed) : Prop :=
  ∃ s₀ : Governed, (∀ k, s₀.world.pool ctx.programId k = none) ∧
    (∀ k, s₀.world.record ctx.programId k = none) ∧
    Transition.Run (ctx.GovernedStep program P U) s₀ es s

/-- The event without the markets. -/
def CustodyEvent.event : CustodyEvent → Event
  | .stake ix accounts => .instruction ix accounts
  | _ => .outside 0

/-- The command that an event passes on for the pool at `π`. -/
def CustodyEvent.commandOn (π : Pubkey) : CustodyEvent → Option MarketCommand
  | .stake ix accounts =>
    if accounts[1]?.map AccountInfo.key = some π then ix.command else none
  | _ => none

section

variable {ctx : Context} {program : MarketProgram} {P U : Set Pubkey} {π : Pubkey}
  {s s' : Governed} {e : CustodyEvent} {es : List CustodyEvent} {p p' : StakePool} {m : Market}

theorem Context.GovernedStep.system (h : ctx.GovernedStep program P U s e s') :
    ctx.SystemStep P U s.world e.event s'.world := by
  cases e with
  | stake ix accounts =>
    obtain ⟨hpool, hsign, hprocess⟩ := h
    exact ⟨hpool, hsign, processGoverned_process hprocess⟩
  | wrapper ix =>
    obtain ⟨-, -, helsewhere⟩ := h
    exact helsewhere
  | outside =>
    obtain ⟨-, helsewhere⟩ := h
    exact helsewhere

/-- Without the markets it is a run of the whole program. -/
theorem Context.Governs.system (h : ctx.Governs program P U es s) :
    ctx.System P U (es.map CustodyEvent.event) s.world := by
  obtain ⟨s₀, hpools, hrecords, hrun⟩ := h
  refine ⟨s₀.world, hpools, hrecords, ?_⟩
  clear hpools hrecords
  induction es generalizing s₀ with
  | nil =>
    cases hrun
    rfl
  | cons e es ih =>
    obtain ⟨s₁, hs₁, hrest⟩ := hrun
    exact ⟨s₁.world, hs₁.system, ih s₁ hrest⟩

theorem Context.Coherent.allChartered {w : World} (h : ctx.Coherent P U w) :
    ctx.AllChartered w := by
  intro k p hp
  obtain ⟨-, t, m, hst⟩ := h.standing k p hp
  exact hst.chartered

/-- The market of a pool stays the same. -/
theorem Context.SystemStep.slab_eq {w w' : World} {e : Event} (hs : ctx.SystemStep P U w e w')
    (hp : w.pool ctx.programId π = some p) (hp' : w'.pool ctx.programId π = some p') :
    p'.slab = p.slab := by
  have hsame : w'.pool ctx.programId π = w.pool ctx.programId π → p'.slab = p.slab := by
    intro h
    rw [hp', hp, Option.some_inj] at h
    rw [h]
  cases e with
  | outside y =>
    have hout : ctx.Elsewhere U w w' := hs
    exact hsame (hout.pool_eq π)
  | instruction ix accounts =>
    obtain ⟨-, -, hd⟩ := hs
    obtain ⟨a, ha, hpool⟩ := process_pool hd
    by_cases hπ : π = a.key
    · subst hπ
      rcases hpool with ⟨-, q, q', hrw⟩ | ⟨-, q, hc⟩
      · obtain rfl : q = p := Option.some_inj.mp (hrw.before.symm.trans hp)
        obtain rfl : q' = p' := Option.some_inj.mp (hrw.after.symm.trans hp')
        exact congrArg Charter.slab hrw.charter_eq
      · rw [hc.before] at hp
        cases hp
    · exact hsame (process_others hd ha hπ)

/-- The markets of other pools are left by the founding of one. -/
theorem Context.Founded.market_stays {accounts : List AccountInfo} {a : InitAccounts}
    {q : StakePool} (hf : ctx.Founded s accounts a q m s') (h' : ctx.AllChartered s'.world)
    (hp : s.world.pool ctx.programId π = some p) : s'.markets p.slab = s.markets p.slab := by
  have hne : π ≠ a.poolPda.key := by
    rintro rfl
    rw [hf.creates.before] at hp
    cases hp
  have hp' := (hf.creates.others π hne).trans hp
  rw [hf.markets_eq, Function.update_of_ne fun hslab =>
    hne (h'.address_eq hp' hf.creates.after hslab)]

theorem Context.Obeyed.market_stays {accounts : List AccountInfo} {c : MarketCommand}
    {a : MarketAccounts} {q : StakePool} {m' : Market}
    (ho : ctx.Obeyed s accounts c a q m m' s') (hall : ctx.AllChartered s.world)
    (hp : s.world.pool ctx.programId π = some p) (hne : a.poolPda.key ≠ π) :
    s'.markets p.slab = s.markets p.slab := by
  rw [ho.markets_eq, Function.update_of_ne fun hslab =>
    hne (hall.address_eq hp ho.pool_eq hslab).symm]

/-- What one event does to the market that a pool governs. -/
theorem Context.GovernedStep.market (hU : ∀ κ ∈ P, κ ∉ U) (h : ctx.Coherent P U s.world)
    (h' : ctx.AllChartered s'.world) (hs : ctx.GovernedStep program P U s e s')
    (hp : s.world.pool ctx.programId π = some p) (hm : s.markets p.slab = some m)
    (hauth : m.authority = π) :
    (e.commandOn π = none ∧ s'.markets p.slab = some m) ∨
      ∃ ix accounts c a m', e = .stake ix accounts ∧ ix.command = some c ∧
        e.commandOn π = some c ∧ ctx.Obeyed s accounts c a p m m' s' := by
  have hπ := (h.standing π p hp).1
  cases e with
  | stake ix accounts =>
    rcases processGoverned_cases h.allChartered hs.2.2 with ⟨hix, a, q, m₁, hf⟩ |
      ⟨c, a, q, m₁, m', hc, ho⟩ | ⟨hix, hc, hsame⟩
    · refine .inl ⟨?_, (hf.market_stays h' hp).trans hm⟩
      show (if _ then ix.command else none) = none
      rw [ix.command_of_creates hix, ite_self]
    · have hpool : accounts[1]? = some a.poolPda := MarketAccounts.next_eq_ok ho.next_eq
      by_cases hk : a.poolPda.key = π
      · subst hk
        obtain rfl : q = p := Option.some_inj.mp (ho.pool_eq.symm.trans hp)
        obtain rfl : m₁ = m := Option.some_inj.mp (ho.before.symm.trans hm)
        refine .inr ⟨ix, accounts, c, a, m', rfl, hc, ?_, ho⟩
        show (if accounts[1]?.map AccountInfo.key = some a.poolPda.key then ix.command
          else none) = _
        rw [hpool, Option.map_some, if_pos rfl, hc]
      · refine .inl ⟨?_, (ho.market_stays h.allChartered hp hk).trans hm⟩
        show (if accounts[1]?.map AccountInfo.key = some π then ix.command else none) = none
        rw [hpool, Option.map_some, if_neg fun e => hk (Option.some_inj.mp e)]
    · refine .inl ⟨?_, by rw [hsame, hm]⟩
      show (if _ then ix.command else none) = none
      rw [hc, ite_self]
  | wrapper ix =>
    obtain ⟨hsign, hhandle, -⟩ := hs
    refine .inl ⟨rfl, program.unsigned hhandle hm ?_⟩
    intro a ha hsigned hk
    rw [hauth] at hk
    exact hU π hπ (hk ▸ hsign a ha hsigned)
  | outside => exact .inl ⟨rfl, (congrFun hs.1 p.slab).trans hm⟩

/-- A pool that comes into being is founded by its market's authority. -/
theorem Context.GovernedStep.founded (hP : ctx.Parties P U) (h : ctx.Coherent P U s.world)
    (hs : ctx.GovernedStep program P U s e s') (hbefore : s.world.pool ctx.programId π = none)
    (hp' : s'.world.pool ctx.programId π = some p') :
    ∃ ix accounts a m, e = .stake ix accounts ∧ ix.creates = true ∧ a.poolPda.key = π ∧
      ctx.Founded s accounts a p' m s' := by
  obtain ⟨hfounds, -⟩ := h.genesis hP hs.system hbefore hp'
  cases e with
  | wrapper | outside => exact hfounds.elim
  | stake ix accounts =>
    obtain ⟨hix, b, hb, rfl⟩ := hfounds
    rcases processGoverned_cases h.allChartered hs.2.2 with ⟨-, a, q, m, hf⟩ |
      ⟨c, a, q, m, m', hc, -⟩ | ⟨hno, -⟩
    · have hk : b = a.poolPda := by
        have hthird : ix.poolAccount accounts = accounts[2]? := by
          cases ix <;> first | rfl | cases hix
        rw [hthird, InitAccounts.next_eq_ok hf.next_eq] at hb
        exact (Option.some_inj.mp hb).symm
      rw [hk, hf.creates.after, Option.some_inj] at hp'
      rw [hk, ← hp']
      exact ⟨ix, accounts, a, m, rfl, hix, rfl, hf⟩
    · rw [ix.command_of_creates hix] at hc
      cases hc
    · rw [hix] at hno
      cases hno

end

end PercolatorStake
