import PercolatorStake.Dispatch
import PercolatorStake.Deployment

/-!
# Whose market a signature reaches

The program signs for a pool in two ways, as the pool address and as its vault
authority.  What it sends to the wrapper with either signature goes to the pool's
wrapper program.  It names the pool's market, except that the recovery of flushed
insurance takes the market from its caller.
-/

namespace PercolatorStake

open Result Word

/-! ## Calls -/

/-- The market account an instruction to the wrapper names. -/
def Instruction.market (ix : Instruction) : Option Pubkey :=
  match ix.data with
  | 32 :: _ | 65 :: _ => ix.accounts[2]?.map AccountMeta.pubkey
  | _ => ix.accounts[1]?.map AccountMeta.pubkey

/-- Signed as the pool `p` at `π`, or as its vault authority. -/
def Call.SignedBy (c : Call) (π : Pubkey) (p : StakePool) : Prop :=
  ∃ bump, Derivation.vaultAuthSeeds π bump ∈ c.seeds ∨ Derivation.poolSeeds p.slab bump ∈ c.seeds

/-- Sent to the wrapper program of the pool `p`, about its market. -/
def Call.BoundTo (c : Call) (p : StakePool) : Prop :=
  c.ix.programId = p.percolatorProgram ∧ c.ix.market = some p.slab

/-- The market that an instruction on the pool `p` sends its calls about. -/
def StakeInstruction.market (ix : StakeInstruction) (accounts : List AccountInfo)
    (p : StakePool) : Option Pubkey :=
  match ix with
  | .recoverFlushedInsurance _ => accounts[4]?.map AccountInfo.key
  | _ => some p.slab

/-- What the calls of the handler on the pool `p` at `k` have in common. -/
structure Call.Sent (ctx : Context) (w : World) (ix : StakeInstruction)
    (accounts : List AccountInfo) (c : Call) (k : Pubkey) (p : StakePool) : Prop where
  pool_eq : w.pool ctx.programId k = some p
  program_eq : c.ix.programId = p.percolatorProgram
  market_eq : c.ix.market = ix.market accounts p
  seeds_eq : ∀ s ∈ c.seeds, (∃ bump, s = Derivation.vaultAuthSeeds k bump) ∨
    ∃ bump, s = Derivation.poolSeeds p.slab bump

section

variable {ctx : Context} {w : World} {accounts : List AccountInfo} {d : Dispatch} {c : Call}

theorem bindMarket_eq_ok {p : StakePool} {k v s g : AccountInfo} {bump : UInt8}
    (h : bindMarket ctx p k v s g = .ok bump) :
    p.slab = s.key ∧ p.percolatorProgram = g.key ∧ v.key = ctx.vaultAuthority k.key := by
  unfold bindMarket at h
  simp only [bind_eq_ok, rejectIf_eq_ok, not_not] at h
  obtain ⟨_, hslab, _, hprogram, _, hauth, -⟩ := h
  exact ⟨hslab, hprogram, hauth⟩

theorem dispatchFlushToInsurance_sent {amount : UInt64}
    (h : dispatchFlushToInsurance ctx w accounts amount = .ok d) (hc : c ∈ d.calls) :
    ∃ a p, accounts[1]? = some a ∧ c.Sent ctx w (.flushToInsurance amount) accounts a.key p := by
  unfold dispatchFlushToInsurance at h
  simp only [bind_eq_ok, rejectIf_eq_ok, validateAccountOwner_eq_ok, readPool_eq_ok, not_not,
    ok_eq_ok] at h
  obtain ⟨_, -, a, ha, _, -, _, howner, _, -, _, -, _, -, p, ⟨hp, -⟩, _, -, _, hslab, _, -, _,
    hprogram, _, -, _, -, _, -, _, -, _, -, _, -, rfl⟩ := h
  rw [List.mem_singleton.mp hc]
  refine ⟨a.poolPda, p, FlushAccounts.next_eq_ok ha,
    ⟨pool_of_read howner hp, hprogram.symm, ?_, ?_⟩⟩
  · show _ = some p.slab
    rw [hslab]
    rfl
  · intro s hs
    exact .inl ⟨_, List.mem_singleton.mp hs⟩

/-- The market account of a recovery is the caller's choice. -/
theorem dispatchRecoverFlushedInsurance_sent {amount : UInt64}
    (h : dispatchRecoverFlushedInsurance ctx w accounts amount = .ok d) (hc : c ∈ d.calls) :
    ∃ a p, accounts[1]? = some a ∧
      c.Sent ctx w (.recoverFlushedInsurance amount) accounts a.key p := by
  unfold dispatchRecoverFlushedInsurance at h
  simp only [bind_eq_ok, rejectIf_eq_ok, validateAccountOwner_eq_ok, readPool_eq_ok, not_not,
    ok_eq_ok] at h
  obtain ⟨a, ha, _, -, _, howner, _, -, _, -, p, ⟨hp, -⟩, _, -, _, -, _, -, _, hprogram, _, -, _,
    -, rfl⟩ := h
  rw [List.mem_singleton.mp hc]
  refine ⟨a.poolPda, p, RecoverAccounts.next_eq_ok ha,
    ⟨pool_of_read howner hp, hprogram.symm, ?_, ?_⟩⟩
  · have hmarket : accounts[4]? = some a.market := by
      unfold RecoverAccounts.next at ha
      split at ha
      · cases ha
        rfl
      · cases ha
    show _ = accounts[4]?.map AccountInfo.key
    rw [hmarket]
    rfl
  · intro s hs
    exact .inl ⟨_, List.mem_singleton.mp hs⟩

theorem dispatchAdminResolveMarket_sent (h : dispatchAdminResolveMarket ctx w accounts = .ok d)
    (hc : c ∈ d.calls) :
    ∃ a p, accounts[1]? = some a ∧ c.Sent ctx w .adminResolveMarket accounts a.key p := by
  unfold dispatchAdminResolveMarket at h
  simp only [bind_eq_ok, rejectIf_eq_ok, validateAccountOwner_eq_ok, readPool_eq_ok, not_not,
    ok_eq_ok] at h
  obtain ⟨a, ha, _, -, _, howner, _, -, p, ⟨hp, -⟩, _, -, _, hslab, _, hprogram, _, -, rfl⟩ := h
  rw [List.mem_singleton.mp hc]
  refine ⟨a.poolPda, p, MarketAccounts.next_eq_ok ha,
    ⟨pool_of_read howner hp, hprogram.symm, ?_, ?_⟩⟩
  · show _ = some p.slab
    rw [hslab]
    rfl
  · intro s hs
    rw [hslab]
    exact .inr ⟨_, List.mem_singleton.mp hs⟩

theorem dispatchBindInsuranceAuthority_sent
    (h : dispatchBindInsuranceAuthority ctx w accounts = .ok d) (hc : c ∈ d.calls) :
    ∃ a p, accounts[1]? = some a ∧ c.Sent ctx w .bindInsuranceAuthority accounts a.key p := by
  unfold dispatchBindInsuranceAuthority at h
  simp only [bind_eq_ok, validateAccountOwner_eq_ok, readPool_eq_ok, ok_eq_ok] at h
  obtain ⟨a, ha, _, -, _, howner, _, -, p, ⟨hp, -⟩, _, -, bump, hbind, rfl⟩ := h
  obtain ⟨hslab, hprogram, -⟩ := bindMarket_eq_ok hbind
  refine ⟨a.poolPda, p, AuthorityAccounts.next_eq_ok ha, ?_⟩
  rcases List.mem_cons.mp hc with rfl | hc
  · refine ⟨pool_of_read howner hp, hprogram.symm, ?_, fun s hs =>
      .inl ⟨_, List.mem_singleton.mp hs⟩⟩
    show _ = some p.slab
    rw [hslab]
    rfl
  · rw [List.mem_singleton.mp hc]
    refine ⟨pool_of_read howner hp, hprogram.symm, ?_, fun s hs =>
    .inl ⟨_, List.mem_singleton.mp hs⟩⟩
    show _ = some p.slab
    rw [hslab]
    rfl

/-- The burn is not signed by the program at all. -/
theorem dispatchBurnAssetAdmin_sent (h : dispatchBurnAssetAdmin ctx w accounts = .ok d)
    (hc : c ∈ d.calls) :
    ∃ a p, accounts[1]? = some a ∧ c.Sent ctx w .burnAssetAdmin accounts a.key p := by
  unfold dispatchBurnAssetAdmin at h
  simp only [bind_eq_ok, validateAccountOwner_eq_ok, readPool_eq_ok, ok_eq_ok] at h
  obtain ⟨a, ha, _, -, _, -, _, howner, _, -, p, ⟨hp, -⟩, _, -, _, -, bump, hbind, rfl⟩ := h
  obtain ⟨hslab, hprogram, -⟩ := bindMarket_eq_ok hbind
  rw [List.mem_singleton.mp hc]
  refine ⟨a.poolPda, p, AuthorityAccounts.next_eq_ok ha,
    ⟨pool_of_read howner hp, hprogram.symm, ?_, fun s hs => (by cases hs)⟩⟩
  show _ = some p.slab
  rw [hslab]
  rfl

theorem dispatchRotateRole_sent {build : Pubkey → Pubkey → Pubkey → Pubkey → Instruction}
    {ix : StakeInstruction} (hbuild : ∀ g v n s, (build g v n s).programId = g ∧
      (build g v n s).market = some s) (hix : ∀ p, ix.market accounts p = some p.slab)
    (h : dispatchRotateRole ctx w accounts build = .ok d) (hc : c ∈ d.calls) :
    ∃ a p, accounts[1]? = some a ∧ c.Sent ctx w ix accounts a.key p := by
  unfold dispatchRotateRole at h
  simp only [bind_eq_ok, validateAccountOwner_eq_ok, readPool_eq_ok, ok_eq_ok] at h
  obtain ⟨a, ha, _, -, _, -, _, howner, _, -, p, ⟨hp, -⟩, _, -, _, -, bump, hbind, rfl⟩ := h
  obtain ⟨hslab, hprogram, -⟩ := bindMarket_eq_ok hbind
  rw [List.mem_singleton.mp hc]
  refine ⟨a.poolPda, p, RotateAccounts.next_eq_ok ha, ⟨pool_of_read howner hp, ?_, ?_,
    fun s hs => .inl ⟨_, List.mem_singleton.mp hs⟩⟩⟩
  · rw [hprogram]
    exact (hbuild ..).1
  · rw [hix, hslab]
    exact (hbuild ..).2

theorem validateGroupAProxy_eq_ok {admin k s g : AccountInfo} {bump : UInt8}
    (h : validateGroupAProxy ctx w admin k s g = .ok bump) :
    ∃ p, w.pool ctx.programId k.key = some p ∧ p.slab = s.key ∧ p.percolatorProgram = g.key := by
  unfold validateGroupAProxy at h
  simp only [bind_eq_ok, rejectIf_eq_ok, validateAccountOwner_eq_ok, readPool_eq_ok, not_not] at h
  obtain ⟨_, -, _, howner, _, -, p, ⟨hp, -⟩, _, -, _, hslab, _, hprogram, -⟩ := h
  exact ⟨p, pool_of_read howner hp, hslab, hprogram⟩

theorem dispatchGroupAProxy_sent {build : Pubkey → Pubkey → Pubkey → Instruction}
    {ix : StakeInstruction} (hbuild : ∀ g k s, (build g k s).programId = g ∧
      (build g k s).market = some s) (hix : ∀ p, ix.market accounts p = some p.slab)
    (h : dispatchGroupAProxy ctx w accounts build = .ok d) (hc : c ∈ d.calls) :
    ∃ a p, accounts[1]? = some a ∧ c.Sent ctx w ix accounts a.key p := by
  unfold dispatchGroupAProxy at h
  simp only [bind_eq_ok, ok_eq_ok] at h
  obtain ⟨a, ha, bump, hvalid, rfl⟩ := h
  obtain ⟨p, hp, hslab, hprogram⟩ := validateGroupAProxy_eq_ok hvalid
  rw [List.mem_singleton.mp hc]
  refine ⟨a.poolPda, p, MarketAccounts.next_eq_ok ha, ⟨hp, ?_, ?_, ?_⟩⟩
  · rw [hprogram]
    exact (hbuild ..).1
  · rw [hix, hslab]
    exact (hbuild ..).2
  · intro s hs
    rw [hslab]
    exact .inr ⟨_, List.mem_singleton.mp hs⟩

theorem dispatchGroupBProxy_sent {build : Pubkey → Pubkey → Pubkey → Instruction}
    {ix : StakeInstruction} (hbuild : ∀ g v s, (build g v s).programId = g ∧
      (build g v s).market = some s) (hix : ∀ p, ix.market accounts p = some p.slab)
    (h : dispatchGroupBProxy ctx w accounts build = .ok d) (hc : c ∈ d.calls) :
    ∃ a p, accounts[1]? = some a ∧ c.Sent ctx w ix accounts a.key p := by
  unfold dispatchGroupBProxy validateGroupBProxy at h
  simp only [bind_eq_ok, ok_eq_ok] at h
  obtain ⟨a, ha, bump, ⟨_, hvalid, -⟩, rfl⟩ := h
  obtain ⟨p, hp, hslab, hprogram⟩ := validateGroupAProxy_eq_ok hvalid
  rw [List.mem_singleton.mp hc]
  refine ⟨a.poolPda, p, AuthorityAccounts.next_eq_ok ha, ⟨hp, ?_, ?_,
    fun s hs => .inl ⟨_, List.mem_singleton.mp hs⟩⟩⟩
  · rw [hprogram]
    exact (hbuild ..).1
  · rw [hix, hslab]
    exact (hbuild ..).2

/-- What an instruction on an existing pool sends goes to the pool's wrapper program,
signed for that pool if at all. -/
theorem dispatch_sent {ix : StakeInstruction} (h : dispatch ctx w accounts ix = .ok d)
    (hix : ix.creates = false) (hc : c ∈ d.calls) :
    ∃ a p, accounts[1]? = some a ∧ c.Sent ctx w ix accounts a.key p := by
  cases ix with
  | initPool | initTradingPool => cases hix
  | flushToInsurance => exact dispatchFlushToInsurance_sent h hc
  | recoverFlushedInsurance => exact dispatchRecoverFlushedInsurance_sent h hc
  | adminResolveMarket => exact dispatchAdminResolveMarket_sent h hc
  | bindInsuranceAuthority => exact dispatchBindInsuranceAuthority_sent h hc
  | burnAssetAdmin => exact dispatchBurnAssetAdmin_sent h hc
  | rotateInsuranceAuthority | rotateInsuranceOperator =>
    exact dispatchRotateRole_sent (fun _ _ _ _ => ⟨rfl, rfl⟩) (fun _ => rfl) h hc
  | adminUpdateFeeSplit | adminUpdateMaintenanceFeePerSlot =>
    unfold dispatch at h
    apply dispatchGroupAProxy_sent ?_ (fun _ => rfl) h hc
    exact fun _ _ _ => ⟨rfl, rfl⟩
  | adminUpdateBackingFeePolicy | adminUpdateTradeFeePolicy =>
    unfold dispatch at h
    apply dispatchGroupBProxy_sent ?_ (fun _ => rfl) h hc
    exact fun _ _ _ => ⟨rfl, rfl⟩
  | _ =>
    cases h
    cases hc

/-- The creation of a pool names its address to the wrapper, signed with the seeds of the
market. -/
theorem dispatch_created {ix : StakeInstruction} (h : dispatch ctx w accounts ix = .ok d)
    (hix : ix.creates = true) :
    ∃ a slots bump, InitAccounts.next accounts = .ok a ∧ validateInit ctx w a slots = .ok () ∧
      d.calls = [⟨Cpi.updateAuthority a.percolatorProgram.key a.admin.key a.poolPda.key a.slab.key,
        [a.admin, a.poolPda, a.slab], [Derivation.poolSeeds a.slab.key bump]⟩] := by
  cases ix with
  | initPool slots cap =>
    obtain ⟨a, bump, hcreated⟩ := dispatchInitPool_created h
    exact ⟨a, slots, bump, hcreated⟩
  | initTradingPool slots cap =>
    obtain ⟨d', hd', hsame⟩ := calls_dispatchInitTradingPool h
    rw [hsame]
    obtain ⟨a, bump, hcreated⟩ := dispatchInitPool_created hd'
    exact ⟨a, slots, bump, hcreated⟩
  | _ => cases hix

/-! ## The binding -/

variable {π : Pubkey} {es : List Event} {p q : StakePool} {ix : StakeInstruction}

/-- Two pools that are set up for one market are at one address. -/
theorem Context.AllChartered.address_eq {k : Pubkey} (h : ctx.AllChartered w)
    (hp : w.pool ctx.programId π = some p) (hq : w.pool ctx.programId k = some q)
    (hslab : p.slab = q.slab) : π = k := by
  have hpool : ctx.derivation.derivePoolPda ctx.programId p.slab = (π, _) := (h π p hp).pool_eq
  have hpool' : ctx.derivation.derivePoolPda ctx.programId q.slab = (k, _) := (h k q hq).pool_eq
  rw [hslab, hpool'] at hpool
  exact (congrArg Prod.fst hpool).symm

/-- A call signed for a pool comes from the handler on that pool. -/
theorem Call.Sent.pool_of_signed {k : Pubkey} (hsent : c.Sent ctx w ix accounts k q)
    (hall : ctx.AllChartered w) (hp : w.pool ctx.programId π = some p) (hs : c.SignedBy π p) :
    π = k ∧ p = q := by
  have hk : π = k := by
    obtain ⟨bump, hs | hs⟩ := hs
    · rcases hsent.seeds_eq _ hs with ⟨bump', he⟩ | ⟨bump', he⟩
      · exact Derivation.vaultAuthSeeds_inj he
      · exact (Derivation.vaultAuthSeeds_ne he).elim
    · rcases hsent.seeds_eq _ hs with ⟨bump', he⟩ | ⟨bump', he⟩
      · exact (Derivation.vaultAuthSeeds_ne he.symm).elim
      · exact hall.address_eq hp hsent.pool_eq (Derivation.poolSeeds_inj he)
  rw [hk] at hp
  exact ⟨hk, Option.some_inj.mp (hp.symm.trans hsent.pool_eq)⟩

/-- What the creation of a pool sends is signed for no pool that exists. -/
theorem not_signed_of_created (hall : ctx.AllChartered w)
    (hp : w.pool ctx.programId π = some p) (h : dispatch ctx w accounts ix = .ok d)
    (hix : ix.creates = true) (hc : c ∈ d.calls) : ¬c.SignedBy π p := by
  intro hs
  obtain ⟨a, slots, bump, -, hval, hcalls⟩ := dispatch_created h hix
  rw [hcalls, List.mem_singleton] at hc
  subst hc
  obtain ⟨bump', hs | hs⟩ := hs
  · exact Derivation.vaultAuthSeeds_ne (List.mem_singleton.mp hs)
  · have hs := List.mem_singleton.mp hs
    have hslab : p.slab = a.slab.key := Derivation.poolSeeds_inj hs
    have hpool : ctx.derivation.derivePoolPda ctx.programId p.slab = (π, _) :=
      (hall π p hp).pool_eq
    obtain ⟨-, hkey, hempty, -⟩ := validateInit_eq_ok hval
    rw [hslab] at hpool
    rw [hpool] at hkey
    have hkey : a.poolPda.key = π := hkey
    rw [World.data, hkey, World.pool_eq_some.mp hp] at hempty
    cases hempty

/-- Whatever a handler sends to the wrapper with the signature of a pool, whether the
pool exists already or is being created, goes to the wrapper program of the pool and
names its market, except for a recovery that is given another market. -/
theorem market_binding (h : ctx.Deployed es w)
    (hp : w.pool ctx.programId π = some p ∨
      ∃ w', process ctx w accounts ix = .ok w' ∧ w'.pool ctx.programId π = some p)
    (hd : dispatch ctx w accounts ix = .ok d) (hc : c ∈ d.calls) (hs : c.SignedBy π p) :
    c.BoundTo p ↔ (∀ amount, ix ≠ .recoverFlushedInsurance amount) ∨
      accounts[4]?.map AccountInfo.key = some p.slab := by
  have hall := h.chartered
  have hbefore : ∀ q, w.pool ctx.programId π = some q → c.SignedBy π q →
      (c.BoundTo q ↔ (∀ amount, ix ≠ .recoverFlushedInsurance amount) ∨
        accounts[4]?.map AccountInfo.key = some q.slab) := by
    intro q hq hs
    cases hix : ix.creates with
    | true => exact (not_signed_of_created hall hq hd hix hc hs).elim
    | false =>
      obtain ⟨a, q', -, hsent⟩ := dispatch_sent hd hix hc
      obtain ⟨-, rfl⟩ := hsent.pool_of_signed hall hq hs
      have hbound : c.BoundTo q ↔ ix.market accounts q = some q.slab := by
        rw [← hsent.market_eq]
        exact and_iff_right hsent.program_eq
      rw [hbound]
      unfold StakeInstruction.market
      split
      · constructor
        · exact .inr
        · intro hor
          exact hor.resolve_left fun hno => hno _ rfl
      · rename_i hno
        exact ⟨fun _ => .inl hno, fun _ => rfl⟩
  rcases hp with hp | ⟨w', hw', hp⟩
  · exact hbefore p hp hs
  · cases hix : ix.creates with
    | false =>
      obtain ⟨a, q, q', -, hrw, -⟩ := process_rewrites hw' hix
      by_cases hk : π = a.key
      · -- the charter of the pool is what it was
        subst hk
        obtain rfl : q' = p := Option.some_inj.mp (hrw.after.symm.trans hp)
        have hslab : q'.slab = q.slab := congrArg Charter.slab hrw.charter_eq
        have hprogram : q'.percolatorProgram = q.percolatorProgram :=
          congrArg Charter.percolatorProgram hrw.charter_eq
        have hiff := hbefore q hrw.before (by rwa [Call.SignedBy, ← hslab])
        rw [Call.BoundTo, hslab, hprogram]
        exact hiff
      · rw [hrw.others π hk] at hp
        exact hbefore p hp hs
    | true =>
      obtain ⟨a, q, ha, hc', hslab, hprogram⟩ := process_creates hw' hix
      by_cases hk : π = a.poolPda.key
      · subst hk
        obtain rfl : q = p := Option.some_inj.mp (hc'.after.symm.trans hp)
        obtain ⟨a', slots, bump, ha', -, hcalls⟩ := dispatch_created hd hix
        rw [hcalls, List.mem_singleton] at hc
        subst hc
        obtain rfl : a = a' := Except.ok.inj (ha.symm.trans ha')
        have hno : ∀ amount, ix ≠ .recoverFlushedInsurance amount := by
          intro amount e
          rw [e] at hix
          cases hix
        refine ⟨fun _ => .inl hno, fun _ => ⟨?_, ?_⟩⟩
        · exact hprogram.symm
        · rw [hslab]
          rfl
      · rw [hc'.others π hk] at hp
        exact hbefore p hp hs

end

namespace Sample

/-- A pool with something to recover. -/
def lent : List Action := [deposit alice 100000, flush 20000]

/-- The account list of a recovery, with the market of another pool in it. -/
def strayAccounts : List AccountInfo := recoverAccounts.set 4 (writable (key 12))

theorem lent_deployed : ctx.Deployed
    (.instruction (.initPool 1 0) initAccounts :: lent.map Action.event) (after lent) :=
  after_deployed (by decide +kernel)

theorem lent_pool : ∃ p, (after lent).pool ctx.programId pool = some p ∧
    p.slab = slab ∧ p.percolatorProgram = percolatorMainnet := by
  have hpool : ((after lent).pool ctx.programId pool).map
      (fun p => (p.slab, p.percolatorProgram)) = some (slab, percolatorMainnet) := by
    decide +kernel
  obtain ⟨p, hp, he⟩ := Option.map_eq_some_iff.mp hpool
  exact ⟨p, hp, congrArg Prod.fst he, congrArg Prod.snd he⟩

/-- A recovery that names another market goes through, signed by the vault authority of
the pool. -/
theorem stray_recovery : ∃ es w p accounts amount d c, ctx.Deployed es w ∧
    w.pool ctx.programId pool = some p ∧
    dispatch ctx w accounts (.recoverFlushedInsurance amount) = .ok d ∧ c ∈ d.calls ∧
    c.SignedBy pool p ∧ ¬c.BoundTo p ∧
    ∃ w', process ctx w accounts (.recoverFlushedInsurance amount) = .ok w' := by
  obtain ⟨p, hp, hslab, hprogram⟩ := lent_pool
  have hcalls : (dispatch ctx (after lent) strayAccounts
      (.recoverFlushedInsurance 5000)).toOption.map (fun d => d.calls.map
        fun c => (c.ix.market, c.seeds)) =
      some [(some (key 12), [Derivation.vaultAuthSeeds pool 254])] := by
    decide +kernel
  have hprocess : (process ctx (after lent) strayAccounts
      (.recoverFlushedInsurance 5000)).toOption.isSome = true := by
    decide +kernel
  obtain ⟨d, hd, hlist⟩ := Option.map_eq_some_iff.mp hcalls
  obtain ⟨w', hw'⟩ := Option.isSome_iff_exists.mp hprocess
  obtain ⟨c, cs, hcs, hc, -⟩ := List.map_eq_cons_iff.mp hlist
  obtain ⟨hmarket, hseeds⟩ := Prod.mk.inj hc
  refine ⟨_, _, p, _, _, d, c, lent_deployed, hp, toOption_eq_some.mp hd, ?_, ⟨254, .inl ?_⟩,
    ?_, w', toOption_eq_some.mp hw'⟩
  · rw [hcs]
    exact List.mem_cons_self
  · rw [hseeds]
    exact List.mem_cons_self
  · intro hbound
    have hstray : key 12 ≠ slab := by decide
    exact hstray (Option.some_inj.mp (hmarket.symm.trans (hbound.2.trans (congrArg some hslab))))

/-- The flush of the same pool is about its market. -/
theorem market_binding_lent : ∃ d c p, dispatch Sample.ctx (after lent) flushAccounts
      (.flushToInsurance 100) = .ok d ∧ c ∈ d.calls ∧ c.SignedBy pool p ∧ c.BoundTo p := by
  obtain ⟨p, hp, -⟩ := lent_pool
  have hseeds : (dispatch ctx (after lent) flushAccounts (.flushToInsurance 100)).toOption.map
      (fun d => d.calls.map (·.seeds)) = some [[Derivation.vaultAuthSeeds pool 254]] := by
    decide +kernel
  obtain ⟨d, hd, hlist⟩ := Option.map_eq_some_iff.mp hseeds
  obtain ⟨c, cs, hcs, hc, -⟩ := List.map_eq_cons_iff.mp hlist
  have hd := toOption_eq_some.mp hd
  have hmem : c ∈ d.calls := by
    rw [hcs]
    exact List.mem_cons_self
  have hsigned : c.SignedBy pool p := by
    refine ⟨254, .inl ?_⟩
    rw [hc]
    exact List.mem_cons_self
  refine ⟨d, c, p, hd, hmem, hsigned, ?_⟩
  exact (market_binding lent_deployed (.inl hp) hd hmem hsigned).mpr
    (.inl fun _ e => (by cases e))

end Sample

end PercolatorStake
