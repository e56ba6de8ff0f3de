import PercolatorStake.Execution
import PercolatorStake.Records

/-!
# All pools at once

The runs elsewhere are those of one pool, with everything else outside of it.  Here a
run is one of the whole program, over any number of pools in any order, from a world in
which it has neither a pool nor a record.  Seen from each of its pools it is a run of
that pool.  So what is said of the runs of one pool is said of every pool of a
deployment.
-/

namespace PercolatorStake

open Result Word

/-! ## Runs of the whole program -/

/-- The pools `P` of a deployment and the keys `U` that sign anything in it.  Nobody signs
for a derived address, derived addresses of different pools differ, and the wrapper pays
out of accounts it can sign for. -/
structure Context.Parties (ctx : Context) (P U : Set Pubkey) : Prop where
  authority_notMem : ∀ π ∈ P, ctx.vaultAuthority π ∉ U
  authority_inj : ∀ π ∈ P, ∀ κ ∈ P, ctx.vaultAuthority κ = ctx.vaultAuthority π → κ = π
  record_inj : ∀ π ∈ P, ∀ κ ∈ P, ∀ v ∈ U, ∀ u, ctx.depositPda κ v = ctx.depositPda π u → κ = π
  wrapper_pays : ∀ A ∉ U, ctx.WrapperSpares A

/-- Something outside of the program: its accounts are its own, and tokens are moved by
the keys of `U`. -/
structure Context.Elsewhere (ctx : Context) (U : Set Pubkey) (w w' : World) : Prop where
  pool_eq : ∀ k, w'.pool ctx.programId k = w.pool ctx.programId k
  record_eq : ∀ k, w'.record ctx.programId k = w.record ctx.programId k
  guarded : ∀ A ∉ U, World.Guarded A w w'

/-- One event of the deployment, on whichever pool. -/
def Context.SystemStep (ctx : Context) (P U : Set Pubkey) (w : World) (e : Event) (w' : World) :
    Prop :=
  match e with
  | .instruction ix accounts =>
    (∀ a, ix.poolAccount accounts = some a → a.key ∈ P) ∧
      (∀ a ∈ accounts, a.isSigner = true → a.key ∈ U) ∧ process ctx w accounts ix = .ok w'
  | .outside _ => ctx.Elsewhere U w w'

/-- `w` is reached by the events `es` from a world without a pool and without a record. -/
def Context.System (ctx : Context) (P U : Set Pubkey) (es : List Event) (w : World) : Prop :=
  ∃ w₀, (∀ k, w₀.pool ctx.programId k = none) ∧ (∀ k, w₀.record ctx.programId k = none) ∧
    Transition.Run (ctx.SystemStep P U) w₀ es w

/-- The event is an instruction on the pool at `π`. -/
def Event.On (π : Pubkey) : Event → Prop
  | .instruction ix accounts => ∃ a, ix.poolAccount accounts = some a ∧ a.key = π
  | .outside _ => False

/-- An event of the deployment as the pool at `π` sees it: its own instructions, and
everything else as outside of it. -/
inductive Event.Seen (π : Pubkey) : Event → Event → Prop
  | own {e : Event} (h : e.On π) : Seen π e e
  | other {e : Event} {x : Nat} (h : ¬e.On π) : Seen π e (.outside x)

/-- The event creates the pool at `π`. -/
def Event.Founds (π : Pubkey) : Event → Prop
  | .instruction ix accounts => ix.creates = true ∧ Event.On π (.instruction ix accounts)
  | .outside _ => False

/-! ## What is kept -/

/-- Every pool stands, and every record is that of a signer with a pool there is. -/
structure Context.Coherent (ctx : Context) (P U : Set Pubkey) (w : World) : Prop where
  standing : ∀ π p, w.pool ctx.programId π = some p → π ∈ P ∧ ∃ t m, Standing ctx π w p t m
  record : ∀ k d, w.record ctx.programId k = some d →
    (∃ p, w.pool ctx.programId d.pool = some p) ∧ ∃ u ∈ U, k = ctx.depositPda d.pool u

section

variable {ctx : Context} {P U : Set Pubkey} {π κ : Pubkey} {w w' : World} {p : StakePool}
  {t : TokenAccount} {m : Mint} {e : Event} {es : List Event} {ix : StakeInstruction}
  {accounts : List AccountInfo}

/-- The accounts of a pool the authority of which signs nothing, after anything that
leaves its data alone. -/
theorem Standing.outside_of_guarded (h : Standing ctx π w p t m)
    (hg : World.Guarded (ctx.vaultAuthority π) w w')
    (hpool : w'.pool ctx.programId π = w.pool ctx.programId π)
    (hrecord : ∀ k d, d.pool = π →
      (w'.record ctx.programId k = some d ↔ w.record ctx.programId k = some d))
    (hpda : ∀ user, w'.record ctx.programId (ctx.depositPda π user) =
      w.record ctx.programId (ctx.depositPda π user)) :
    ∃ x, ctx.Outside π x w w' := by
  obtain ⟨amount, hamount, ht⟩ := hg.token_le h.vault_eq h.vault_owner h.vault_live
  obtain ⟨supply, hsupply, hm⟩ := hg.mint_le h.mint_eq h.mint_authority h.mint_live
  refine ⟨amount.toNat - t.amount.toNat, hpool, ?_, ?_, hrecord, hpda⟩
  · intro q t' hq ht'
    obtain rfl : p = q := Option.some_inj.mp (h.pool_eq.symm.trans hq)
    obtain rfl : t = t' := Option.some_inj.mp (h.vault_eq.symm.trans ht')
    exact ⟨amount, by omega, ht⟩
  · intro q m' hq hm'
    obtain rfl : p = q := Option.some_inj.mp (h.pool_eq.symm.trans hq)
    obtain rfl : m = m' := Option.some_inj.mp (h.mint_eq.symm.trans hm')
    exact ⟨supply, hsupply, hm⟩

/-- An instruction rewrites the pool it names, or creates it. -/
theorem process_pool (h : process ctx w accounts ix = .ok w') :
    ∃ a, ix.poolAccount accounts = some a ∧
      ((ix.creates = false ∧ ∃ p p', ctx.Rewrites w a.key p p' w') ∨
        (ix.creates = true ∧ ∃ p, ctx.Creates w a.key p w')) := by
  cases hix : ix.creates with
  | false =>
    have hsecond : ix.poolAccount accounts = accounts[1]? := by
      cases ix <;> first | rfl | cases hix
    obtain ⟨a, q, q', ha, hrw, -⟩ := process_rewrites h hix
    exact ⟨a, hsecond.trans ha, .inl ⟨rfl, q, q', hrw⟩⟩
  | true =>
    have hthird : ix.poolAccount accounts = accounts[2]? := by
      cases ix <;> first | rfl | cases hix
    obtain ⟨a, q, ha, hc, -⟩ := process_creates h hix
    exact ⟨a.poolPda, hthird.trans (InitAccounts.next_eq_ok ha), .inr ⟨rfl, q, hc⟩⟩

/-- An instruction leaves every other pool as it was. -/
theorem process_others (h : process ctx w accounts ix = .ok w') {a : AccountInfo}
    (ha : ix.poolAccount accounts = some a) (hne : π ≠ a.key) :
    w'.pool ctx.programId π = w.pool ctx.programId π := by
  obtain ⟨b, hb, hpool⟩ := process_pool h
  obtain rfl : a = b := Option.some_inj.mp (ha.symm.trans hb)
  rcases hpool with ⟨-, q, q', hrw⟩ | ⟨-, q, hc⟩
  · exact hrw.others π hne
  · exact hc.others π hne

/-- An instruction on another pool is outside of this one. -/
theorem Context.Coherent.outside (h : ctx.Coherent P U w) (hP : ctx.Parties P U)
    (hst : Standing ctx π w p t m) (hs : ctx.SystemStep P U w (.instruction ix accounts) w')
    (hne : ¬Event.On π (.instruction ix accounts)) : ∃ x, ctx.Outside π x w w' := by
  obtain ⟨hnames, hsign, hd⟩ := hs
  obtain ⟨a, ha, -⟩ := process_pool hd
  have hκ : a.key ≠ π := fun e => hne ⟨a, ha, e⟩
  have haP := hnames a ha
  have hπP := (h.standing π p hst.pool_eq).1
  -- a record that is written is one of the other pool, at an address of the other pool
  have hwritten : ∀ k, ctx.Writes w ix accounts k w' →
      (∃ d, w'.record ctx.programId k = some d ∧ d.pool ≠ π) ∧
        ∀ u, k ≠ ctx.depositPda π u := by
    intro k hw
    obtain ⟨user, b, d, hfirst, hb, hsigner, -, hk, hd', hpool, -⟩ := hw.written
    obtain rfl : a = b := Option.some_inj.mp (ha.symm.trans hb)
    refine ⟨⟨d, hd', hpool ▸ hκ⟩, ?_⟩
    intro u hu
    have huser := hsign user (List.mem_of_getElem? hfirst) hsigner
    exact hκ (hP.record_inj π hπP a.key haP user.key huser u (hk.symm.trans hu))
  -- and it was one of the other pool before, if it was one
  have hbefore : ∀ k d, ctx.Writes w ix accounts k w' → w.record ctx.programId k = some d →
      d.pool ≠ π := by
    intro k d hw hrec hdπ
    obtain ⟨-, v, -, hv⟩ := h.record k d hrec
    rw [hdπ] at hv
    exact (hwritten k hw).2 v hv
  apply hst.outside_of_guarded
  · apply process_guarded hd
    · intro b hb hsigner e
      exact hP.authority_notMem π hπP (e ▸ hsign b hb hsigner)
    · intro b hb e
      obtain rfl : a = b := Option.some_inj.mp (ha.symm.trans hb)
      exact hκ (hP.authority_inj π hπP a.key haP e)
    · exact hP.wrapper_pays _ (hP.authority_notMem π hπP)
  · exact process_others hd ha (Ne.symm hκ)
  · intro k d hdπ
    rcases process_records hd k with hsame | hw
    · rw [hsame]
    · obtain ⟨⟨d', hd', hne'⟩, -⟩ := hwritten k hw
      refine ⟨fun hrec => ?_, fun hrec => (hbefore k d hw hrec hdπ).elim⟩
      rw [hd', Option.some_inj] at hrec
      exact (hne' (hrec ▸ hdπ)).elim
  · intro user
    rcases process_records hd (ctx.depositPda π user) with hsame | hw
    · exact hsame
    · exact ((hwritten _ hw).2 user rfl).elim

/-- Every event of the deployment is an event of each of its pools. -/
theorem Context.Coherent.seen (h : ctx.Coherent P U w) (hP : ctx.Parties P U)
    (hst : Standing ctx π w p t m) (hs : ctx.SystemStep P U w e w') :
    ∃ e', e.Seen π e' ∧ ctx.Step π w e' w' := by
  have hπP := (h.standing π p hst.pool_eq).1
  cases e with
  | outside y =>
    have hout : ctx.Elsewhere U w w' := hs
    obtain ⟨x, hx⟩ := hst.outside_of_guarded
      (hout.guarded _ (hP.authority_notMem π hπP)) (hout.pool_eq π)
      (fun k d _ => by rw [hout.record_eq]) (fun user => hout.record_eq _)
    exact ⟨.outside x, .other id, hx⟩
  | instruction ix accounts =>
    by_cases hon : Event.On π (.instruction ix accounts)
    · obtain ⟨-, hsign, hd⟩ := hs
      refine ⟨_, .own hon, hon, ?_, hd⟩
      intro a ha hsigner e
      exact hP.authority_notMem π hπP (e ▸ hsign a ha hsigner)
    · obtain ⟨x, hx⟩ := h.outside hP hst hs hon
      exact ⟨.outside x, .other hon, hx⟩

/-- A pool that comes into being is a new one. -/
theorem Context.Coherent.genesis (h : ctx.Coherent P U w) (hP : ctx.Parties P U)
    (hs : ctx.SystemStep P U w e w') (hbefore : w.pool ctx.programId π = none)
    (hafter : w'.pool ctx.programId π = some p) : e.Founds π ∧ ctx.Genesis π w' := by
  cases e with
  | outside y =>
    have hout : ctx.Elsewhere U w w' := hs
    rw [hout.pool_eq, hbefore] at hafter
    cases hafter
  | instruction ix accounts =>
    obtain ⟨hnames, -, hd⟩ := hs
    obtain ⟨a, ha, hpool⟩ := process_pool hd
    have hπ : π = a.key := by
      by_contra hne
      rw [process_others hd ha hne, hbefore] at hafter
      cases hafter
    rcases hpool with ⟨-, q, q', hrw⟩ | ⟨hix, -⟩
    · rw [hπ, hrw.before] at hbefore
      cases hbefore
    · refine ⟨⟨hix, a, ha, hπ.symm⟩, w, ix, accounts, ⟨?_, ?_⟩, ?_, ⟨a, ha, hπ.symm⟩, hd⟩
      · intro k d hrec hdπ
        obtain ⟨⟨q, hq⟩, -⟩ := h.record k d hrec
        rw [hdπ, hbefore] at hq
        cases hq
      · intro user
        cases hrec : w.record ctx.programId (ctx.depositPda π user) with
        | none => rfl
        | some d =>
          obtain ⟨⟨q, hq⟩, v, hv, hk⟩ := h.record _ d hrec
          have hpools := hP.record_inj π (hπ ▸ hnames a ha) d.pool (h.standing _ q hq).1 v hv user
            hk.symm
          rw [hpools, hbefore] at hq
          cases hq
      · cases ix with
        | initPool slots cap => exact ⟨slots, cap, .inl rfl⟩
        | initTradingPool slots cap => exact ⟨slots, cap, .inr rfl⟩
        | _ => cases hix

/-- A pool stays once it is there. -/
theorem Context.SystemStep.pool_stays (hs : ctx.SystemStep P U w e w')
    (h : ∃ p, w.pool ctx.programId π = some p) : ∃ p, w'.pool ctx.programId π = some p := by
  obtain ⟨p, hp⟩ := h
  cases e with
  | outside y =>
    have hout : ctx.Elsewhere U w w' := hs
    exact ⟨p, (hout.pool_eq π).trans hp⟩
  | instruction ix accounts =>
    obtain ⟨-, -, hd⟩ := hs
    obtain ⟨a, ha, hpool⟩ := process_pool hd
    by_cases hπ : π = a.key
    · rcases hpool with ⟨-, q, q', hrw⟩ | ⟨-, q, hc⟩
      · exact ⟨q', hπ ▸ hrw.after⟩
      · exact ⟨q, hπ ▸ hc.after⟩
    · exact ⟨p, (process_others hd ha hπ).trans hp⟩

theorem Context.Coherent.step (h : ctx.Coherent P U w) (hP : ctx.Parties P U)
    (hs : ctx.SystemStep P U w e w') : ctx.Coherent P U w' := by
  refine ⟨?_, ?_⟩
  · intro π p hp
    cases hbefore : w.pool ctx.programId π with
    | none =>
      obtain ⟨hfounds, hgenesis⟩ := h.genesis hP hs hbefore hp
      obtain ⟨q, t, m, hst, -⟩ := hgenesis.standing
      obtain rfl : p = q := Option.some_inj.mp (hp.symm.trans hst.pool_eq)
      refine ⟨?_, t, m, hst⟩
      cases e with
      | outside y => exact hfounds.elim
      | instruction ix accounts =>
        obtain ⟨-, a, ha, rfl⟩ := hfounds
        exact hs.1 a ha
    | some q =>
      obtain ⟨hπ, t, m, hst⟩ := h.standing π q hbefore
      obtain ⟨e', -, hstep⟩ := h.seen hP hst hs
      obtain ⟨ms, -, p', t', m', hst', -⟩ := hst.step hstep
      obtain rfl : p = p' := Option.some_inj.mp (hp.symm.trans hst'.pool_eq)
      exact ⟨hπ, t', m', hst'⟩
  · intro k d hrec
    cases e with
    | outside y =>
      have hout : ctx.Elsewhere U w w' := hs
      rw [hout.record_eq] at hrec
      obtain ⟨⟨q, hq⟩, hk⟩ := h.record k d hrec
      exact ⟨⟨q, (hout.pool_eq _).trans hq⟩, hk⟩
    | instruction ix accounts =>
      rcases process_records hs.2.2 k with hsame | hw
      · rw [hsame] at hrec
        obtain ⟨hq, hk⟩ := h.record k d hrec
        exact ⟨hs.pool_stays hq, hk⟩
      · obtain ⟨user, a, d', hfirst, ha, hsigner, hp, hk, hrec', hpool, -⟩ := hw.written
        rw [hrec', Option.some_inj] at hrec
        rw [← hrec, hpool]
        exact ⟨hs.pool_stays hp, user.key, hs.2.1 user (List.mem_of_getElem? hfirst) hsigner, hk⟩

end

/-! ## A deployment of two pools -/

/-- Run a script on whichever pools it names.  The signers pass `signs`, the pools are among
`pools`, and nothing but the clock moves outside. -/
def Context.runSystem (ctx : Context) (signs : Pubkey → Bool) (pools : List Pubkey) :
    World → List Action → Option World
  | w, [] => some w
  | w, .call ix accounts :: as =>
    if (ix.poolAccount accounts).all (fun a => pools.contains a.key) = true ∧
        accounts.all (fun a => !a.isSigner || signs a.key) = true then do
      let w ← (process ctx w accounts ix).toOption
      runSystem ctx signs pools w as
    else none
  | w, .tick clock :: as => do
    let w ← tick w clock
    runSystem ctx signs pools w as
  | _, .send _ :: _ => none

section

variable {ctx : Context} {U : Set Pubkey} {w w' : World}

theorem Context.tick_elsewhere {clock : Clock} (h : Context.tick w clock = some w') :
    ctx.Elsewhere U w w' := by
  have hsame := tick_lookups ctx.programId h
  exact ⟨fun k => (hsame k).1, fun k => (hsame k).2.2.2,
    fun A _ => .of_same (fun k => (hsame k).2.1) fun k => (hsame k).2.2.1⟩

theorem Context.runSystem_run {signs : Pubkey → Bool} {pools : List Pubkey} {script : List Action}
    (h : ctx.runSystem signs pools w script = some w') :
    Transition.Run (ctx.SystemStep {k | k ∈ pools} {k | signs k = true}) w
      (script.map Action.event) w' := by
  induction script generalizing w with
  | nil =>
    cases h
    rfl
  | cons a as ih =>
    cases a with
    | send => cases h
    | tick clock =>
      unfold Context.runSystem at h
      obtain ⟨u, hu, hrest⟩ := Option.bind_eq_some_iff.mp h
      exact ⟨u, Context.tick_elsewhere hu, ih hrest⟩
    | call ix accounts =>
      unfold Context.runSystem at h
      split at h
      · rename_i hguard
        obtain ⟨hpool, hsign⟩ := hguard
        obtain ⟨u, hu, hrest⟩ := Option.bind_eq_some_iff.mp h
        refine ⟨u, ⟨?_, ?_, Result.toOption_eq_some.mp hu⟩, ih hrest⟩
        · intro a ha
          rw [ha] at hpool
          exact List.contains_iff_mem.mp hpool
        · intro a ha hs
          have hall := List.all_eq_true.mp hsign a ha
          rw [hs] at hall
          exact hall
      · cases h

end

namespace Sample

/-- As the other deployment derives addresses, but the first byte of one is read off the
first two seeds. -/
def twinDigest (seeds : List (List UInt8)) (id : Pubkey) : Pubkey :=
  Vector.ofFn fun i => (if i.val = 0 then seeds.take 2 else seeds).foldl
    (fun acc s => acc * 3 + s.getD i 0 + 1) (id.get i)

def twinDerivation : Derivation where
  findProgramAddress seeds id := (twinDigest seeds id, 254)
  createProgramAddress seeds id := some (twinDigest seeds.dropLast id)
  create_find seeds id := by rw [List.dropLast_concat]

/-- A wrapper that pays recoveries out of its own accounts. -/
def twinCtx : Context where
  derivation := twinDerivation
  programId := key 9
  tokenProgram := tokenProgram
  wrapper := wrapper fun w ix =>
    match ix.data, ix.accounts with
    | 57 :: _, _ :: _ :: _ :: source :: _ =>
      (w.token source.pubkey).all fun t => t.owner == percolatorMainnet
    | _, _ => true
  systemProgram := systemProgram
  minimumBalance space := UInt64.ofNat (space / 100)

def twinPool (slab : UInt8) : Pubkey :=
  (twinCtx.derivation.derivePoolPda twinCtx.programId (key slab)).1

def twinPools : List Pubkey := [twinPool 11, twinPool 12]

/-- The admin and one depositor sign, and the wrapper for its own accounts. -/
def twinSigns (k : Pubkey) : Bool := [key admin, key alice, percolatorMainnet].contains k

/-- The pool of slab `n` has its LP mint at `n + 20` and its vault at `n + 30`. -/
def twinWorld : World := World.ofList
  ([11, 12].flatMap (fun n =>
    [(key n, ⟨percolatorMainnet, .other []⟩),
      (key (n + 20), ⟨splTokenId, .mint ⟨none, 0, 0, false⟩⟩),
      (key (n + 30), ⟨splTokenId, .token ⟨key 0, key 0, 0, .uninitialized⟩⟩),
      (key (n + 60), token (key (n + 20)) (key alice) 0)]) ++
    [(collateralMint, ⟨splTokenId, .mint ⟨none, 10000000, 6, true⟩⟩),
      (wrapperVault, token collateralMint percolatorMainnet 1000000),
      (ata alice, token collateralMint (key alice) 1000000),
      (ata bob, token collateralMint (key bob) 700),
      (clockSysvarId, ⟨systemProgramId, .clock ⟨100, 1⟩⟩)])
  lamports

def twinInit (n : UInt8) : Action :=
  .call (.initPool 1 0) [signer (key admin), writable (key n), writable (twinPool n),
    writable (key (n + 20)), writable (key (n + 30)),
    readonly (twinCtx.vaultAuthority (twinPool n)), readonly collateralMint,
    readonly percolatorMainnet, readonly splTokenId, readonly systemProgramId,
    readonly rentSysvarId]

def twinDeposit (n : UInt8) (amount : UInt64) : Action :=
  .call (.deposit amount) [signer (key alice), writable (twinPool n), writable (ata alice),
    writable (key (n + 30)), writable (key (n + 20)), writable (key (n + 60)),
    readonly (twinCtx.vaultAuthority (twinPool n)),
    writable (twinCtx.depositPda (twinPool n) (key alice)), readonly splTokenId,
    readonly clockSysvarId, readonly systemProgramId]

def twinFlush (n : UInt8) (amount : UInt64) : Action :=
  .call (.flushToInsurance amount) [signer (key admin), writable (twinPool n),
    writable (key (n + 30)), readonly (twinCtx.vaultAuthority (twinPool n)), writable (key n),
    writable wrapperVault, readonly percolatorMainnet, readonly splTokenId]

/-- Two pools, with their instructions mixed. -/
def twinScript : List Action :=
  [twinInit 11, twinDeposit 11 100000, twinInit 12, twinDeposit 12 50000, twinFlush 11 30000,
    .tick ⟨200, 1⟩, twinDeposit 11 40000, twinFlush 12 1000]

def twinAfter : World :=
  (twinCtx.runSystem twinSigns twinPools twinWorld twinScript).getD twinWorld

theorem twin_spares {A : Pubkey} (hA : A ≠ percolatorMainnet) : twinCtx.WrapperSpares A := by
  intro w ix source t haccepts htag hsource ht e
  have haccepts : (w.token source.pubkey).all (fun t => t.owner == percolatorMainnet) = true := by
    obtain ⟨id, accounts, data⟩ := ix
    cases data with
    | nil => cases htag
    | cons tag rest =>
      cases htag
      rcases accounts with _ | ⟨a, _ | ⟨b, _ | ⟨c, _ | ⟨d, l⟩⟩⟩⟩ <;> cases hsource
      exact haccepts
  rw [ht] at haccepts
  have howner : t.owner = percolatorMainnet := beq_iff_eq.mp haccepts
  exact hA (e.symm.trans howner)

theorem twin_parties : twinCtx.Parties {k | k ∈ twinPools} {k | twinSigns k = true} := by
  have hauthority : twinPools.all (fun π => !twinSigns (twinCtx.vaultAuthority π)) = true := by
    decide +kernel
  have hfirst : ∀ π u, (twinCtx.depositPda π u).get 0 = 173 + π.get 0 + 1 := by
    intro π u
    show (twinDigest [Derivation.stakeDepositSeed, π.toList, u.toList] (key 9)).get 0 = _
    unfold twinDigest
    rw [Vector.get_ofFn]
    simp [Derivation.stakeDepositSeed, key, Vector.get]
  have hauth : (twinPools.map twinCtx.vaultAuthority).Nodup := by decide +kernel
  have hbyte : (twinPools.map (·.get 0)).Nodup := by decide +kernel
  refine ⟨?_, fun π hπ κ hκ => List.inj_on_of_nodup_map hauth hκ hπ, ?_, ?_⟩
  · intro π hπ h
    have hno := List.all_eq_true.mp hauthority π hπ
    rw [show twinSigns (twinCtx.vaultAuthority π) = true from h] at hno
    cases hno
  · intro π hπ κ hκ v _ u h
    have h := congrArg (·.get 0) h
    simp only [hfirst, add_left_inj, add_right_inj] at h
    exact List.inj_on_of_nodup_map hbyte hκ hπ h
  · intro A hA
    apply twin_spares
    rintro rfl
    exact hA (show twinSigns percolatorMainnet = true by decide)

theorem twin_run : Transition.Run
    (twinCtx.SystemStep {k | k ∈ twinPools} {k | twinSigns k = true}) twinWorld
    (twinScript.map Action.event) twinAfter := by
  have hrun : (twinCtx.runSystem twinSigns twinPools twinWorld twinScript).isSome = true := by
    decide +kernel
  obtain ⟨w, hw⟩ := Option.isSome_iff_exists.mp hrun
  rw [twinAfter, hw, Option.getD_some]
  exact Context.runSystem_run hw

theorem twin_system : twinCtx.System {k | k ∈ twinPools} {k | twinSigns k = true}
    (twinScript.map Action.event) twinAfter :=
  ⟨twinWorld, fun k => (ofList_foreign (by decide +kernel) (by decide +kernel) k).1,
    fun k => (ofList_foreign (by decide +kernel) (by decide +kernel) k).2, twin_run⟩

theorem twin_pools : ∀ π ∈ twinPools, ∃ p, twinAfter.pool twinCtx.programId π = some p := by
  have hall : twinPools.all (fun π => (twinAfter.pool twinCtx.programId π).isSome) = true := by
    decide +kernel
  intro π hπ
  exact Option.isSome_iff_exists.mp (List.all_eq_true.mp hall π hπ)

end Sample

section

variable {ctx : Context} {P U : Set Pubkey} {π κ : Pubkey} {w w' : World} {p : StakePool}
  {t : TokenAccount} {m : Mint} {e : Event} {es : List Event} {ix : StakeInstruction}
  {accounts : List AccountInfo}

/-! ## Composition -/

/-- The run of the deployment as its pool at `π` saw it. -/
def Context.Projects (ctx : Context) (π : Pubkey) (es : List Event) (w : World) : Prop :=
  ∃ before create after seen, es = before ++ create :: after ∧ create.Founds π ∧
    List.Forall₂ (Event.Seen π) after seen ∧ ctx.Reached π seen w

theorem Context.Projects.snoc {e' : Event} (h : ctx.Projects π es w) (he : e.Seen π e')
    (hs : ctx.Step π w e' w') : ctx.Projects π (es ++ [e]) w' := by
  obtain ⟨before, create, after, seen, rfl, hcreate, hseen, hreached⟩ := h
  refine ⟨before, create, after ++ [e], seen ++ [e'], ?_, hcreate,
    List.rel_append hseen (.cons he .nil), ?_⟩
  · rw [List.append_assoc, List.cons_append]
  · obtain ⟨w₀, hgenesis, hrun⟩ := hreached
    exact ⟨w₀, hgenesis, Transition.run_append.mpr ⟨w, hrun, w', hs, rfl⟩⟩

theorem Context.System.projects (hP : ctx.Parties P U) (h : ctx.System P U es w) :
    ctx.Coherent P U w ∧ ∀ π p, w.pool ctx.programId π = some p → ctx.Projects π es w := by
  obtain ⟨w₀, hpools, hrecords, hrun⟩ := h
  apply hrun.history (P := fun es w => ctx.Coherent P U w ∧
    ∀ π p, w.pool ctx.programId π = some p → ctx.Projects π es w)
  · refine ⟨⟨?_, ?_⟩, ?_⟩
    · intro π p hp
      rw [hpools π] at hp
      cases hp
    · intro k d hd
      rw [hrecords k] at hd
      cases hd
    · intro π p hp
      rw [hpools π] at hp
      cases hp
  · intro es w e w' _ hIH hs
    obtain ⟨hcoherent, hprojects⟩ := hIH
    refine ⟨hcoherent.step hP hs, ?_⟩
    intro π p hp
    cases hbefore : w.pool ctx.programId π with
    | none =>
      obtain ⟨hfounds, hgenesis⟩ := hcoherent.genesis hP hs hbefore hp
      exact ⟨es, e, [], [], rfl, hfounds, .nil, w', hgenesis, rfl⟩
    | some q =>
      obtain ⟨-, t, m, hst⟩ := hcoherent.standing π q hbefore
      obtain ⟨e', he, hstep⟩ := hcoherent.seen hP hst hs
      exact (hprojects π q hbefore).snoc he hstep

/-- A run of the whole program is, for each of its pools, a run of that pool: its own
instructions from its creation on, in their order, and everything else from outside. -/
theorem run_of_every_pool (hP : ctx.Parties P U) (h : ctx.System P U es w)
    (hp : w.pool ctx.programId π = some p) :
    ∃ before create after seen, es = before ++ create :: after ∧ create.Founds π ∧
      List.Forall₂ (Event.Seen π) after seen ∧ ctx.Reached π seen w :=
  (h.projects hP).2 π p hp

/-- The second pool of the script, created after the first was used. -/
theorem Sample.run_of_every_pool_twin : ∃ before create after seen,
    twinScript.map Action.event = before ++ create :: after ∧ create.Founds (twinPool 12) ∧
      List.Forall₂ (Event.Seen (twinPool 12)) after seen ∧
      twinCtx.Reached (twinPool 12) seen twinAfter := by
  obtain ⟨p, hp⟩ := twin_pools (twinPool 12) (by decide +kernel)
  exact run_of_every_pool twin_parties twin_system hp

/-! ## Who signs nothing -/

/-- One event takes nothing from a key that does not sign in the deployment and that no
pool has for its authority. -/
theorem Context.SystemStep.keeps {A : Pubkey} (hs : ctx.SystemStep P U w e w') (hA : A ∉ U)
    (hauth : ∀ κ ∈ P, ctx.vaultAuthority κ ≠ A) (hw : ctx.WrapperSpares A) :
    World.Guarded A w w' ∧ ∀ k, (∀ κ ∈ P, ∀ v ∈ U, ctx.depositPda κ v ≠ k) →
      w'.record ctx.programId k = w.record ctx.programId k := by
  cases e with
  | outside y =>
    have hout : ctx.Elsewhere U w w' := hs
    exact ⟨hout.guarded A hA, fun k _ => hout.record_eq k⟩
  | instruction ix accounts =>
    obtain ⟨hnames, hsign, hd⟩ := hs
    refine ⟨process_guarded hd ?_ (fun a ha => hauth a.key (hnames a ha)) hw, ?_⟩
    · intro a ha hsigner e
      exact hA (e ▸ hsign a ha hsigner)
    · intro k hk
      rcases process_records hd k with hsame | hwrites
      · exact hsame
      · obtain ⟨user, a, d, hfirst, ha, hsigner, -, hkey, -⟩ := hwrites.written
        have huser := hsign user (List.mem_of_getElem? hfirst) hsigner
        exact (hk a.key (hnames a ha) user.key huser hkey.symm).elim

/-- Whoever signs nothing loses nothing, whatever is run on whichever pools: their token
accounts only grow, the mints under their authority issue nothing, and a record that is not
at the address of a signer is what it was. -/
theorem unsigned_keeps {A : Pubkey} (hrun : Transition.Run (ctx.SystemStep P U) w es w')
    (hA : A ∉ U) (hauth : ∀ κ ∈ P, ctx.vaultAuthority κ ≠ A) (hw : ctx.WrapperSpares A) :
    World.Guarded A w w' ∧ ∀ k, (∀ κ ∈ P, ∀ v ∈ U, ctx.depositPda κ v ≠ k) →
      w'.record ctx.programId k = w.record ctx.programId k := by
  apply hrun.invariant (I := fun u => World.Guarded A w u ∧
    ∀ k, (∀ κ ∈ P, ∀ v ∈ U, ctx.depositPda κ v ≠ k) →
      u.record ctx.programId k = w.record ctx.programId k)
  · intro e _ u u' hI hs
    obtain ⟨hguarded, hrecord⟩ := hI
    obtain ⟨hguarded', hrecord'⟩ := hs.keeps hA hauth hw
    exact ⟨hguarded.trans hguarded', fun k hk => (hrecord' k hk).trans (hrecord k hk)⟩
  · exact ⟨.refl A w, fun _ _ => rfl⟩

/-- The other depositor keeps what they have. -/
theorem Sample.unsigned_keeps_twin : World.Guarded (key bob) twinWorld twinAfter ∧
    ∀ k, (∀ κ ∈ {k | k ∈ twinPools}, ∀ v ∈ {k | twinSigns k = true},
      twinCtx.depositPda κ v ≠ k) →
      twinAfter.record twinCtx.programId k = twinWorld.record twinCtx.programId k := by
  have hbob : twinPools.all (fun κ => twinCtx.vaultAuthority κ != key bob) = true := by
    decide +kernel
  refine unsigned_keeps twin_run ?_
    (fun κ hκ => bne_iff_ne.mp (List.all_eq_true.mp hbob κ hκ)) (twin_spares (by decide))
  intro h
  cases show twinSigns (key bob) = true from h

/-! ## No pool pays for another -/

/-- What the pool at `π` owes to its LP. -/
def World.owed (w : World) (id π : Pubkey) : Nat :=
  ((w.pool id π).bind StakePool.totalPoolValue).elim 0 UInt64.toNat

def World.vaultOf (w : World) (id π : Pubkey) : Pubkey := (w.pool id π).elim π StakePool.vault

def World.lpMintOf (w : World) (id π : Pubkey) : Pubkey := (w.pool id π).elim π StakePool.lpMint

/-- The tokens in the account at `k`. -/
def World.held (w : World) (k : Pubkey) : Nat := (w.token k).elim 0 (·.amount.toNat)

/-- Pools with different authorities have different vaults and different LP mints. -/
theorem Standing.apart {p' : StakePool} {t' : TokenAccount} {m' : Mint}
    (h : Standing ctx π w p t m) (h' : Standing ctx κ w p' t' m')
    (hne : ctx.vaultAuthority κ ≠ ctx.vaultAuthority π) :
    p'.vault ≠ p.vault ∧ p'.lpMint ≠ p.lpMint := by
  refine ⟨fun e => hne ?_, fun e => hne ?_⟩
  · have ht := h'.vault_eq
    rw [e, h.vault_eq, Option.some_inj] at ht
    rw [← h'.vault_owner, ← ht, h.vault_owner]
  · have hm := h'.mint_eq
    rw [e, h.mint_eq, Option.some_inj] at hm
    have ha := h'.mint_authority
    rw [← hm, h.mint_authority, Option.some_inj] at ha
    exact ha.symm

/-- No two pools share a vault or an LP mint, and together the vaults hold what together the
pools owe, each vault counted once. -/
theorem deployment_backed (hP : ctx.Parties P U) (h : ctx.System P U es w) (S : Finset Pubkey)
    (hS : ∀ π ∈ S, ∃ p, w.pool ctx.programId π = some p) :
    (∀ π ∈ S, ∃ p v, w.pool ctx.programId π = some p ∧ p.totalPoolValue = some v) ∧
      Set.InjOn (w.vaultOf ctx.programId) S ∧ Set.InjOn (w.lpMintOf ctx.programId) S ∧
      ∑ π ∈ S, w.owed ctx.programId π ≤ ∑ k ∈ S.image (w.vaultOf ctx.programId), w.held k := by
  obtain ⟨hcoherent, hprojects⟩ := h.projects hP
  have hstands : ∀ π ∈ S, ∃ p t m, Standing ctx π w p t m := by
    intro π hπ
    obtain ⟨p, hp⟩ := hS π hπ
    obtain ⟨-, t, m, hst⟩ := hcoherent.standing π p hp
    exact ⟨p, t, m, hst⟩
  have hvalue : ∀ π ∈ S, ∃ p t v, w.pool ctx.programId π = some p ∧ w.token p.vault = some t ∧
      p.totalPoolValue = some v ∧ v ≤ t.amount := by
    intro π hπ
    obtain ⟨p, hp⟩ := hS π hπ
    obtain ⟨-, -, -, seen, -, -, -, hreached⟩ := hprojects π p hp
    obtain ⟨X, hX⟩ : ∃ X, ctx.Stands π X w := ⟨_, hreached.stands⟩
    obtain ⟨q, t, m, hvalid⟩ := hX
    have hle : q.book.value ≤ t.amount.toNat := hvalid.sound.toBalanced.value_le
    obtain ⟨v, hv, e⟩ :=
      StakePool.totalPoolValue_isSome (p := q) hvalid.sound.value_nonneg hvalid.value_lt
    refine ⟨q, t, v, hvalid.standing.pool_eq, hvalid.standing.vault_eq, hv, ?_⟩
    rw [UInt64.le_iff_toNat_le]
    omega
  have hapart : ∀ π ∈ S, ∀ κ ∈ S, π ≠ κ → w.vaultOf ctx.programId π ≠ w.vaultOf ctx.programId κ ∧
      w.lpMintOf ctx.programId π ≠ w.lpMintOf ctx.programId κ := by
    intro π hπ κ hκ hne
    obtain ⟨p, t, m, hst⟩ := hstands π hπ
    obtain ⟨p', t', m', hst'⟩ := hstands κ hκ
    have hauth : ctx.vaultAuthority π ≠ ctx.vaultAuthority κ := fun e => hne
      (hP.authority_inj κ (hcoherent.standing κ p' hst'.pool_eq).1 π
        (hcoherent.standing π p hst.pool_eq).1 e)
    unfold World.vaultOf World.lpMintOf
    rw [hst.pool_eq, hst'.pool_eq]
    exact hst'.apart hst hauth
  have hvaults : Set.InjOn (w.vaultOf ctx.programId) S := by
    intro π hπ κ hκ e
    by_contra hne
    exact (hapart π hπ κ hκ hne).1 e
  refine ⟨?_, hvaults, ?_, ?_⟩
  · intro π hπ
    obtain ⟨p, t, v, hp, -, hv, -⟩ := hvalue π hπ
    exact ⟨p, v, hp, hv⟩
  · intro π hπ κ hκ e
    by_contra hne
    exact (hapart π hπ κ hκ hne).2 e
  · rw [Finset.sum_image hvaults]
    apply Finset.sum_le_sum
    intro π hπ
    obtain ⟨p, t, v, hp, ht, hv, hle⟩ := hvalue π hπ
    unfold World.owed World.vaultOf World.held
    rw [hp, Option.bind_some, hv, Option.elim_some, Option.elim_some, ht, Option.elim_some]
    exact UInt64.le_iff_toNat_le.mp hle

theorem Sample.deployment_backed_twin :
    (∀ π ∈ twinPools.toFinset, ∃ p v, twinAfter.pool twinCtx.programId π = some p ∧
      p.totalPoolValue = some v) ∧
      Set.InjOn (twinAfter.vaultOf twinCtx.programId) twinPools.toFinset ∧
      Set.InjOn (twinAfter.lpMintOf twinCtx.programId) twinPools.toFinset ∧
      ∑ π ∈ twinPools.toFinset, twinAfter.owed twinCtx.programId π ≤
        ∑ k ∈ twinPools.toFinset.image (twinAfter.vaultOf twinCtx.programId), twinAfter.held k :=
  deployment_backed twin_parties twin_system _ fun π hπ => twin_pools π (List.mem_toFinset.mp hπ)

end

end PercolatorStake
