import PercolatorStake.Lib.Roles
import PercolatorStake.MarketBinding

/-!
# Custody of the insurance roles

The wrapper keeps, for every asset of every market, who holds which role.  Here the
program runs next to a wrapper that hands over a role by the rule its tag 65 has: on the
signature of the holder or of the asset admin, with the signature of a new holder, and
down to nobody only for the asset admin.

Once the asset admin is burned the vault authority keeps the roles it has.  Outside the
program it does not sign, and inside it signs as holder only in the two rotations, which
the flag of the burn closes.
-/

namespace PercolatorStake

open Bytes Result Word

/-! ## The wrapper's roles -/

/-- The key that cannot sign. -/
def nobody : Pubkey := Vector.replicate 32 0

/-- Who holds a role: by market, by asset and by kind. -/
abbrev Holders : Type := Pubkey → Nat → UInt8 → Pubkey

namespace Holders

variable (r : Holders)

def set (market : Pubkey) (asset : Nat) (kind : UInt8) (new : Pubkey) : Holders :=
  Function.update r market (Function.update (r market) asset
    (Function.update (r market asset) kind new))

/-- What tag 65 asks for a handover of the role `kind` to `newPubkey`. -/
def Allows (current new : AccountMeta) (market : Pubkey) (asset : Nat) (kind : UInt8)
    (newPubkey : Pubkey) : Prop :=
  current.isSigner = true ∧
    Roles.MayHandOver nobody Cpi.assetAuthAdmin (r market asset) current.pubkey kind ∧
    if newPubkey = nobody then kind = Cpi.assetAuthAdmin
    else new.isSigner = true ∧ new.pubkey = newPubkey

instance {current new : AccountMeta} {market : Pubkey} {asset : Nat} {kind : UInt8}
    {newPubkey : Pubkey} : Decidable (r.Allows current new market asset kind newPubkey) :=
  inferInstanceAs (Decidable (_ ∧ _ ∧ _))

def updateAssetAuthority : List AccountMeta → List UInt8 → Option Holders
  | current :: new :: market :: _, lo :: hi :: kind :: key =>
    let asset := decodeLe [lo, hi]
    let newPubkey : Pubkey := Vector.ofFn fun i => key.getD i 0
    if key.length = 32 ∧ r.Allows current new market.pubkey asset kind newPubkey then
      some (r.set market.pubkey asset kind newPubkey)
    else none
  | _, _ => none

/-- Tag 65 on the holders, and every other tag, which leaves them alone. -/
def handle (ix : Instruction) : Option Holders :=
  if ix.data.head? = some Cpi.tagUpdateAssetAuthority then
    r.updateAssetAuthority ix.accounts ix.data.tail
  else some r

/-- Only instructions to the wrapper program reach the holders. -/
def receive (ix : Instruction) : Except ProgramError Holders :=
  if ix.programId = percolatorMainnet then okOr (r.handle ix) ProgramError.invocationFailed
  else .ok r

/-- What the burn makes final: asset 0 of `market` has no admin, and `key` holds both
insurance roles. -/
def Sealed (market key : Pubkey) : Prop :=
  Roles.Sealed nobody Cpi.assetAuthAdmin {Cpi.assetAuthInsurance, Cpi.assetAuthInsuranceOperator}
    key (r market Cpi.assetIndexZero.toNat)

section

variable {r} {r' : Holders} {ix : Instruction} {market market' key new : Pubkey} {asset : Nat}
  {kind : UInt8}

theorem set_self : r.set market asset kind new market asset =
    Function.update (r market asset) kind new := by
  unfold set
  rw [Function.update_self, Function.update_self]

theorem set_of_ne (h : market' ≠ market) : r.set market asset kind new market' = r market' :=
  Function.update_of_ne h ..

theorem set_asset_of_ne {asset' : Nat} (h : asset' ≠ asset) :
    r.set market asset kind new market asset' = r market asset' := by
  unfold set
  rw [Function.update_self, Function.update_of_ne h]

/-- A handover is one that the current account signs for. -/
theorem updateAssetAuthority_eq_some {accounts : List AccountMeta} {payload : List UInt8}
    (h : r.updateAssetAuthority accounts payload = some r') :
    ∃ current market asset kind new, accounts[0]? = some current ∧
      accounts[2]?.map AccountMeta.pubkey = some market ∧ current.isSigner = true ∧
      Roles.MayHandOver nobody Cpi.assetAuthAdmin (r market asset) current.pubkey kind ∧
      r' = r.set market asset kind new := by
  unfold updateAssetAuthority at h
  split at h
  · rename_i current _ market _ lo hi kind _
    simp only at h
    split at h
    · rename_i hallowed
      exact ⟨current, market.pubkey, _, kind, _, rfl, rfl, hallowed.2.1, hallowed.2.2.1,
        (Option.some.inj h).symm⟩
    · cases h
  · cases h

/-- Whoever hands over a role of the market is not the holder of the sealed ones. -/
theorem Sealed.set (hs : r.Sealed market key) {signer : Pubkey}
    (hand : Roles.MayHandOver nobody Cpi.assetAuthAdmin (r market' asset) signer kind)
    (hne : market' = market → signer ≠ key) : (r.set market' asset kind new).Sealed market key := by
  unfold Sealed
  by_cases hm : market' = market
  · subst hm
    by_cases hasset : Cpi.assetIndexZero.toNat = asset
    · subst hasset
      rw [set_self]
      exact Roles.Sealed.handOver hs hand (hne rfl)
    · rw [set_asset_of_ne hasset]
      exact hs
  · rw [set_of_ne (Ne.symm hm)]
    exact hs

/-- Tag 65 signed by somebody else, or on another market, leaves the seal. -/
theorem Sealed.handle (hs : r.Sealed market key) (h : r.handle ix = some r')
    (hsigner : ix.data.head? = some Cpi.tagUpdateAssetAuthority → ix.market = some market →
      ∀ m, ix.accounts[0]? = some m → m.isSigner = true → m.pubkey ≠ key) :
    r'.Sealed market key := by
  unfold Holders.handle at h
  split at h
  · rename_i htag
    obtain ⟨current, market', asset, kind, new, hcurrent, hmarket, hsigns, hand, rfl⟩ :=
      updateAssetAuthority_eq_some h
    apply hs.set hand
    intro hm
    have hix : ix.market = some market := by
      obtain ⟨rest, hdata⟩ := List.head?_eq_some_iff.mp htag
      rw [← hm, ← hmarket, Instruction.market, hdata]
      rfl
    exact hsigner htag hix current hcurrent hsigns
  · cases h
    exact hs

/-- What tag 65 does to what the program sends. -/
theorem receive_updateAssetAuthority {current next newPubkey : Pubkey} {signs : Bool}
    (h : r.receive (Cpi.updateAssetAuthority percolatorMainnet current next market signs kind
      newPubkey) = .ok r') : r' = r.set market Cpi.assetIndexZero.toNat kind newPubkey := by
  have hupdate : r.updateAssetAuthority
      [.readonly current true, .readonly next signs, .writable market false]
      (0 :: 0 :: kind :: newPubkey.toList) = some r' := by
    have hhandle : r.handle (Cpi.updateAssetAuthority percolatorMainnet current next market signs
        kind newPubkey) = some r' := okOr_eq_ok.mp ((if_pos rfl).symm.trans h)
    rw [← hhandle]
    exact (if_pos rfl).symm
  unfold Holders.updateAssetAuthority at hupdate
  simp only [ofFn_toList] at hupdate
  split at hupdate
  · exact (Option.some.inj hupdate).symm
  · cases hupdate

/-- The burn seals what the key holds. -/
theorem Sealed.of_burn (hinsurance : r market Cpi.assetIndexZero.toNat Cpi.assetAuthInsurance = key)
    (hoperator : r market Cpi.assetIndexZero.toNat Cpi.assetAuthInsuranceOperator = key) :
    (r.set market Cpi.assetIndexZero.toNat Cpi.assetAuthAdmin nobody).Sealed market key := by
  unfold Sealed
  rw [set_self]
  apply Roles.Sealed.of_burn
  · decide
  · intro kind hkind
    rcases hkind with rfl | rfl
    · exact hinsurance
    · exact hoperator

end

end Holders

/-! ## Next to the wrapper -/

/-- The program's world and the wrapper's roles. -/
structure Custody where
  world : World
  roles : Holders

/-- What else the wrapper asks before it accepts may depend on the roles. -/
abbrev Gate : Type := Holders → World → Instruction → Bool

namespace Context

variable (ctx : Context) (gate : Gate)

/-- A call goes through when the wrapper accepts it and, on the market's wrapper program,
the roles allow it. -/
def issueHeld (s : Custody) (c : Call) : Except ProgramError Custody := do
  let w ← (ctx.gated (gate s.roles)).issue s.world c
  let r ← s.roles.receive c.ix
  .ok ⟨w, r⟩

def issueAllHeld : Custody → List Call → Except ProgramError Custody
  | s, [] => .ok s
  | s, c :: cs => do
    let s ← ctx.issueHeld gate s c
    issueAllHeld s cs

/-- `process`, with the roles next to the world. -/
def processHeld (s : Custody) (accounts : List AccountInfo) (ix : StakeInstruction) :
    Except ProgramError Custody := do
  let d ← dispatch ctx s.world accounts ix
  let s ← ctx.issueAllHeld gate ⟨d.world, s.roles⟩ d.calls
  let w ← d.finish s.world
  .ok ⟨w, s.roles⟩

end Context

/-- A transaction calls the program, or it calls the wrapper, or it is about neither the
pools nor the roles. -/
inductive CustodyEvent where
  | stake (ix : StakeInstruction) (accounts : List AccountInfo)
  | wrapper (ix : Instruction)
  | outside

/-- The vault authority of the pool at `π` signs no transaction. -/
def Context.CustodyStep (ctx : Context) (gate : Gate) (π : Pubkey) (s : Custody)
    (e : CustodyEvent) (s' : Custody) : Prop :=
  match e with
  | .stake ix accounts =>
    (∀ a ∈ accounts, a.isSigner = true → a.key ≠ ctx.vaultAuthority π) ∧
      ctx.processHeld gate s accounts ix = .ok s'
  | .wrapper ix =>
    (∀ m ∈ ix.accounts, m.isSigner = true → m.pubkey ≠ ctx.vaultAuthority π) ∧
      s.roles.handle ix = some s'.roles ∧
      ∀ k, s'.world.pool ctx.programId k = s.world.pool ctx.programId k
  | .outside =>
    s'.roles = s.roles ∧ ∀ k, s'.world.pool ctx.programId k = s.world.pool ctx.programId k

section

variable {ctx : Context} {gate : Gate} {s s' : Custody} {accounts : List AccountInfo}
  {ix : StakeInstruction} {c : Call} {cs : List Call} {d : Dispatch} {w : World}

theorem issueAllHeld_issueAll (h : ctx.issueAllHeld gate s cs = .ok s') :
    ctx.issueAll s.world cs = .ok s'.world := by
  induction cs generalizing s with
  | nil =>
    cases h
    rfl
  | cons c cs ih =>
    unfold Context.issueAllHeld Context.issueHeld at h
    simp only [bind_eq_ok, ok_eq_ok] at h
    obtain ⟨s₁, ⟨w₁, hw₁, r₁, -, rfl⟩, hrest⟩ := h
    unfold Context.issueAll
    rw [bind_eq_ok]
    exact ⟨w₁, Context.issue_of_gated hw₁, ih hrest⟩

/-- Forgetting the roles, the program does what it does. -/
theorem processHeld_process (h : ctx.processHeld gate s accounts ix = .ok s') :
    process ctx s.world accounts ix = .ok s'.world := by
  unfold Context.processHeld at h
  simp only [bind_eq_ok, ok_eq_ok] at h
  obtain ⟨d, hd, s₁, hs₁, w', hw', rfl⟩ := h
  rw [process_eq_dispatch, bind_eq_ok]
  refine ⟨d, hd, ?_⟩
  unfold Context.run
  rw [bind_eq_ok]
  exact ⟨s₁.world, issueAllHeld_issueAll hs₁, hw'⟩

/-- What every call preserves the calls of a handler preserve. -/
theorem issueAllHeld_sealed {market key : Pubkey} (h : ctx.issueAllHeld gate s cs = .ok s')
    (hs : s.roles.Sealed market key)
    (hcs : ∀ c ∈ cs, c.ix.data.head? = some Cpi.tagUpdateAssetAuthority →
      c.ix.market = some market →
      ∀ m, c.ix.accounts[0]? = some m → m.isSigner = true → m.pubkey ≠ key) :
    s'.roles.Sealed market key := by
  induction cs generalizing s with
  | nil =>
    cases h
    exact hs
  | cons c cs ih =>
    unfold Context.issueAllHeld Context.issueHeld at h
    simp only [bind_eq_ok, ok_eq_ok] at h
    obtain ⟨s₁, ⟨w₁, -, r₁, hr₁, rfl⟩, hrest⟩ := h
    apply ih hrest ?_ fun c hc => hcs c (List.mem_cons_of_mem _ hc)
    show r₁.Sealed market key
    unfold Holders.receive at hr₁
    split at hr₁
    · exact hs.handle (okOr_eq_ok.mp hr₁) (hcs c List.mem_cons_self)
    · cases hr₁
      exact hs

/-! ## Who signs a handover -/

/-- Tag 65 is sent by four handlers. -/
theorem dispatch_handover (h : dispatch ctx w accounts ix = .ok d) (hc : c ∈ d.calls)
    (htag : c.ix.data.head? = some Cpi.tagUpdateAssetAuthority) :
    ix = .bindInsuranceAuthority ∨ ix = .burnAssetAdmin ∨ ix = .rotateInsuranceAuthority ∨
      ix = .rotateInsuranceOperator := by
  obtain ⟨t, hix, hhead⟩ := dispatch_tag h hc
  obtain rfl : t = Cpi.tagUpdateAssetAuthority := Option.some_inj.mp (hhead.symm.trans htag)
  cases ix with
  | bindInsuranceAuthority => exact .inl rfl
  | burnAssetAdmin => exact .inr (.inl rfl)
  | rotateInsuranceAuthority => exact .inr (.inr (.inl rfl))
  | rotateInsuranceOperator => exact .inr (.inr (.inr rfl))
  | _ => cases hix

/-- On a pool whose asset admin is burned only the bind is left, which the admin signs. -/
theorem dispatch_handover_signer {a : AccountInfo} {p : StakePool}
    (h : dispatch ctx w accounts ix = .ok d) (hc : c ∈ d.calls)
    (htag : c.ix.data.head? = some Cpi.tagUpdateAssetAuthority)
    (ha : accounts[1]? = some a) (hp : w.pool ctx.programId a.key = some p)
    (hburned : p.assetAdminBurned = true) :
    ∃ u ∈ accounts, u.isSigner = true ∧ c.ix.accounts[0]? = some (.readonly u.key true) := by
  have hpool : ∀ {b : AccountInfo} {q : StakePool}, accounts[1]? = some b →
      w.owner b = ctx.programId → w.data b = .pool q → q = p := by
    intro b q hb howner hq
    obtain rfl : a = b := Option.some_inj.mp (ha.symm.trans hb)
    exact Option.some_inj.mp ((pool_of_read howner hq).symm.trans hp)
  rcases dispatch_handover h hc htag with rfl | rfl | rfl | rfl
  · unfold dispatch dispatchBindInsuranceAuthority requireSigner at h
    simp only [bind_eq_ok, rejectIf_eq_ok, Bool.not_eq_false, ok_eq_ok] at h
    obtain ⟨b, hb, _, hsigns, _, -, _, -, q, -, _, -, bump, -, rfl⟩ := h
    refine ⟨b.admin, ?_, hsigns, ?_⟩
    · unfold AuthorityAccounts.next at hb
      split at hb <;> cases hb
      exact List.mem_cons_self
    · rcases List.mem_cons.mp hc with rfl | hc
      · rfl
      · rw [List.mem_singleton.mp hc]
        rfl
  · unfold dispatch dispatchBurnAssetAdmin at h
    simp only [bind_eq_ok, rejectIf_eq_ok, validateAccountOwner_eq_ok, readPool_eq_ok,
      ok_eq_ok] at h
    obtain ⟨b, hb, _, -, _, -, _, howner, _, -, q, ⟨hq, -⟩, _, -, _, hopen, -⟩ := h
    rw [hpool (AuthorityAccounts.next_eq_ok hb) howner hq] at hopen
    exact (hopen hburned).elim
  all_goals
    unfold dispatch dispatchRotateRole at h
    simp only [bind_eq_ok, rejectIf_eq_ok, validateAccountOwner_eq_ok, readPool_eq_ok,
      ok_eq_ok] at h
    obtain ⟨b, hb, _, -, _, -, _, howner, _, -, q, ⟨hq, -⟩, _, -, _, hopen, -⟩ := h
    rw [hpool (RotateAccounts.next_eq_ok hb) howner hq] at hopen
    exact (hopen hburned).elim

end

/-! ## After the burn -/

/-- The pool at `π` of the market `slab` has burned the asset admin while its vault
authority held both insurance roles. -/
structure Custody.Final (ctx : Context) (π slab : Pubkey) (s : Custody) : Prop where
  chartered : ctx.AllChartered s.world
  pool : ∃ p, s.world.pool ctx.programId π = some p ∧ p.slab = slab ∧ p.assetAdminBurned = true
  roles : s.roles.Sealed slab (ctx.vaultAuthority π)

section

variable {ctx : Context} {gate : Gate} {π slab : Pubkey} {s s' : Custody} {e : CustodyEvent}
  {accounts : List AccountInfo} {ix : StakeInstruction}

/-- An event as far as the pools are concerned. -/
theorem AllChartered.custodyStep (h : ctx.AllChartered s.world)
    (hs : ctx.CustodyStep gate π s e s') : ctx.AllChartered s'.world := by
  cases e with
  | stake ix accounts =>
    have hprocess : ctx.PoolStep s.world (.instruction ix accounts) s'.world :=
      processHeld_process hs.2
    exact h.step hprocess
  | wrapper ix => exact h.step (e := .outside 0) hs.2.2
  | outside => exact h.step (e := .outside 0) hs.2

/-- An instruction keeps the pool, its market and the flag of the burn. -/
theorem burned_of_process {w w' : World} {p : StakePool}
    (hp : w.pool ctx.programId π = some p) (hburned : p.assetAdminBurned = true)
    (h : process ctx w accounts ix = .ok w') :
    ∃ p', w'.pool ctx.programId π = some p' ∧ p'.slab = p.slab ∧
      p'.assetAdminBurned = true := by
  cases hix : ix.creates with
  | false =>
    obtain ⟨a, q, q', -, hrw, hstep, -⟩ := process_rewrites h hix
    by_cases hk : π = a.key
    · subst hk
      obtain rfl : q = p := Option.some_inj.mp (hrw.before.symm.trans hp)
      exact ⟨q', hrw.after, congrArg Charter.slab hrw.charter_eq, hstep.keeps.2.2 hburned⟩
    · exact ⟨p, (hrw.others π hk).trans hp, rfl, hburned⟩
  | true =>
    obtain ⟨a, q, -, hc, -⟩ := process_creates h hix
    have hk : π ≠ a.poolPda.key := by
      intro hk
      have hnone := hc.before
      rw [← hk, hp] at hnone
      cases hnone
    exact ⟨p, (hc.others π hk).trans hp, rfl, hburned⟩

/-- The calls of an instruction leave the seal: on another pool they are about another
market, and on this one the vault authority does not sign as the holder. -/
theorem Custody.Final.sealed (h : s.Final ctx π slab)
    (hsigners : ∀ a ∈ accounts, a.isSigner = true → a.key ≠ ctx.vaultAuthority π)
    (hs : ctx.processHeld gate s accounts ix = .ok s') :
    s'.roles.Sealed slab (ctx.vaultAuthority π) := by
  obtain ⟨p, hp, hslab, hburned⟩ := h.pool
  unfold Context.processHeld at hs
  simp only [bind_eq_ok, ok_eq_ok] at hs
  obtain ⟨d, hd, s₁, hs₁, w', -, rfl⟩ := hs
  apply issueAllHeld_sealed hs₁ h.roles
  intro c hc htag hmarket m hm _
  have hix : ix.creates = false ∧ ix.market accounts p = some p.slab := by
    rcases dispatch_handover hd hc htag with rfl | rfl | rfl | rfl <;> exact ⟨rfl, rfl⟩
  obtain ⟨a, q, ha, hsent⟩ := dispatch_sent hd hix.1 hc
  have hslab' : p.slab = q.slab := by
    have hq : ix.market accounts q = some q.slab := by
      rcases dispatch_handover hd hc htag with rfl | rfl | rfl | rfl <;> rfl
    rw [hslab]
    exact Option.some_inj.mp (hmarket.symm.trans (hsent.market_eq.trans hq))
  have hk : π = a.key := h.chartered.address_eq hp hsent.pool_eq hslab'
  rw [hk] at hp
  obtain ⟨u, hu, hsigns, hfirst⟩ := dispatch_handover_signer hd hc htag ha hp hburned
  obtain rfl : AccountMeta.readonly u.key true = m := Option.some_inj.mp (hfirst.symm.trans hm)
  exact hsigners u hu hsigns

theorem Custody.Final.step (h : s.Final ctx π slab) (hs : ctx.CustodyStep gate π s e s') :
    s'.Final ctx π slab := by
  obtain ⟨p, hp, hslab, hburned⟩ := h.pool
  have hchartered := AllChartered.custodyStep h.chartered hs
  cases e with
  | stake ix accounts =>
    have hbefore : s.world.pool ctx.programId π = some p := hp
    obtain ⟨p', hp', hslab', hburned'⟩ :=
      burned_of_process hbefore hburned (processHeld_process hs.2)
    exact ⟨hchartered, ⟨p', hp', hslab'.trans hslab, hburned'⟩, h.sealed hs.1 hs.2⟩
  | wrapper ix =>
    obtain ⟨hsigners, hhandle, hpools⟩ := hs
    refine ⟨hchartered, ⟨p, (hpools π).trans hp, hslab, hburned⟩, h.roles.handle hhandle ?_⟩
    intro _ _ m hm hsigns
    exact hsigners m (List.mem_of_getElem? hm) hsigns
  | outside =>
    refine ⟨hchartered, ⟨p, (hs.2 π).trans hp, hslab, hburned⟩, ?_⟩
    rw [hs.1]
    exact h.roles

/-- What the burn does to the roles. -/
theorem processHeld_burn {a : AccountInfo} {p : StakePool} (hall : ctx.AllChartered s.world)
    (ha : accounts[1]? = some a) (hp : s.world.pool ctx.programId a.key = some p)
    (h : ctx.processHeld gate s accounts .burnAssetAdmin = .ok s') :
    s'.roles = s.roles.set p.slab Cpi.assetIndexZero.toNat Cpi.assetAuthAdmin nobody := by
  unfold Context.processHeld dispatch dispatchBurnAssetAdmin at h
  simp only [bind_eq_ok, validateAccountOwner_eq_ok, readPool_eq_ok, ok_eq_ok] at h
  obtain ⟨d, ⟨b, hb, _, -, _, -, _, howner, _, -, q, ⟨hq, -⟩, _, -, _, -, bump, hbind, rfl⟩, s₁,
    hs₁, w', -, rfl⟩ := h
  obtain rfl : a = b.poolPda :=
    Option.some_inj.mp (ha.symm.trans (AuthorityAccounts.next_eq_ok hb))
  obtain rfl : q = p := Option.some_inj.mp ((pool_of_read howner hq).symm.trans hp)
  obtain ⟨hslab, hprogram, -⟩ := bindMarket_eq_ok hbind
  have hmainnet : b.percolatorProgram.key = percolatorMainnet :=
    hprogram.symm.trans (hall _ q hp).program
  unfold Context.issueAllHeld Context.issueAllHeld Context.issueHeld at hs₁
  simp only [bind_eq_ok, ok_eq_ok] at hs₁
  obtain ⟨s₂, ⟨w₂, -, r₂, hr₂, rfl⟩, rfl⟩ := hs₁
  rw [hslab]
  rw [hmainnet] at hr₂
  exact Holders.receive_updateAssetAuthority hr₂

/-- The burn is final when the vault authority holds both roles. -/
theorem Custody.Final.of_burn {p : StakePool} (hall : ctx.AllChartered s.world)
    (hp : s.world.pool ctx.programId π = some p)
    (hinsurance : s.roles p.slab Cpi.assetIndexZero.toNat Cpi.assetAuthInsurance =
      ctx.vaultAuthority π)
    (hoperator : s.roles p.slab Cpi.assetIndexZero.toNat Cpi.assetAuthInsuranceOperator =
      ctx.vaultAuthority π)
    (hpool : ∃ a, accounts[1]? = some a ∧ a.key = π)
    (hs : ctx.CustodyStep gate π s (.stake .burnAssetAdmin accounts) s') :
    s'.Final ctx π p.slab := by
  obtain ⟨a, ha, rfl⟩ := hpool
  refine ⟨AllChartered.custodyStep hall hs, ?_, ?_⟩
  · obtain ⟨b, q, q', hb, hq, ⟨-, rfl⟩, hw'⟩ :=
      processBurnAssetAdmin_configured (processHeld_process hs.2)
    obtain rfl : a = b := Option.some_inj.mp (ha.symm.trans hb)
    obtain rfl : q = p := Option.some_inj.mp (hq.symm.trans hp)
    refine ⟨q.setAssetAdminBurned true, ?_, rfl, ?_⟩
    · rw [hw']
      exact World.pool_eq_some.mpr (World.account_set_self ..)
    · exact congrArg Settings.assetAdminBurned (StakePool.settings_setAssetAdminBurned q true)
  · rw [processHeld_burn hall ha hp hs.2]
    exact Holders.Sealed.of_burn hinsurance hoperator

/-- Once the asset admin of the market of a pool is burned with both insurance roles on the
vault authority, they stay there, and the pool stays burned. -/
theorem custody_final {s₀ s₁ s₂ : Custody} {es fs : List CustodyEvent} {p : StakePool}
    (hnone : ∀ k, s₀.world.pool ctx.programId k = none)
    (hreached : Transition.Run (ctx.CustodyStep gate π) s₀ es s)
    (hp : s.world.pool ctx.programId π = some p)
    (hinsurance : s.roles p.slab Cpi.assetIndexZero.toNat Cpi.assetAuthInsurance =
      ctx.vaultAuthority π)
    (hoperator : s.roles p.slab Cpi.assetIndexZero.toNat Cpi.assetAuthInsuranceOperator =
      ctx.vaultAuthority π)
    (hpool : ∃ a, accounts[1]? = some a ∧ a.key = π)
    (hburn : ctx.CustodyStep gate π s (.stake .burnAssetAdmin accounts) s₁)
    (hrun : Transition.Run (ctx.CustodyStep gate π) s₁ fs s₂) :
    s₂.roles p.slab Cpi.assetIndexZero.toNat Cpi.assetAuthInsurance = ctx.vaultAuthority π ∧
      s₂.roles p.slab Cpi.assetIndexZero.toNat Cpi.assetAuthInsuranceOperator =
        ctx.vaultAuthority π ∧
      ∃ q, s₂.world.pool ctx.programId π = some q ∧ q.slab = p.slab ∧
        q.assetAdminBurned = true := by
  have hall : ctx.AllChartered s.world := by
    apply hreached.invariant (I := fun s => ctx.AllChartered s.world)
    · intro e _ s s' hall hs
      exact AllChartered.custodyStep hall hs
    · intro k q hq
      rw [hnone k] at hq
      cases hq
  have hfinal : s₂.Final ctx π p.slab := by
    apply hrun.invariant (I := Custody.Final ctx π p.slab)
    · intro e _ s s' hfinal hs
      exact hfinal.step hs
    · exact Custody.Final.of_burn hall hp hinsurance hoperator hpool hburn
  exact ⟨hfinal.roles.held _ (.inl rfl), hfinal.roles.held _ (.inr rfl), hfinal.pool⟩

end

namespace Sample

/-- The admin holds every role to begin with. -/
def founded : Custody := ⟨world, fun _ _ _ => key admin⟩

def lax : Gate := fun _ _ _ => true

def authorityAccounts : List AccountInfo :=
  [signer (key admin), writable pool, readonly (ctx.vaultAuthority pool), writable slab,
    readonly percolatorMainnet]

/-- Carry out an event, if it is one of a run. -/
def hold (s : Custody) : CustodyEvent → Option Custody
  | .stake ix accounts =>
    if accounts.all (fun a => !a.isSigner || a.key != ctx.vaultAuthority pool) = true then
      (ctx.processHeld lax s accounts ix).toOption
    else none
  | .wrapper ix =>
    if ix.accounts.all (fun m => !m.isSigner || m.pubkey != ctx.vaultAuthority pool) = true then
      (s.roles.handle ix).map (Custody.mk s.world)
    else none
  | .outside => some s

def holdAll : Custody → List CustodyEvent → Option Custody
  | s, [] => some s
  | s, e :: es => do
    let s ← hold s e
    holdAll s es

def bound : List CustodyEvent :=
  [.stake (.initPool 1 0) initAccounts, .stake .bindInsuranceAuthority authorityAccounts]

def burn : CustodyEvent := .stake .burnAssetAdmin authorityAccounts

/-- The admin still gives away another role, and configures the pool. -/
def afterBurn : List CustodyEvent :=
  [.wrapper (Cpi.updateAssetAuthority percolatorMainnet (key admin) (key bob) slab true 3
      (key bob)),
    .stake (.updateConfig none (some 7)) adminAccounts]

theorem hold_step {s s' : Custody} {e : CustodyEvent} (h : hold s e = some s') :
    ctx.CustodyStep lax pool s e s' := by
  cases e with
  | stake ix accounts =>
    simp only [hold] at h
    split at h
    · rename_i hall
      refine ⟨?_, toOption_eq_some.mp h⟩
      intro a ha hsigns
      have ha := List.all_eq_true.mp hall a ha
      rw [hsigns] at ha
      simpa using ha
    · cases h
  | wrapper ix =>
    simp only [hold] at h
    split at h
    · rename_i hall
      obtain ⟨r, hr, rfl⟩ := Option.map_eq_some_iff.mp h
      refine ⟨?_, hr, fun _ => rfl⟩
      intro m hm hsigns
      have hm := List.all_eq_true.mp hall m hm
      rw [hsigns] at hm
      simpa using hm
    · cases h
  | outside =>
    cases h
    exact ⟨rfl, fun _ => rfl⟩

theorem holdAll_run {s s' : Custody} {es : List CustodyEvent} (h : holdAll s es = some s') :
    Transition.Run (ctx.CustodyStep lax pool) s es s' := by
  induction es generalizing s with
  | nil =>
    cases h
    rfl
  | cons e es ih =>
    unfold holdAll at h
    obtain ⟨u, hu, hrest⟩ := Option.bind_eq_some_iff.mp h
    exact ⟨u, hold_step hu, ih hrest⟩

theorem custody_final_burned : ∃ s₂, ((holdAll founded bound).bind fun s => (hold s burn).bind
      fun s => holdAll s afterBurn) = some s₂ ∧
    s₂.roles slab 0 1 = Sample.ctx.vaultAuthority pool ∧
    s₂.roles slab 0 2 = Sample.ctx.vaultAuthority pool ∧ s₂.roles slab 0 3 = key bob := by
  have hroles : (holdAll founded bound).map (fun s => (s.roles slab 0 1, s.roles slab 0 2,
      (s.world.pool Sample.ctx.programId pool).map (·.slab))) =
      some (Sample.ctx.vaultAuthority pool, Sample.ctx.vaultAuthority pool, some slab) := by
    decide +kernel
  have hlast : ((holdAll founded bound).bind fun s => (hold s burn).bind
      fun s => holdAll s afterBurn).map (fun s => s.roles slab 0 3) = some (key bob) := by
    decide +kernel
  obtain ⟨s₂, hs₂, hbob⟩ := Option.map_eq_some_iff.mp hlast
  obtain ⟨s, hs, hs₂'⟩ := Option.bind_eq_some_iff.mp hs₂
  obtain ⟨s₁, hs₁, hs₂'⟩ := Option.bind_eq_some_iff.mp hs₂'
  rw [hs, Option.map_some, Option.some_inj, Prod.mk.injEq, Prod.mk.injEq] at hroles
  obtain ⟨hinsurance, hoperator, hpool⟩ := hroles
  obtain ⟨p, hp, hslab⟩ := Option.map_eq_some_iff.mp hpool
  rw [← hslab] at hinsurance hoperator
  obtain ⟨h1, h2, -⟩ := custody_final world_pool_none (holdAll_run hs) hp hinsurance hoperator
    ⟨_, rfl, rfl⟩ (hold_step hs₁) (holdAll_run hs₂')
  rw [hslab] at h1 h2
  exact ⟨s₂, hs₂, h1, h2, hbob⟩

end Sample

end PercolatorStake
