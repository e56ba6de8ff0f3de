import PercolatorStake.Reference
import PercolatorStake.Simulation

/-!
# Running a pool

The step relation of a run leaves the outside world free.  Here it is run: an
action is an event with everything needed to carry it out, and what carrying it
out gives is a step.  A script of actions after the creation of a pool reaches the
world it computes.

The deployment at the end is small enough to run.
-/

namespace PercolatorStake

open Result Word

inductive Action where
  | call (ix : StakeInstruction) (accounts : List AccountInfo)
  | send (amount : UInt64)
  | tick (clock : Clock)

namespace Action

def event : Action → Event
  | .call ix accounts => .instruction ix accounts
  | .send amount => .outside amount.toNat
  | .tick _ => .outside 0

end Action

namespace Context

variable (ctx : Context) (π : Pubkey)

/-- Collateral sent to the vault of the pool. -/
def send (w : World) (amount : UInt64) : Option World := do
  let p ← w.pool ctx.programId π
  let t ← w.token p.vault
  let sum ← checkedAdd t.amount amount
  some (SplToken.setToken w p.vault { t with amount := sum })

def tick (w : World) (clock : Clock) : Option World :=
  match w.account clockSysvarId with
  | ⟨o, .clock _⟩ => some (w.set clockSysvarId ⟨o, .clock clock⟩)
  | _ => none

def call (w : World) (ix : StakeInstruction) (accounts : List AccountInfo) : Option World :=
  if (ix.poolAccount accounts).map (·.key) = some π ∧
      accounts.all (fun a => !a.isSigner || a.key != ctx.vaultAuthority π) = true then
    (process ctx w accounts ix).toOption
  else none

def perform (w : World) : Action → Option World
  | .call ix accounts => ctx.call π w ix accounts
  | .send amount => ctx.send π w amount
  | .tick clock => tick w clock

def performAll : World → List Action → Option World
  | w, [] => some w
  | w, a :: as => do
    let w ← ctx.perform π w a
    performAll w as

/-- Run a script and label every action by what `label` reads off the world it is
carried out in.  Without a label the run stops. -/
def performLabelled {L : Type} (label : World → Action → Option L) :
    World → List Action → Option (List L × World)
  | w, [] => some ([], w)
  | w, a :: as => do
    let l ← label w a
    let w ← ctx.perform π w a
    let (ls, w) ← performLabelled label w as
    some (l :: ls, w)

/-- Create a pool and run a script on it. -/
def launch (w : World) (ix : StakeInstruction) (accounts : List AccountInfo)
    (script : List Action) : Option World := do
  let w ← (process ctx w accounts ix).toOption
  ctx.performAll π w script

end Context

/-! ## What is run is a run -/

section

variable {ctx : Context} {π : Pubkey} {w w' : World}

theorem Context.send_outside {amount : UInt64} (h : ctx.send π w amount = some w') :
    ctx.Outside π amount.toNat w w' := by
  unfold Context.send at h
  simp only [Option.bind_eq_bind, Option.bind_eq_some_iff, checkedAdd_eq_some,
    Option.some_inj] at h
  obtain ⟨p, hp, t, ht, sum, hsum, rfl⟩ := h
  have hw := SplToken.setToken_tokensOnly (t := { t with amount := sum }) ht
  refine ⟨hw.pool_eq _ _, ?_, ?_, fun k d _ => by rw [hw.record_eq], fun user => hw.record_eq _ _⟩
  · intro q t' hq ht'
    obtain rfl : p = q := Option.some_inj.mp (hp.symm.trans hq)
    obtain rfl : t = t' := Option.some_inj.mp (ht.symm.trans ht')
    exact ⟨sum, hsum, SplToken.token_setToken_self⟩
  · intro q m hq hm
    exact ⟨m.supply, Nat.le_refl _, (SplToken.mint_setToken ht).trans hm⟩

/-- Nothing of a pool is where a clock is. -/
theorem lookups_of_clock (id : Pubkey) {k : Pubkey} {c : Clock}
    (h : (w.account k).data = .clock c) :
    w.pool id k = none ∧ w.token k = none ∧ w.mint k = none ∧ w.record id k = none := by
  unfold World.pool World.token World.mint World.record
  cases hk : w.account k with
  | mk o x =>
    rw [hk] at h
    subst h
    exact ⟨rfl, rfl, rfl, rfl⟩

theorem tick_lookups (id : Pubkey) {clock : Clock} (h : Context.tick w clock = some w')
    (k : Pubkey) : w'.pool id k = w.pool id k ∧ w'.token k = w.token k ∧
      w'.mint k = w.mint k ∧ w'.record id k = w.record id k := by
  unfold Context.tick at h
  split at h
  · rename_i o c hc
    cases h
    by_cases hk : k = clockSysvarId
    · obtain ⟨h1, h2, h3, h4⟩ := lookups_of_clock id (w := w) (k := k) (c := c) (by rw [hk, hc])
      obtain ⟨h1', h2', h3', h4'⟩ := lookups_of_clock id (k := k)
        (w := w.set clockSysvarId ⟨o, .clock clock⟩) (c := clock)
        (by rw [hk, World.account_set_self])
      exact ⟨h1'.trans h1.symm, h2'.trans h2.symm, h3'.trans h3.symm, h4'.trans h4.symm⟩
    · simp only [World.pool, World.token, World.mint, World.record,
        World.account_set_of_ne hk, and_self]
  · cases h

theorem Context.tick_outside {clock : Clock} (h : Context.tick w clock = some w') :
    ctx.Outside π 0 w w' := by
  have hsame := tick_lookups ctx.programId h
  exact ⟨(hsame _).1, fun {p t} _ ht => ⟨t.amount, rfl, (hsame _).2.1.trans ht⟩,
    fun {p m} _ hm => ⟨m.supply, Nat.le_refl _, (hsame _).2.2.1.trans hm⟩,
    fun k d _ => by rw [(hsame k).2.2.2], fun user => (hsame _).2.2.2⟩

theorem Context.perform_step {a : Action} (h : ctx.perform π w a = some w') :
    ctx.Step π w a.event w' := by
  cases a with
  | send amount => exact Context.send_outside h
  | tick clock => exact Context.tick_outside h
  | call ix accounts =>
    have h : ctx.call π w ix accounts = some w' := h
    unfold Context.call at h
    split at h
    · rename_i hguard
      obtain ⟨hpool, hsign⟩ := hguard
      obtain ⟨a, ha, hk⟩ := Option.map_eq_some_iff.mp hpool
      refine ⟨⟨a, ha, hk⟩, ?_, toOption_eq_some.mp h⟩
      intro b hb hs e
      have := List.all_eq_true.mp hsign b hb
      simp [hs, e] at this
    · cases h

theorem Context.performAll_run {step : World → Event → World → Prop} {as : List Action}
    (hstep : ∀ w a w', ctx.perform π w a = some w' → step w a.event w')
    (h : ctx.performAll π w as = some w') : Transition.Run step w (as.map Action.event) w' := by
  induction as generalizing w with
  | nil =>
    cases h
    rfl
  | cons a as ih =>
    unfold Context.performAll at h
    obtain ⟨u, hu, hrest⟩ := Option.bind_eq_some_iff.mp h
    exact ⟨u, hstep w a u hu, ih hrest⟩

theorem Context.performLabelled_run {L : Type} {label : World → Action → Option L}
    {step : World → L → World → Prop} {as : List Action} {ls : List L}
    (hstep : ∀ w a l w', label w a = some l → ctx.perform π w a = some w' → step w l w')
    (h : ctx.performLabelled π label w as = some (ls, w')) : Transition.Run step w ls w' := by
  induction as generalizing w ls with
  | nil =>
    cases h
    rfl
  | cons a as ih =>
    unfold Context.performLabelled at h
    simp only [Option.bind_eq_bind, Option.bind_eq_some_iff, Prod.exists, Option.some_inj,
      Prod.mk.injEq] at h
    obtain ⟨l, hl, u, hu, ls', v, hrest, rfl, rfl⟩ := h
    exact ⟨u, hstep w a l u hl hu, ih hrest⟩

theorem Context.performAll_append {as bs : List Action} :
    ctx.performAll π w (as ++ bs) = (ctx.performAll π w as).bind (ctx.performAll π · bs) := by
  induction as generalizing w with
  | nil => rfl
  | cons a as ih =>
    simp only [List.cons_append, Context.performAll, Option.bind_eq_bind, Option.bind_assoc, ih]

/-- A script run on a new pool reaches the world it computes. -/
theorem Context.launch_reached {ix : StakeInstruction} {accounts : List AccountInfo}
    {script : List Action} (hfresh : ctx.Fresh π w)
    (hix : ∃ slots cap, ix = .initPool slots cap ∨ ix = .initTradingPool slots cap)
    (hpool : (ix.poolAccount accounts).map (·.key) = some π)
    (h : ctx.launch π w ix accounts script = some w') :
    ctx.Reached π (script.map Action.event) w' := by
  unfold Context.launch at h
  obtain ⟨w₁, hw₁, hrest⟩ := Option.bind_eq_some_iff.mp h
  obtain ⟨a, ha, hk⟩ := Option.map_eq_some_iff.mp hpool
  exact ⟨w₁, ⟨w, ix, accounts, hfresh, hix, ⟨a, ha, hk⟩, toOption_eq_some.mp hw₁⟩,
    Context.performAll_run (fun _ _ _ => Context.perform_step) hrest⟩

end

/-! ## Worlds from a list of accounts -/

def World.ofList (accounts : List (Pubkey × Account)) (lamports : Pubkey → UInt64) : World :=
  ⟨fun k => ((accounts.find? fun x => x.1 == k).map (·.2)).getD ⟨systemProgramId, .empty⟩, lamports⟩

def AccountData.isDeposit : AccountData → Bool
  | .deposit _ => true
  | _ => false

theorem fresh_ofList {ctx : Context} {π : Pubkey} {accounts : List (Pubkey × Account)}
    {lamports : Pubkey → UInt64} (h : accounts.all (fun x => !x.2.data.isDeposit) = true) :
    ctx.Fresh π (World.ofList accounts lamports) := by
  have hnone : ∀ k, (World.ofList accounts lamports).record ctx.programId k = none := by
    intro k
    cases hr : (World.ofList accounts lamports).record ctx.programId k with
    | none => rfl
    | some d =>
      rw [World.record_eq_some] at hr
      unfold World.ofList at hr
      simp only at hr
      cases hf : accounts.find? (fun x => x.1 == k) with
      | none =>
        rw [hf] at hr
        cases congrArg Account.data hr
      | some x =>
        rw [hf] at hr
        have hx := List.all_eq_true.mp h x (List.mem_of_find?_eq_some hf)
        have hd : x.2 = ⟨ctx.programId, .deposit d⟩ := hr
        rw [hd] at hx
        cases hx
  refine ⟨fun k d hd => ?_, fun user => hnone _⟩
  rw [hnone k] at hd
  cases hd

/-- A world that is listed without an account of the program `id` has none. -/
theorem ofList_foreign {id : Pubkey} {accounts : List (Pubkey × Account)}
    {lamports : Pubkey → UInt64} (h : accounts.all (fun x => x.2.owner != id) = true)
    (hid : systemProgramId ≠ id)
    (k : Pubkey) :
    (World.ofList accounts lamports).pool id k = none ∧
      (World.ofList accounts lamports).record id k = none := by
  have howner : ((World.ofList accounts lamports).account k).owner ≠ id := by
    unfold World.ofList
    cases hf : accounts.find? (fun x => x.1 == k) with
    | none =>
      simp only [hf, Option.map_none, Option.getD_none]
      exact hid
    | some x =>
      have hx := List.all_eq_true.mp h x (List.mem_of_find?_eq_some hf)
      simp only [hf, Option.map_some, Option.getD_some]
      exact bne_iff_ne.mp hx
  refine ⟨?_, ?_⟩
  · cases hp : (World.ofList accounts lamports).pool id k with
    | none => rfl
    | some p =>
      rw [World.pool_eq_some.mp hp] at howner
      exact (howner rfl).elim
  · cases hd : (World.ofList accounts lamports).record id k with
    | none => rfl
    | some d =>
      rw [World.record_eq_some.mp hd] at howner
      exact (howner rfl).elim

/-! ## A deployment -/

namespace Sample

/-- Byte `i` of an address is read off byte `i` of every seed. -/
def digest (seeds : List (List UInt8)) (id : Pubkey) : Pubkey :=
  Vector.ofFn fun i => seeds.foldl (fun acc s => acc * 3 + s.getD i 0 + 1) (id.get i)

def derivation : Derivation where
  findProgramAddress seeds id := (digest seeds id, 254)
  createProgramAddress seeds id := some (digest seeds.dropLast id)
  create_find seeds id := by rw [List.dropLast_concat]

def key (n : UInt8) : Pubkey := Vector.replicate 32 n

/-- A wrapper that accepts everything, and one lamport of rent for every hundred bytes. -/
def ctx : Context where
  derivation := derivation
  programId := key 9
  tokenProgram := tokenProgram
  wrapper := wrapper fun _ _ => true
  systemProgram := systemProgram
  minimumBalance space := UInt64.ofNat (space / 100)

def slab : Pubkey := key 11
def collateralMint : Pubkey := key 20
def lpMint : Pubkey := key 21
def vault : Pubkey := key 22
def wrapperVault : Pubkey := key 23

/-- Users by number, with one account for collateral and one for LP. -/
def admin : UInt8 := 1
def alice : UInt8 := 40
def bob : UInt8 := 41

def ata (user : UInt8) : Pubkey := key (user + 50)
def lpAta (user : UInt8) : Pubkey := key (user + 100)

def pool : Pubkey := (ctx.derivation.derivePoolPda ctx.programId slab).1

def token (mint owner : Pubkey) (amount : UInt64) : Account :=
  ⟨splTokenId, .token ⟨mint, owner, amount, .initialized⟩⟩

def accounts : List (Pubkey × Account) :=
  [(slab, ⟨percolatorMainnet, .other []⟩),
    (collateralMint, ⟨splTokenId, .mint ⟨none, 10000000, 6, true⟩⟩),
    (lpMint, ⟨splTokenId, .mint ⟨none, 0, 0, false⟩⟩),
    (vault, ⟨splTokenId, .token ⟨key 0, key 0, 0, .uninitialized⟩⟩),
    (wrapperVault, token collateralMint percolatorMainnet 1000000),
    (ata admin, token collateralMint (key admin) 1000000),
    (ata alice, token collateralMint (key alice) 1000000),
    (ata bob, token collateralMint (key bob) 1000000),
    (lpAta alice, token lpMint (key alice) 0),
    (lpAta bob, token lpMint (key bob) 0),
    (clockSysvarId, ⟨systemProgramId, .clock ⟨100, 1⟩⟩)]

/-- The users have lamports, and no other address. -/
def lamports (k : Pubkey) : UInt64 :=
  if k = key admin ∨ k = key alice ∨ k = key bob then 1000 else 0

def world : World := World.ofList accounts lamports

def signer (k : Pubkey) : AccountInfo := ⟨k, true, true⟩
def writable (k : Pubkey) : AccountInfo := ⟨k, false, true⟩
def readonly (k : Pubkey) : AccountInfo := ⟨k, false, false⟩

def initAccounts : List AccountInfo :=
  [signer (key admin), writable slab, writable pool, writable lpMint, writable vault,
    readonly (ctx.vaultAuthority pool), readonly collateralMint, readonly percolatorMainnet,
    readonly splTokenId, readonly systemProgramId, readonly rentSysvarId]

def depositAccounts (user : UInt8) : List AccountInfo :=
  [signer (key user), writable pool, writable (ata user), writable vault, writable lpMint,
    writable (lpAta user), readonly (ctx.vaultAuthority pool),
    writable (ctx.depositPda pool (key user)), readonly splTokenId, readonly clockSysvarId,
    readonly systemProgramId]

def withdrawAccounts (user : UInt8) : List AccountInfo :=
  [signer (key user), writable pool, writable (lpAta user), writable lpMint, writable vault,
    writable (ata user), readonly (ctx.vaultAuthority pool),
    writable (ctx.depositPda pool (key user)), readonly splTokenId, readonly clockSysvarId]

def flushAccounts : List AccountInfo :=
  [signer (key admin), writable pool, writable vault, readonly (ctx.vaultAuthority pool),
    writable slab, writable wrapperVault, readonly percolatorMainnet, readonly splTokenId]

def returnAccounts : List AccountInfo :=
  [signer (key admin), writable pool, writable (ata admin), writable vault, readonly splTokenId]

def recoverAccounts : List AccountInfo :=
  [signer (key bob), writable pool, writable vault, readonly (ctx.vaultAuthority pool),
    writable slab, writable wrapperVault, readonly percolatorMainnet, readonly splTokenId,
    readonly percolatorMainnet]

def adminAccounts : List AccountInfo := [signer (key admin), writable pool]

def accrueAccounts : List AccountInfo :=
  [signer (key bob), writable pool, readonly vault, readonly clockSysvarId]

def deposit (user : UInt8) (amount : UInt64) : Action :=
  .call (.deposit amount) (depositAccounts user)

def depositJunior (user : UInt8) (amount : UInt64) : Action :=
  .call (.depositJunior amount) (depositAccounts user)

def withdraw (user : UInt8) (lp : UInt64) : Action := .call (.withdraw lp) (withdrawAccounts user)

def flush (amount : UInt64) : Action := .call (.flushToInsurance amount) flushAccounts

def giveBack (amount : UInt64) : Action := .call (.returnInsurance amount) returnAccounts

def recover (amount : UInt64) : Action := .call (.recoverFlushedInsurance amount) recoverAccounts

def enableTranches : Action := .call (.adminSetTrancheConfig 10000) adminAccounts

def accrue : Action := .call .accrueFees accrueAccounts

def resolve : Action := .call .setMarketResolved adminAccounts

def timelockAccounts : List AccountInfo := adminAccounts ++ [readonly clockSysvarId]

def proposeCooldown (slots : UInt64) : Action :=
  .call (.proposeCooldownIncrease slots) timelockAccounts

def commitCooldown : Action := .call .commitCooldownIncrease timelockAccounts

/-- Run a script on a new pool. -/
def run (script : List Action) : Option World :=
  ctx.launch pool world (.initPool 1 0) initAccounts script

/-- The world a script ends in. -/
def after (script : List Action) : World := (run script).getD world

theorem run_eq {script : List Action} (h : (run script).isSome = true) :
    run script = some (after script) := by
  obtain ⟨w, hw⟩ := Option.isSome_iff_exists.mp h
  rw [after, hw, Option.getD_some]

theorem world_pool_none (k : Pubkey) : world.pool ctx.programId k = none :=
  (ofList_foreign (by decide) (by decide) k).1

/-- A script after which there is a pool has run to its end. -/
theorem run_of_pool {α : Type} {f : StakePool → α} {x : α} {s : List Action}
    (h : ((after s).pool ctx.programId pool).map f = some x) : (run s).isSome = true := by
  cases hrun : run s with
  | some w => rfl
  | none =>
    rw [after, hrun, Option.getD_none, world_pool_none] at h
    cases h

theorem after_reached {s : List Action} (h : (run s).isSome = true) :
    ctx.Reached pool (s.map Action.event) (after s) :=
  Context.launch_reached (fresh_ofList (by decide)) ⟨1, 0, .inl rfl⟩ rfl (run_eq h)

/-- The pool right after its creation. -/
theorem after_nil_genesis : ctx.Genesis pool (after []) := by
  obtain ⟨w₀, hgenesis, hnil⟩ := after_reached (s := []) (by decide +kernel)
  have hw : w₀ = after [] := hnil
  rwa [hw] at hgenesis

/-- What a script goes on with is a run. -/
theorem after_run {s r : List Action} (h : (run (s ++ r)).isSome = true) :
    (run s).isSome = true ∧ Transition.Run (ctx.Step pool) (after s)
      (r.map Action.event) (after (s ++ r)) := by
  have hrun := run_eq h
  unfold run Context.launch at hrun
  obtain ⟨w₁, hw₁, hrest⟩ := Option.bind_eq_some_iff.mp hrun
  rw [Context.performAll_append] at hrest
  obtain ⟨w₂, hw₂, hlast⟩ := Option.bind_eq_some_iff.mp hrest
  have hscript : run s = some w₂ := by
    unfold run Context.launch
    exact Option.bind_eq_some_iff.mpr ⟨w₁, hw₁, hw₂⟩
  refine ⟨by rw [hscript]; rfl, ?_⟩
  have hw : after s = w₂ := by rw [after, hscript, Option.getD_some]
  rw [hw]
  exact Context.performAll_run (fun _ _ _ => Context.perform_step) hlast

/-- The next action of a script is a step. -/
theorem after_step {s : List Action} {a : Action} (h : (run (s ++ [a])).isSome = true) :
    (run s).isSome = true ∧ ctx.Step pool (after s) a.event (after (s ++ [a])) := by
  obtain ⟨hscript, u, hu, hnil⟩ := after_run h
  rw [← Transition.run_nil.mp hnil]
  exact ⟨hscript, hu⟩

end Sample

end PercolatorStake
