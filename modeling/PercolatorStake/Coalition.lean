import PercolatorStake.Ledger.Coalition
import PercolatorStake.Dilution

/-!
# No coalition extracts value

Users who hold nothing, trade with the pool while nobody else does, and hold nothing
again have paid in at least what was paid out to them.
-/

namespace PercolatorStake

open Word

namespace Event

/-- Collateral the depositor pays in. -/
def paidIn : Event → Nat
  | .instruction (.deposit amount) _ => amount.toNat
  | .instruction (.depositJunior amount) _ => amount.toNat
  | _ => 0

/-- A deposit, a withdrawal or an accrual by one of the users `A`, or time passing and
LP changing hands with nothing coming in. -/
def By (A : Set Pubkey) : Event → Prop
  | .instruction (.deposit _) accounts | .instruction (.depositJunior _) accounts
  | .instruction (.withdraw _) accounts => ∃ user, accounts[0]? = some user ∧ user.key ∈ A
  | .instruction .accrueFees _ => True
  | .outside x => x = 0
  | .instruction .. => False

end Event

namespace Context

variable (ctx : Context) (π : Pubkey)

/-- The collateral in the vault. -/
def vaultAmount (w : World) : Option Nat := do
  let p ← w.pool ctx.programId π
  let t ← w.token p.vault
  some t.amount.toNat

/-- The step pays `x` out of the vault, on top of taking in what the depositor
pays. -/
def Pays (w : World) (e : Event) (w' : World) (x : Nat) : Prop :=
  ∃ v v', ctx.vaultAmount π w = some v ∧ ctx.vaultAmount π w' = some v' ∧ v + e.paidIn = v' + x

/-- A step labelled with the event and what it pays out. -/
def PaidStep (w : World) (l : Event × Nat) (w' : World) : Prop :=
  ctx.Step π w l.1 w' ∧ ctx.Pays π w l.1 w' l.2

/-- The records of the users hold no LP. -/
def EmptyHanded (A : Set Pubkey) (w : World) : Prop :=
  ∀ u ∈ A, ∀ d, w.record ctx.programId (ctx.depositPda π u) = some d → d.lpAmount = 0

end Context

section

variable {ctx : Context} {π : Pubkey} {w w' : World} {p p' : StakePool} {t : TokenAccount}
  {m : Mint} {A : Set Pubkey} {e : Event} {es : List Event} {ls : List (Event × Nat)}
  {ms : List (Move Pubkey)} {X : Nat}

theorem Valid.vaultAmount_eq (h : Valid ctx π X w p t m) :
    ctx.vaultAmount π w = some t.amount.toNat := by
  unfold Context.vaultAmount
  simp only [h.standing.pool_eq, h.standing.vault_eq, Option.bind_eq_bind, Option.bind_some]

/-- The moves of a member are on the records of members. -/
theorem Realizes.by_members (h : Realizes ctx π e ms) (hby : e.By A) :
    ∀ mv ∈ ms, mv.By (ctx.depositPda π '' A) := by
  have hmem : ∀ {accounts : List AccountInfo} {user : AccountInfo}, accounts[0]? = some user →
      (∃ u, accounts[0]? = some u ∧ u.key ∈ A) →
      ctx.depositPda π user.key ∈ ctx.depositPda π '' A := by
    intro accounts user huser ⟨u, hu, hA⟩
    obtain rfl : user = u := Option.some_inj.mp (huser.symm.trans hu)
    exact ⟨user.key, hA, rfl⟩
  intro mv hmv
  cases h.moves mv hmv with
  | accrue => trivial
  | inflow => exact hby
  | deposit huser | depositJunior huser => exact hmem huser hby
  | withdraw huser hw => rcases hw with rfl | rfl | rfl <;> exact hmem huser hby
  | _ => cases hby

theorem Event.By.inflow (h : e.By A) : e.inflow = 0 := by
  cases e with
  | outside => exact h
  | instruction => rfl

/-- The trades of a coalition as a run of the ledger, with the vault balanced against
what was paid in and out. -/
theorem Valid.coalition_run (h : Valid ctx π X w p t m)
    (hrun : Transition.Run (ctx.PaidStep π) w ls w') (hby : ∀ l ∈ ls, l.1.By A) :
    ∃ p' t' m' ms, Valid ctx π X w' p' t' m' ∧
      Transition.Run Ledger.Step (ledgerOf ctx π w p t) ms (ledgerOf ctx π w' p' t') ∧
      (∀ mv ∈ ms, mv.By (ctx.depositPda π '' A)) ∧
      t.amount.toNat + (ls.map (·.1.paidIn)).sum = t'.amount.toNat + (ls.map (·.2)).sum := by
  induction ls generalizing w p t m with
  | nil =>
    cases hrun
    refine ⟨p, t, m, [], h, rfl, ?_, rfl⟩
    intro mv hmv
    cases hmv
  | cons l ls ih =>
    obtain ⟨w₁, ⟨hstep, v, v', hv, hv', hpays⟩, hrest⟩ := hrun
    have hl := hby l List.mem_cons_self
    obtain ⟨p₁, t₁, m₁, ms₁, h₁, hreal, hrun₁⟩ := h.step hstep
    rw [hl.inflow, Nat.add_zero] at h₁
    obtain ⟨p', t', m', ms₂, h', hrun₂, hby₂, hsum⟩ :=
      ih h₁ hrest fun l hl => hby l (List.mem_cons_of_mem _ hl)
    rw [h.vaultAmount_eq, Option.some_inj] at hv
    rw [h₁.vaultAmount_eq, Option.some_inj] at hv'
    refine ⟨p', t', m', ms₁ ++ ms₂, h', Transition.run_append.mpr ⟨_, hrun₁, hrun₂⟩, ?_, ?_⟩
    · intro mv hmv
      rcases List.mem_append.mp hmv with hmv | hmv
      · exact hreal.by_members hl mv hmv
      · exact hby₂ mv hmv
    · rw [List.map_cons, List.map_cons, List.sum_cons, List.sum_cons]
      omega

theorem Context.EmptyHanded.lp_eq (h : ctx.EmptyHanded π A w) :
    ∀ k ∈ ctx.depositPda π '' A, (w.positions ctx.programId π k).lp = 0 := by
  intro k ⟨u, hu, hk⟩
  subst hk
  unfold World.positions positionOf
  cases hr : w.record ctx.programId (ctx.depositPda π u) with
  | none => rfl
  | some d =>
    have h0 := eq_zero_iff.mp (h u hu d hr)
    by_cases hd : d.pool = π
    · simp only [if_pos hd]
      exact h0
    · simp only [if_neg hd]
      rfl

/-- From every reachable state with LP and a defined senior value, whatever surplus
and whatever loss it has: a set of users that holds nothing, makes any sequence of
deposits into either tranche, withdrawals and accruals while nobody else acts, and
holds nothing again, was paid out at most what it paid in. -/
theorem coalition_no_profit (h : ctx.Reached π es w) (hp : w.pool ctx.programId π = some p)
    (hsupply : 0 < p.totalLpSupply)
    (hs : p.trancheEnabled = true → p.seniorBalance.isSome = true)
    (hrun : Transition.Run (ctx.PaidStep π) w ls w') (hby : ∀ l ∈ ls, l.1.By A)
    (hstart : ctx.EmptyHanded π A w) (hend : ctx.EmptyHanded π A w') :
    (ls.map (·.2)).sum ≤ (ls.map (·.1.paidIn)).sum := by
  obtain ⟨q, t, m, hvalid⟩ := h.stands
  obtain rfl : p = q := Option.some_inj.mp (hp.symm.trans hvalid.standing.pool_eq)
  obtain ⟨p', t', m', ms, hvalid', hledger, hmembers, hsum⟩ := hvalid.coalition_run hrun hby
  have hvault := Ledger.vault_le hvalid.sound (hvalid.senior_nonneg hs) (pos_iff.mp hsupply)
    hledger hmembers hstart.lp_eq hend.lp_eq
  have hvault : t.amount.toNat ≤ t'.amount.toNat := hvault
  omega

end

/-! ## A round trip -/

namespace Sample

theorem paidStep {script : List Action} {a : Action} {v v' x : Nat}
    (h : (run (script ++ [a])).isSome = true) (hv : ctx.vaultAmount pool (after script) = some v)
    (hv' : ctx.vaultAmount pool (after (script ++ [a])) = some v')
    (hx : v + a.event.paidIn = v' + x) :
    ctx.PaidStep pool (after script) (a.event, x) (after (script ++ [a])) :=
  ⟨(after_step h).2, v, v', hv, hv', hx⟩

/-- Alice is in, and there is a surplus that nobody has accrued. -/
def surplus : List Action := [deposit alice 100000, .send 500]

/-- Bob deposits, and withdraws again after the cooldown. -/
def entered : List Action := surplus ++ [deposit bob 20000]
def cooled : List Action := entered ++ [.tick ⟨200, 1⟩]
def left : List Action := cooled ++ [withdraw bob 19900]

def trades : List (Event × Nat) :=
  [((deposit bob 20000).event, 0), ((Action.tick ⟨200, 1⟩).event, 0),
    ((withdraw bob 19900).event, 19999)]

theorem trades_run :
    Transition.Run (ctx.PaidStep pool) (after surplus) trades (after left) := by
  have hvault : (run left).isSome = true ∧ ctx.vaultAmount pool (after surplus) = some 100500 ∧
      ctx.vaultAmount pool (after entered) = some 120500 ∧
      ctx.vaultAmount pool (after cooled) = some 120500 ∧
      ctx.vaultAmount pool (after left) = some 100501 := by decide +kernel
  obtain ⟨h₃, hsurplus, hentered, hcooled, hleft⟩ := hvault
  have h₂ : (run cooled).isSome = true := (after_step h₃).1
  have h₁ : (run entered).isSome = true := (after_step h₂).1
  exact ⟨after entered, paidStep h₁ hsurplus hentered rfl, after cooled,
    paidStep h₂ hentered hcooled rfl, after left, paidStep h₃ hcooled hleft rfl, rfl⟩

theorem emptyHanded_bob {script : List Action}
    (h : (((after script).record ctx.programId (ctx.depositPda pool (key bob))).map
      (·.lpAmount)).getD 0 = 0) : ctx.EmptyHanded pool {key bob} (after script) := by
  intro u hu d hd
  cases hu
  rwa [hd] at h

theorem coalition_round_trip :
    (trades.map (·.2)).sum ≤ (trades.map (·.1.paidIn)).sum := by
  have hstate : ((after surplus).pool ctx.programId pool).map
      (fun p => (p.totalLpSupply, p.trancheEnabled)) = some (100000, false) := by decide +kernel
  obtain ⟨p, hp, h⟩ := Option.map_eq_some_iff.mp hstate
  rw [Prod.mk.injEq] at h
  refine coalition_no_profit (after_reached (run_of_pool hstate)) hp (by rw [h.1]; decide)
    (fun ht => by rw [h.2] at ht; cases ht) trades_run ?_
    (emptyHanded_bob (by decide +kernel)) (emptyHanded_bob (by decide +kernel))
  intro l hl
  have hbob : ∃ user, (depositAccounts bob)[0]? = some user ∧ user.key ∈ ({key bob} : Set Pubkey) :=
    ⟨_, rfl, rfl⟩
  rcases List.mem_cons.mp hl with rfl | hl
  · exact hbob
  rcases List.mem_cons.mp hl with rfl | hl
  · rfl
  rcases List.mem_singleton.mp hl with rfl
  exact hbob

end Sample

end PercolatorStake
