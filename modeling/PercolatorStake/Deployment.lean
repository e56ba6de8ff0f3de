import PercolatorStake.Execution
import PercolatorStake.Effect.Settings

/-!
# A deployment with all its pools

The runs of one pool leave the others out.  Here a run is one of the whole program,
from a world in which it has no pool yet, and what is said is said of every pool.
-/

namespace PercolatorStake

open Result Word

/-! ## All pools of the program -/

/-- One event, as far as the pools of the program are concerned: the program runs an
instruction, or anything happens outside of it. -/
def Context.PoolStep (ctx : Context) (w : World) (e : Event) (w' : World) : Prop :=
  match e with
  | .instruction ix accounts => process ctx w accounts ix = .ok w'
  | .outside _ => ∀ k, w'.pool ctx.programId k = w.pool ctx.programId k

/-- `w` is reached by the events `es` from a world without a pool of the program. -/
def Context.Deployed (ctx : Context) (es : List Event) (w : World) : Prop :=
  ∃ w₀, (∀ k, w₀.pool ctx.programId k = none) ∧ Transition.Run ctx.PoolStep w₀ es w

/-- Every pool is set up as its address says. -/
def Context.AllChartered (ctx : Context) (w : World) : Prop :=
  ∀ k p, w.pool ctx.programId k = some p → Chartered ctx k p.charter

section

variable {ctx : Context} {w w' : World} {e : Event} {es : List Event}

theorem Context.AllChartered.step (h : ctx.AllChartered w) (hs : ctx.PoolStep w e w') :
    ctx.AllChartered w' := by
  intro k p hp
  cases e with
  | outside =>
    rw [hs k] at hp
    exact h k p hp
  | instruction ix accounts =>
    cases hix : ix.creates with
    | false =>
      obtain ⟨a, q, q', -, hrw, -⟩ := process_rewrites hs hix
      by_cases hk : k = a.key
      · subst hk
        obtain rfl : q' = p := Option.some_inj.mp (hrw.after.symm.trans hp)
        rw [hrw.charter_eq]
        exact h _ q hrw.before
      · rw [hrw.others k hk] at hp
        exact h k p hp
    | true =>
      obtain ⟨a, q, -, hc, -⟩ := process_creates hs hix
      by_cases hk : k = a.poolPda.key
      · subst hk
        obtain rfl : q = p := Option.some_inj.mp (hc.after.symm.trans hp)
        exact hc.chartered
      · rw [hc.others k hk] at hp
        exact h k p hp

theorem Context.Deployed.chartered (h : ctx.Deployed es w) : ctx.AllChartered w := by
  obtain ⟨w₀, hnone, hrun⟩ := h
  apply hrun.invariant (I := ctx.AllChartered)
  · intro e _ w w' hall hs
    exact hall.step hs
  · intro k p hp
    rw [hnone k] at hp
    cases hp

end

/-! ## Seeds -/

theorem Derivation.vaultAuthSeeds_inj {k k' : Pubkey} {b b' : UInt8}
    (h : vaultAuthSeeds k b = vaultAuthSeeds k' b') : k = k' := by
  unfold vaultAuthSeeds at h
  simp only [List.cons.injEq] at h
  exact Vector.toList_inj.mp h.2.1

theorem Derivation.poolSeeds_inj {k k' : Pubkey} {b b' : UInt8}
    (h : poolSeeds k b = poolSeeds k' b') : k = k' := by
  unfold poolSeeds at h
  simp only [List.cons.injEq] at h
  exact Vector.toList_inj.mp h.2.1

theorem Derivation.vaultAuthSeeds_ne {k k' : Pubkey} {b b' : UInt8} :
    vaultAuthSeeds k b ≠ poolSeeds k' b' := by
  unfold vaultAuthSeeds poolSeeds
  intro h
  simp only [List.cons.injEq] at h
  have hseed : vaultAuthSeed ≠ stakePoolSeed := by decide
  exact hseed h.1

/-! ## What is run -/

theorem Context.perform_poolStep {ctx : Context} {π : Pubkey} {w w' : World} {a : Action}
    (h : ctx.perform π w a = some w') : ctx.PoolStep w a.event w' := by
  cases a with
  | call ix accounts => exact (Context.perform_step h).2.2
  | tick clock =>
    intro k
    exact (Context.tick_outside (π := k) h).pool_eq
  | send amount =>
    intro k
    have h : ctx.send π w amount = some w' := h
    unfold Context.send at h
    simp only [Option.bind_eq_bind, Option.bind_eq_some_iff, Option.some_inj] at h
    obtain ⟨p, -, t, ht, sum, -, rfl⟩ := h
    exact (SplToken.setToken_tokensOnly ht).pool_eq _ _

namespace Sample

/-- A script is a run of the whole program. -/
theorem after_deployed {script : List Action} (h : (run script).isSome = true) :
    ctx.Deployed (.instruction (.initPool 1 0) initAccounts :: script.map Action.event)
      (after script) := by
  have hrun := run_eq h
  unfold run Context.launch at hrun
  obtain ⟨w₁, hw₁, hrest⟩ := Option.bind_eq_some_iff.mp hrun
  exact ⟨world, world_pool_none, w₁, toOption_eq_some.mp hw₁,
    Context.performAll_run (fun _ _ _ => Context.perform_poolStep) hrest⟩

end Sample

end PercolatorStake
