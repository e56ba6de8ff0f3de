import Mathlib

/-!
# Runs of a labelled transition system

A step relation with labels, and the runs it generates.  Whatever one step
preserves a run preserves, and a quantity that each step moves by an amount its
label determines moves over a run by the sum of those amounts.
-/

namespace Transition

variable {σ ε : Type}

/-- `t` is reached from `s` by taking the labelled steps of `es` in order. -/
def Run (step : σ → ε → σ → Prop) : σ → List ε → σ → Prop
  | s, [], t => s = t
  | s, e :: es, t => ∃ u, step s e u ∧ Run step u es t

section

variable {step : σ → ε → σ → Prop} {s t u : σ} {es fs : List ε} {e : ε}

theorem run_nil : Run step s [] t ↔ s = t := Iff.rfl

theorem run_cons : Run step s (e :: es) t ↔ ∃ u, step s e u ∧ Run step u es t := Iff.rfl

theorem run_append : Run step s (es ++ fs) t ↔ ∃ u, Run step s es u ∧ Run step u fs t := by
  induction es generalizing s with
  | nil =>
    refine ⟨fun h => ⟨s, rfl, h⟩, ?_⟩
    rintro ⟨u, rfl, h⟩
    exact h
  | cons e es ih =>
    rw [List.cons_append, run_cons]
    refine ⟨?_, ?_⟩
    · rintro ⟨v, hv, h⟩
      obtain ⟨u, hu, ht⟩ := ih.mp h
      exact ⟨u, ⟨v, hv, hu⟩, ht⟩
    · rintro ⟨u, ⟨v, hv, hu⟩, ht⟩
      exact ⟨v, hv, ih.mpr ⟨u, hu, ht⟩⟩

theorem Run.mono {step' : σ → ε → σ → Prop} (h : Run step s es t)
    (hstep : ∀ e ∈ es, ∀ s t, step s e t → step' s e t) : Run step' s es t := by
  induction es generalizing s with
  | nil => exact h
  | cons e es ih =>
    obtain ⟨u, hu, ht⟩ := h
    exact ⟨u, hstep e List.mem_cons_self s u hu,
      ih ht fun e he => hstep e (List.mem_cons_of_mem _ he)⟩

/-- A run under other labels, of a system whose steps are among these. -/
theorem Run.map {ε' : Type} {step' : σ → ε' → σ → Prop} {f : ε' → ε} {es' : List ε'}
    (h : Run step' s es' t) (hstep : ∀ s e t, step' s e t → step s (f e) t) :
    Run step s (es'.map f) t := by
  induction es' generalizing s with
  | nil => exact h
  | cons e es' ih =>
    obtain ⟨u, hu, ht⟩ := h
    exact ⟨u, hstep s e u hu, ih ht⟩

/-- An invariant of every step taken in a run is an invariant of the run.  The
step hypothesis is asked only for labels that occur. -/
theorem Run.invariant {I : σ → Prop} (h : Run step s es t)
    (hstep : ∀ e ∈ es, ∀ s t, I s → step s e t → I t) (hs : I s) : I t := by
  induction es generalizing s with
  | nil => cases h; exact hs
  | cons e es ih =>
    obtain ⟨u, hu, ht⟩ := h
    exact ih ht (fun e he => hstep e (List.mem_cons_of_mem _ he))
      (hstep e List.mem_cons_self s u hs hu)

/-- A property of the state together with the labels that led to it: it holds at the
start with no labels, and every step extends the labels by its own. -/
theorem Run.history {P : List ε → σ → Prop} (h : Run step s es t) (h0 : P [] s)
    (hstep : ∀ es t e u, Run step s es t → P es t → step t e u → P (es ++ [e]) u) : P es t := by
  induction es using List.reverseRecOn generalizing t with
  | nil =>
    cases h
    exact h0
  | append_singleton es e ih =>
    obtain ⟨v, hv, u, hu, hnil⟩ := run_append.mp h
    rw [← run_nil.mp hnil]
    exact hstep es v e u hv (ih hv) hu

/-- If the first label can always be taken and what is left can then be run, there is a
run of all of them. -/
theorem Run.of_progress {P : List ε → σ → Prop}
    (hstep : ∀ e es s, P (e :: es) s → ∃ t, step s e t ∧ P es t) (h : P es s) :
    ∃ t, Run step s es t ∧ P [] t := by
  induction es generalizing s with
  | nil => exact ⟨s, rfl, h⟩
  | cons e es ih =>
    obtain ⟨u, hu, hrest⟩ := hstep e es s h
    obtain ⟨t, ht, hend⟩ := ih hrest
    exact ⟨t, ⟨u, hu, ht⟩, hend⟩

/-- What a step makes true of its own label, and no step under a later label undoes, is
true of every label in the end. -/
theorem Run.each {R : ε → ε → Prop} {Q : ε → σ → Prop} (h : Run step s es t)
    (hes : es.Pairwise R) (hdone : ∀ e s t, step s e t → Q e t)
    (hkeep : ∀ e f s t, R e f → Q e s → step s f t → Q e t) : ∀ e ∈ es, Q e t := by
  induction es generalizing s with
  | nil =>
    intro e he
    cases he
  | cons f es ih =>
    obtain ⟨u, hu, ht⟩ := h
    obtain ⟨hf, hes⟩ := List.pairwise_cons.mp hes
    intro e he
    rcases List.mem_cons.mp he with rfl | he
    · exact ht.invariant (fun g hg s t => hkeep e g s t (hf g hg)) (hdone e s u hu)
    · exact ih ht hes e he

/-- An invariant indexed by a running total that each label advances by `w`. -/
theorem Run.tally {M : Type} [AddMonoid M] {I : M → σ → Prop} (w : ε → M)
    (h : Run step s es t)
    (hstep : ∀ e ∈ es, ∀ m s t, I m s → step s e t → I (m + w e) t)
    {m : M} (hs : I m s) : I (m + (es.map w).sum) t := by
  induction es generalizing s m with
  | nil =>
    cases h
    simpa using hs
  | cons e es ih =>
    obtain ⟨u, hu, ht⟩ := h
    have := ih ht (fun e he => hstep e (List.mem_cons_of_mem _ he))
      (hstep e List.mem_cons_self m s u hs hu)
    rwa [List.map_cons, List.sum_cons, ← add_assoc]

end

end Transition
