import PercolatorStake.Ledger.Price

/-!
# Coalitions

A set of holders that starts with nothing, trades with the pool in any way while
nobody else acts, and ends with nothing.  The vault holds no less at the end than
at the start.

Both prices only rise along the way and both LP counters come back to where they
were, so both values are back at least where they were.  The exit of the last
junior, the one thing that could lower a price, cannot happen: the juniors outside
the coalition are still there, or there never was anything on the junior side.
-/

namespace PercolatorStake

namespace Move

variable {K : Type}

/-- A deposit, a withdrawal or an accrual, on a position of `A` if on any, or nothing
coming in. -/
def By (A : Set K) : Move K → Prop
  | .accrue .. => True
  | .deposit k .. | .depositJunior k .. | .withdraw k .. | .withdrawJunior k ..
  | .exitJunior k .. => k ∈ A
  | .inflow x => x = 0
  | .flush _ | .giveBack _ | .recover _ | .setTranches _ => False

theorem By.inflowOf {A : Set K} {m : Move K} (h : m.By A) : m.inflowOf = 0 := by
  cases m with
  | inflow => exact h
  | _ => rfl

theorem By.ne_flush {A : Set K} {m : Move K} (h : m.By A) (x : Nat) : m ≠ .flush x := by
  rintro rfl
  cases h

theorem By.holder_ne {A : Set K} {m : Move K} (h : m.By A) {k : K} (hk : k ∉ A) :
    m.holder ≠ some k := by
  intro e
  cases m with
  | deposit k' | depositJunior k' | withdraw k' | withdrawJunior k' | exitJunior k' =>
    cases e
    exact hk h
  | _ => cases e

end Move

namespace Ledger

variable {K : Type} {l l₀ l' : Ledger K} {m : Move K} {ms : List (Move K)} {A : Set K} {X : Nat}

variable [Fintype K]

/-- Junior LP of a member comes on top of what was there before the coalition. -/
theorem Matched.junior_add_le [DecidableEq K] (h₀ : Matched l₀) (h : Matched l)
    (hout : ∀ k ∉ A, l.position k = l₀.position k) (hin : ∀ k ∈ A, (l₀.position k).lp = 0)
    {k : K} (hk : k ∈ A) : (l.position k).juniorLp + l₀.book.juniorLp ≤ l.book.juniorLp := by
  have hterm : ∀ x ∈ Finset.univ, (if k = x then (l.position x).juniorLp else 0) +
      (l₀.position x).juniorLp ≤ (l.position x).juniorLp := by
    intro x _
    by_cases hx : x ∈ A
    · have h0 : (l₀.position x).juniorLp = 0 := by
        unfold Position.juniorLp
        rw [hin x hx, ite_self]
      rw [h0]
      split <;> omega
    · rw [if_neg (fun e : k = x => hx (e ▸ hk)), hout x hx, Nat.zero_add]
  have hsum := Finset.sum_le_sum hterm
  rw [Finset.sum_add_distrib, Finset.sum_ite_eq, if_pos (Finset.mem_univ k)] at hsum
  rwa [h.juniorLp_eq, h₀.juniorLp_eq]

/-- Once every member is out again, both LP counters are what they were. -/
theorem Matched.lp_restored (h₀ : Matched l₀) (h : Matched l)
    (hout : ∀ k ∉ A, l.position k = l₀.position k) (hin : ∀ k ∈ A, (l₀.position k).lp = 0)
    (hend : ∀ k ∈ A, (l.position k).lp = 0) :
    l.book.supply = l₀.book.supply ∧ l.book.juniorLp = l₀.book.juniorLp := by
  rw [h.supply_eq, h₀.supply_eq, h.juniorLp_eq, h₀.juniorLp_eq]
  refine ⟨Finset.sum_congr rfl fun k _ => ?_, Finset.sum_congr rfl fun k _ => ?_⟩
  · by_cases hk : k ∈ A
    · rw [hin k hk, hend k hk]
    · rw [hout k hk]
  · by_cases hk : k ∈ A
    · unfold Position.juniorLp
      rw [hin k hk, hend k hk, ite_self, ite_self]
    · rw [hout k hk]

variable [DecidableEq K]

/-- What a coalition cannot undo: everybody else's positions, and the prices it
found. -/
structure Defended (A : Set K) (X : Nat) (l₀ l : Ledger K) : Prop where
  sound : Sound X l
  outside_eq : ∀ k ∉ A, l.position k = l₀.position k
  senior_nonneg : 0 ≤ l.book.senior
  senior_le : l₀.book.seniorPrice ≤ l.book.seniorPrice
  junior_le : 0 < l₀.book.juniorLp → l₀.book.juniorPrice ≤ l.book.juniorPrice

theorem Defended.step (h₀ : Matched l₀) (hin : ∀ k ∈ A, (l₀.position k).lp = 0)
    (h : Defended A X l₀ l) (hm : Step l m l') (hby : m.By A) : Defended A X l₀ l' := by
  have hsound := h.sound.step hm
  rw [hby.inflowOf] at hsound
  obtain ⟨hnonneg, hsenior⟩ := h.sound.toMatched.senior_step h.senior_nonneg hm hby.ne_flush
  refine ⟨hsound, fun k hk => (hm.position_eq (hby.holder_ne hk)).trans (h.outside_eq k hk),
    hnonneg,
    h.senior_le.trans hsenior, fun hpos => (h.junior_le hpos).trans ?_⟩
  refine h.sound.toMatched.junior_step hm hby.ne_flush ?_
  rintro k lp x rfl
  -- the last junior holds all the junior LP, but some of it is not the coalition's
  cases hm with
  | exitJunior _ hle _ _ hflag _ _ _ hlast =>
    have hadd := h₀.junior_add_le h.sound.toMatched h.outside_eq hin hby
    rw [Position.juniorLp, if_pos hflag] at hadd
    omega

/-- From a pool whose vault is all on the books. -/
theorem vault_le_of_accrued (h₀ : Sound X l₀) (hs : 0 ≤ l₀.book.senior)
    (hacc : (l₀.vault : Int) ≤ l₀.book.value) (hr : Transition.Run Step l₀ ms l)
    (hby : ∀ m ∈ ms, m.By A) (hin : ∀ k ∈ A, (l₀.position k).lp = 0)
    (hend : ∀ k ∈ A, (l.position k).lp = 0) : l₀.vault ≤ l.vault := by
  have hd : Defended A X l₀ l :=
    hr.invariant (fun m hm l l' hd hstep => hd.step h₀.toMatched hin hstep (hby m hm))
      ⟨h₀, fun _ _ => rfl, hs, le_refl _, fun _ => le_refl _⟩
  obtain ⟨hsupply, hjunior⟩ := h₀.toMatched.lp_restored hd.sound.toMatched hd.outside_eq hin hend
  have hsenior : l₀.book.senior.toNat ≤ l.book.senior.toNat := by
    have hlp : l.book.seniorLp = l₀.book.seniorLp := by
      unfold Book.seniorLp
      rw [hsupply, hjunior]
    have hle := hd.senior_le
    unfold Book.seniorPrice at hle
    rw [hlp] at hle
    exact Shares.value_le_of_price_le hle
  have heffective : l₀.book.effectiveJunior ≤ l.book.effectiveJunior := by
    by_cases h0 : l₀.book.juniorLp = 0
    · have := h₀.junior_empty h0
      have := l₀.book.effectiveJunior_le
      omega
    · have hle := hd.junior_le (by omega)
      unfold Book.juniorPrice at hle
      rw [hjunior] at hle
      exact Shares.value_le_of_price_le hle
  have hvalue := hd.sound.toBalanced.value_le
  have hnonneg := hd.senior_nonneg
  simp only [Book.senior] at *
  omega

/-- Whatever surplus the vault held, the first thing anybody does is to book it. -/
theorem vault_le (h : Sound X l) (hs : 0 ≤ l.book.senior) (hsupply : 0 < l.book.supply)
    (hr : Transition.Run Step l ms l') (hby : ∀ m ∈ ms, m.By A)
    (hin : ∀ k ∈ A, (l.position k).lp = 0) (hend : ∀ k ∈ A, (l'.position k).lp = 0) :
    l.vault ≤ l'.vault := by
  induction ms with
  | nil =>
    cases hr
    exact Nat.le_refl _
  | cons m ms ih =>
    have haccrued : l.Accrued → l.vault ≤ l'.vault := by
      intro hacc
      refine vault_le_of_accrued h hs ?_ hr hby hin hend
      rcases hacc with h0 | hv
      · omega
      · exact hv
    have hby' : ∀ m ∈ ms, m.By A := fun m hm => hby m (List.mem_cons_of_mem _ hm)
    have hm₁ := hby m List.mem_cons_self
    obtain ⟨l₁, hm, hrest⟩ := hr
    cases hm with
    | @accrue f j hf hv hsup hj =>
      have hm : Step l (.accrue f j) _ := .accrue hf hv hsup hj
      obtain ⟨hnonneg, _⟩ := h.toMatched.senior_step hs hm hm₁.ne_flush
      have hbooked := vault_le_of_accrued (h.step hm) hnonneg
        (by simp only [Book.value] at hv ⊢; omega) hrest hby' hin hend
      exact hbooked
    | @inflow x =>
      -- nothing came in, so the ledger is still the same
      cases hm₁
      exact ih hrest hby'
    | deposit _ _ hacc | depositJunior _ _ hacc | withdraw _ _ hacc | withdrawJunior _ _ hacc
    | exitJunior _ _ hacc => exact haccrued hacc
    | _ => cases hm₁

end Ledger

end PercolatorStake
