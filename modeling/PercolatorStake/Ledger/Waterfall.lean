import PercolatorStake.Ledger.Price

/-!
# Insurance flows and the loss waterfall

Who carries an outstanding loss is never stored.  It is read off the cumulative
counters, and the reading is right as long as no more has come back than went out.
Two channels bring insurance back.  The admin's channel stops at that bound, the
wrapper's channel has a cap of its own that does not, so the bound is kept by the
moves that respect it and not by the others.
-/

namespace PercolatorStake

namespace Book

/-- The condition under which a flush of `x` falls on the junior balance first. -/
def Absorbs (b : Book) (x : Nat) : Prop :=
  b.returned ≤ b.flushed ∨ b.juniorBalance = 0 ∨ b.returned + b.juniorBalance ≤ b.flushed + x

/-- A flush of `x` takes what it can from the junior value and the rest, no more
and no less, from the senior value, and leaves the senior value defined. -/
structure Waterfall (b b' : Book) (x : Nat) : Prop where
  junior_eq : b'.effectiveJunior + min x b.effectiveJunior = b.effectiveJunior
  senior_eq : b'.senior + (x - min x b.effectiveJunior : Nat) = b.senior
  senior_nonneg : 0 ≤ b.senior ∧ 0 ≤ b'.senior

theorem waterfall_flush_iff {b : Book} {x : Nat} (hx : 0 < x) (hle : (x : Int) ≤ b.value) :
    Waterfall b { b with flushed := b.flushed + x } x ↔ 0 ≤ b.senior ∧ b.Absorbs x := by
  simp only [senior, value, effectiveJunior, netLoss, Absorbs] at hle ⊢
  constructor
  · intro h
    have hj := h.junior_eq
    have hs := h.senior_nonneg
    simp only [senior, value, effectiveJunior, netLoss] at hj hs
    omega
  · intro h
    constructor
    all_goals simp only [senior, value, effectiveJunior, netLoss] at *
    all_goals omega

end Book

namespace Ledger

variable {K : Type} {l l' : Ledger K} {m : Move K} {X : Nat}

/-- No more has come back than went out, and the junior balance is within what the
pool would be worth with all of it back. -/
structure Covered (l : Ledger K) : Prop where
  returned_le : l.book.returned ≤ l.book.flushed
  junior_le : (l.book.juniorBalance : Int) ≤ l.book.gross

/-- A recovery that stays within what is out and not back. -/
def WithinLoss (l : Ledger K) (m : Move K) : Prop :=
  ∀ x, m = .recover x → l.book.returned + x ≤ l.book.flushed

/-- With the junior balance covered, the senior value is what is left of the gross
value above it, less the part of the loss the junior balance does not reach. -/
theorem Covered.senior_eq (hc : Covered l) :
    l.book.senior = l.book.gross - l.book.juniorBalance -
      (l.book.netLoss - l.book.juniorBalance : Nat) := by
  have := hc.returned_le
  simp only [Book.senior, Book.value, Book.effectiveJunior, Book.gross, Book.netLoss]
  omega

theorem Covered.senior_nonneg (hc : Covered l) (hb : Balanced X l) : 0 ≤ l.book.senior := by
  have hr := hc.returned_le
  have hg := hc.junior_le
  have hv := hb.value_nonneg
  simp only [Book.senior, Book.value, Book.effectiveJunior, Book.gross, Book.netLoss] at *
  omega

theorem Covered.value_le (hc : Covered l) : l.book.value ≤ l.book.gross := by
  have hr := hc.returned_le
  simp only [Book.value, Book.gross]
  omega

variable [DecidableEq K]

theorem Covered.step [Fintype K] (hc : Covered l) (h : Matched l) (hm : Step l m l')
    (hw : WithinLoss l m) :
    Covered l' := by
  obtain ⟨hr, hg⟩ := hc
  simp only [Book.gross] at hg
  cases hm with
  | @accrue f j hf hv hs hj =>
    have hjf : j ≤ f := by
      split at hj
      · rw [hj.2.1]
        exact l.book.juniorShare_le f
      · omega
    refine ⟨hr, ?_⟩
    simp only [Book.gross]
    omega
  | deposit | depositJunior | flush | giveBack | setTranches | inflow =>
    constructor <;> simp only [Book.gross] <;> omega
  | @withdraw k lp x hlp hle hacc hflag hv hx hpos hvault hsupply =>
    -- the payout is within the senior value, which lies above the junior balance
    have hjf := h.not_junior hflag
    rw [h.own_eq.1] at hv
    rw [h.own_eq.1, h.own_eq.2] at hx
    have hxle : x ≤ l.book.senior.toNat := hx ▸ h.senior_payout_le hjf hle
    refine ⟨hr, ?_⟩
    simp only [Book.senior, Book.value, Book.effectiveJunior, Book.netLoss] at hv hxle
    simp only [Book.gross]
    omega
  | @withdrawJunior k lp x hlp hle hacc ht hflag hx hvault hsupply hrest hbal =>
    constructor <;> simp only [Book.gross] <;> omega
  | @exitJunior k lp x hlp hle hacc ht hflag hx hvault hsupply hlast =>
    have hxle : x ≤ l.book.effectiveJunior := hx ▸ h.junior_payout_le hflag hle
    simp only [Book.effectiveJunior, Book.netLoss] at hxle
    constructor <;> simp only [Book.gross, Book.effectiveJunior, Book.netLoss] <;> omega
  | @recover x hx hle =>
    have := hw x rfl
    exact ⟨this, hg⟩

/-- Nothing has come back through the admin's channel. -/
def WrapperOnly (l : Ledger K) : Prop :=
  l.book.returned = l.book.recovered + l.book.realized

theorem WrapperOnly.step (h : WrapperOnly l) (hm : Step l m l') (hg : ∀ x, m ≠ .giveBack x) :
    WrapperOnly l' := by
  unfold WrapperOnly at h ⊢
  cases hm with
  | giveBack => exact (hg _ rfl).elim
  | exitJunior | recover =>
    simp only
    omega
  | _ => exact h

/-- Then the wrapper's own cap is enough. -/
theorem WrapperOnly.withinLoss (h : WrapperOnly l) (hm : Step l m l') : WithinLoss l m := by
  rintro x rfl
  cases hm with
  | recover hx hle =>
    unfold WrapperOnly at h
    unfold Book.recoverable at hle
    omega

/-- What the wrapper can still be asked for rises with a flush only. -/
theorem recoverable_le (hm : Step l m l') (hflush : ∀ x, m ≠ .flush x) :
    l'.book.recoverable ≤ l.book.recoverable := by
  cases hm with
  | flush => exact (hflush _ rfl).elim
  | recover | exitJunior =>
    unfold Book.recoverable
    simp only
    omega
  | _ => exact Nat.le_refl _

theorem recoverable_flush {x : Nat} (hb : Balanced X l) (hm : Step l (.flush x) l') :
    l'.book.recoverable = l.book.recoverable + x := by
  have := hb.settled_le_flushed
  cases hm
  unfold Book.recoverable
  simp only
  omega

theorem recoverable_recover {x : Nat} (hm : Step l (.recover x) l') :
    l'.book.recoverable + x = l.book.recoverable := by
  cases hm with
  | recover hx hle =>
    unfold Book.recoverable at *
    simp only
    omega

end Ledger

end PercolatorStake
