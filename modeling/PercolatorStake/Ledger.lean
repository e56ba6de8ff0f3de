import PercolatorStake.Book
import PercolatorStake.Lib.Transition

/-!
# The abstract ledger

The whole of a pool as a ledger: its books, the collateral in its vault, and the
positions of its depositors.  A move is one thing that can happen to it, with the
condition under which it can.  An instruction of the program is at most two moves
of the ledger, fees first.

The positions are a function from addresses, over any finite type of them.
-/

namespace PercolatorStake

/-- A deposit record: its LP, whether it is flagged junior, whether it is
initialized. -/
structure Position where
  lp : Nat
  junior : Bool
  live : Bool
  deriving DecidableEq

namespace Position

def none : Position := ⟨0, false, false⟩

/-- A record emptied by a withdrawal is as good as none. -/
def debit (q : Position) (lp : Nat) : Position :=
  if q.lp - lp = 0 then none else { q with lp := q.lp - lp }

/-- LP that counts as junior. -/
def juniorLp (q : Position) : Nat := if q.junior = true then q.lp else 0

theorem lp_debit (q : Position) (lp : Nat) : (q.debit lp).lp = q.lp - lp := by
  unfold debit
  by_cases h : q.lp - lp = 0
  · rw [if_pos h, h]
    rfl
  · rw [if_neg h]

theorem live_debit {q : Position} {lp : Nat} (h : q.live = true) :
    (q.debit lp).live = true ↔ 0 < (q.debit lp).lp := by
  unfold debit
  by_cases h0 : q.lp - lp = 0
  · rw [if_pos h0]
    decide
  · rw [if_neg h0]
    exact ⟨fun _ => Nat.pos_of_ne_zero h0, fun _ => h⟩

theorem junior_debit {q : Position} {lp : Nat} (h : (q.debit lp).junior = true) :
    q.junior = true ∧ (q.live = true → (q.debit lp).live = true) := by
  unfold debit at h ⊢
  by_cases h0 : q.lp - lp = 0
  · rw [if_pos h0] at h
    cases h
  · rw [if_neg h0] at h ⊢
    exact ⟨h, fun e => e⟩

/-- A debit takes LP of the tranche the position belongs to. -/
theorem juniorLp_debit {q : Position} {lp : Nat} (h : q.junior = true) :
    (q.debit lp).juniorLp = q.lp - lp := by
  unfold debit
  by_cases h0 : q.lp - lp = 0
  · rw [if_pos h0, h0]
    rfl
  · rw [if_neg h0]
    exact if_pos h

theorem juniorLp_debit_of_not {q : Position} {lp : Nat} (h : q.junior = false) :
    (q.debit lp).juniorLp = 0 := by
  unfold debit
  by_cases h0 : q.lp - lp = 0
  · rw [if_pos h0]
    rfl
  · rw [if_neg h0]
    exact if_neg (by rw [h]; decide)

end Position

structure Ledger (K : Type) where
  book : Book
  vault : Nat
  position : K → Position

inductive Move (K : Type) where
  | accrue (fee juniorFee : Nat)
  | deposit (k : K) (amount lp : Nat)
  | depositJunior (k : K) (amount lp : Nat)
  | withdraw (k : K) (lp payout : Nat)
  | withdrawJunior (k : K) (lp payout : Nat)
  | exitJunior (k : K) (lp payout : Nat)
  | flush (amount : Nat)
  | giveBack (amount : Nat)
  | recover (amount : Nat)
  | setTranches (multiplier : Nat)
  | inflow (amount : Nat)

namespace Move

variable {K : Type}

/-- Whose position a move is on. -/
def holder : Move K → Option K
  | .deposit k .. | .depositJunior k .. | .withdraw k .. | .withdrawJunior k ..
  | .exitJunior k .. => some k
  | _ => none

/-- Collateral a move brings in from outside the pool's own dealings. -/
def inflowOf : Move K → Nat
  | .inflow x => x
  | _ => 0

end Move

namespace Book

def juniorPrice (b : Book) : ℚ := Shares.price b.effectiveJunior b.juniorLp

def seniorPrice (b : Book) : ℚ := Shares.price b.senior.toNat b.seniorLp

/-- The junior share of a fee. -/
def juniorShare (b : Book) (fee : Nat) : Nat :=
  fee * (b.juniorBalance * b.multiplier) /
    (b.juniorBalance * b.multiplier + b.senior.toNat * 10000)

/-- The sub-pool an unflagged position belongs to, as its value and its LP. -/
def ownValue (b : Book) : Int := if b.tranches = true then b.senior else b.value

def ownLp (b : Book) : Nat := if b.tranches = true then b.seniorLp else b.supply

/-- The books with `x` more returned, `y` of it out of the wrapper. -/
def refund (b : Book) (x y : Nat) : Book :=
  { b with returned := b.returned + x, recovered := b.recovered + y }

theorem effectiveJunior_le (b : Book) : b.effectiveJunior ≤ b.juniorBalance := Nat.sub_le ..

theorem value_refund (b : Book) (x y : Nat) : (b.refund x y).value = b.value + x := by
  simp only [refund, value]
  omega

/-- What the exit of the last junior forfeits is within the outstanding loss. -/
theorem forfeited_le (b : Book) : b.juniorBalance - b.effectiveJunior ≤ b.netLoss := by
  unfold effectiveJunior
  omega

end Book

namespace Ledger

variable {K : Type}

/-- Everything in the vault is on the books, or nobody holds LP to book it for. -/
def Accrued (l : Ledger K) : Prop := l.book.supply = 0 ∨ (l.vault : Int) ≤ l.book.value

/-- The positions and the LP counters agree. -/
structure Matched [Fintype K] (l : Ledger K) : Prop where
  supply_eq : l.book.supply = ∑ k, (l.position k).lp
  juniorLp_eq : l.book.juniorLp = ∑ k, (l.position k).juniorLp
  live_iff : ∀ k, (l.position k).live = true ↔ 0 < (l.position k).lp
  junior_live : ∀ k, (l.position k).junior = true →
    l.book.tranches = true ∧ (l.position k).live = true
  junior_empty : l.book.juniorLp = 0 → l.book.juniorBalance = 0

/-- The vault and the collateral counters agree, with `X` the collateral that came
in from outside. -/
structure Balanced (X : Nat) (l : Ledger K) : Prop where
  vault_eq : (l.vault : Int) = l.book.deposited - l.book.withdrawn - l.book.flushed +
    l.book.returned - l.book.realized + X
  fees_le : l.book.fees ≤ X
  value_nonneg : 0 ≤ l.book.value
  settled_le_returned : l.book.recovered + l.book.realized ≤ l.book.returned
  settled_le_flushed : l.book.recovered + l.book.realized ≤ l.book.flushed

theorem Balanced.value_le {X : Nat} {l : Ledger K} (h : Balanced X l) :
    l.book.value ≤ l.vault := by
  have := h.vault_eq
  have := h.fees_le
  unfold Book.value
  omega

/-- A payout leaves the value non-negative: the vault holds it, and all the vault
holds is on the books. -/
theorem payout_le_value {X : Nat} {l : Ledger K} (h : Balanced X l) (hacc : l.Accrued) {x lp : Nat}
    (hlp : 0 < lp) (hsupply : lp ≤ l.book.supply) (hx : x ≤ l.vault) :
    (x : Int) ≤ l.book.value := by
  have := h.value_le
  rcases hacc with h0 | h0
  · omega
  · omega

section Sums

variable [Fintype K]

theorem lp_le_sum (f : K → Position) (g : Position → Nat) (k : K) : g (f k) ≤ ∑ x, g (f x) :=
  Finset.single_le_sum (f := fun x => g (f x)) (fun _ _ => Nat.zero_le _) (Finset.mem_univ k)

theorem Matched.seniorLp_eq {l : Ledger K} (h : Matched l) :
    l.book.juniorLp ≤ l.book.supply ∧
      l.book.seniorLp = ∑ k, if (l.position k).junior = true then 0 else (l.position k).lp := by
  have hle : l.book.juniorLp + (∑ k, if (l.position k).junior = true then 0
      else (l.position k).lp) = l.book.supply := by
    rw [h.juniorLp_eq, h.supply_eq, ← Finset.sum_add_distrib]
    refine Finset.sum_congr rfl fun k _ => ?_
    unfold Position.juniorLp
    cases (l.position k).junior <;> simp
  unfold Book.seniorLp
  omega

end Sums

variable [DecidableEq K]

/-- One move.  The hypotheses of a constructor are what the program checks. -/
inductive Step : Ledger K → Move K → Ledger K → Prop
  | accrue {l : Ledger K} {f j : Nat} (hf : 0 < f) (hv : (l.vault : Int) = l.book.value + f)
      (hs : 0 < l.book.supply)
      (hj : if l.book.tranches = true ∧ 0 < l.book.juniorLp then
          0 ≤ l.book.senior ∧ j = l.book.juniorShare f ∧
            (l.book.juniorBalance + j : Int) ≤ l.book.value + f
        else j = 0) :
      Step l (.accrue f j) { l with book := { l.book with
        fees := l.book.fees + f, juniorBalance := l.book.juniorBalance + j } }
  | deposit {l : Ledger K} {k : K} {a lp : Nat} (ha : 0 < a) (hlp : 0 < lp) (hacc : l.Accrued)
      (hgate : l.book.tranches = true → l.book.netLoss ≤ l.book.juniorBalance)
      (hv : 0 ≤ l.book.ownValue)
      (hprice : lp * (l.book.ownValue.toNat + 1) ≤ a * (l.book.ownLp + 1))
      (hzero : l.book.ownLp = 0 ↔ l.book.ownValue.toNat = 0)
      (hflag : (l.position k).junior = false) :
      Step l (.deposit k a lp) ⟨{ l.book with
        deposited := l.book.deposited + a, supply := l.book.supply + lp }, l.vault + a,
        Function.update l.position k ⟨(l.position k).lp + lp, false, true⟩⟩
  | depositJunior {l : Ledger K} {k : K} {a lp : Nat} (ha : 0 < a) (hlp : 0 < lp)
      (hacc : l.Accrued) (ht : l.book.tranches = true)
      (hgate : l.book.flushed ≤ l.book.returned - l.book.realized)
      (hprice : lp * (l.book.effectiveJunior + 1) ≤ a * (l.book.juniorLp + 1))
      (hzero : l.book.juniorLp = 0 ↔ l.book.effectiveJunior = 0)
      (hflag : (l.position k).junior = true ∨ (l.position k).live = false) :
      Step l (.depositJunior k a lp) ⟨{ l.book with
        deposited := l.book.deposited + a, supply := l.book.supply + lp,
        juniorLp := l.book.juniorLp + lp, juniorBalance := l.book.juniorBalance + a },
        l.vault + a, Function.update l.position k ⟨(l.position k).lp + lp, true, true⟩⟩
  | withdraw {l : Ledger K} {k : K} {lp x : Nat} (hlp : 0 < lp) (hle : lp ≤ (l.position k).lp)
      (hacc : l.Accrued) (hflag : l.book.tranches = true → (l.position k).junior = false)
      (hv : 0 ≤ l.book.ownValue)
      (hx : x = Shares.redeemed l.book.ownLp l.book.ownValue.toNat lp) (hpos : 0 < x)
      (hvault : x ≤ l.vault) (hsupply : lp ≤ l.book.supply) :
      Step l (.withdraw k lp x) ⟨{ l.book with
        withdrawn := l.book.withdrawn + x, supply := l.book.supply - lp }, l.vault - x,
        Function.update l.position k ((l.position k).debit lp)⟩
  | withdrawJunior {l : Ledger K} {k : K} {lp x : Nat} (hlp : 0 < lp)
      (hle : lp ≤ (l.position k).lp) (hacc : l.Accrued) (ht : l.book.tranches = true)
      (hflag : (l.position k).junior = true)
      (hx : x = Shares.redeemed l.book.juniorLp l.book.effectiveJunior lp)
      (hvault : x ≤ l.vault) (hsupply : lp ≤ l.book.supply)
      (hrest : lp < l.book.juniorLp) (hbal : x ≤ l.book.juniorBalance) :
      Step l (.withdrawJunior k lp x) ⟨{ l.book with
        withdrawn := l.book.withdrawn + x, supply := l.book.supply - lp,
        juniorLp := l.book.juniorLp - lp, juniorBalance := l.book.juniorBalance - x },
        l.vault - x, Function.update l.position k ((l.position k).debit lp)⟩
  | exitJunior {l : Ledger K} {k : K} {lp x : Nat} (hlp : 0 < lp)
      (hle : lp ≤ (l.position k).lp) (hacc : l.Accrued) (ht : l.book.tranches = true)
      (hflag : (l.position k).junior = true)
      (hx : x = Shares.redeemed l.book.juniorLp l.book.effectiveJunior lp)
      (hvault : x ≤ l.vault) (hsupply : lp ≤ l.book.supply) (hlast : lp = l.book.juniorLp) :
      Step l (.exitJunior k lp x) ⟨{ l.book with
        withdrawn := l.book.withdrawn + x, supply := l.book.supply - lp, juniorLp := 0,
        juniorBalance := 0,
        returned := l.book.returned + (l.book.juniorBalance - l.book.effectiveJunior),
        realized := l.book.realized + (l.book.juniorBalance - l.book.effectiveJunior) },
        l.vault - x, Function.update l.position k ((l.position k).debit lp)⟩
  | flush {l : Ledger K} {x : Nat} (hx : 0 < x) (hle : (x : Int) ≤ l.book.value)
      (hvault : x ≤ l.vault) :
      Step l (.flush x) { l with
        book := { l.book with flushed := l.book.flushed + x }, vault := l.vault - x }
  | giveBack {l : Ledger K} {x : Nat} (hx : 0 < x)
      (hle : x ≤ l.book.flushed - l.book.returned) :
      Step l (.giveBack x) { l with
        book := { l.book with returned := l.book.returned + x }, vault := l.vault + x }
  | recover {l : Ledger K} {x : Nat} (hx : 0 < x) (hle : x ≤ l.book.recoverable) :
      Step l (.recover x) { l with
        book := { l.book with
          returned := l.book.returned + x, recovered := l.book.recovered + x },
        vault := l.vault + x }
  | setTranches {l : Ledger K} {m : Nat}
      (hm : 0 < l.book.juniorLp → l.book.multiplier = m) :
      Step l (.setTranches m) { l with
        book := { l.book with tranches := true, multiplier := m } }
  | inflow {l : Ledger K} {x : Nat} :
      Step l (.inflow x) { l with vault := l.vault + x }

/-- A move leaves the positions of everybody else alone. -/
theorem Step.position_eq {l l' : Ledger K} {m : Move K} (hm : Step l m l') {k : K}
    (hk : m.holder ≠ some k) : l'.position k = l.position k := by
  have hne : ∀ {k'}, some k' ≠ some k → k ≠ k' := fun h e => h (e ▸ rfl)
  cases hm with
  | deposit | depositJunior | withdraw | withdrawJunior | exitJunior =>
    exact Function.update_of_ne (hne hk) _ _
  | _ => rfl

theorem Balanced.step {X : Nat} {l l' : Ledger K} {m : Move K} (h : Balanced X l)
    (hm : Step l m l') : Balanced (X + m.inflowOf) l' := by
  obtain ⟨hv, hf, hn, hr, hfl⟩ := h
  have hb : Balanced X l := ⟨hv, hf, hn, hr, hfl⟩
  cases hm with
  | accrue hf hv hs hj =>
    unfold Book.value at *
    constructor <;> simp only [Book.value, Move.inflowOf] <;> omega
  | deposit | depositJunior =>
    unfold Book.value at *
    constructor <;> simp only [Book.value, Move.inflowOf] <;> omega
  | withdraw hlp _ hacc _ _ _ _ hx hsupply | withdrawJunior hlp _ hacc _ _ _ hx hsupply =>
    have hle := payout_le_value hb hacc hlp hsupply hx
    unfold Book.value at *
    constructor <;> simp only [Book.value, Move.inflowOf] <;> omega
  | exitJunior hlp _ hacc _ _ _ hx hsupply =>
    have hle := payout_le_value hb hacc hlp hsupply hx
    have hforfeit := l.book.forfeited_le
    unfold Book.value Book.netLoss at *
    constructor <;> simp only [Book.value, Move.inflowOf] <;> omega
  | flush hx hle hvault =>
    unfold Book.value at *
    constructor <;> simp only [Book.value, Move.inflowOf] <;> omega
  | giveBack | setTranches | inflow =>
    unfold Book.value at *
    constructor <;> simp only [Book.value, Move.inflowOf] <;> omega
  | recover hx hle =>
    unfold Book.value Book.recoverable at *
    constructor <;> simp only [Book.value, Move.inflowOf] <;> omega

/-! ## Positions under a move -/

section Positions

variable [Fintype K]

/-- Changing one position changes a sum over positions by that one term. -/
theorem sum_update {f : K → Position} {g : Position → Nat} (k : K) (q : Position) :
    ∑ x, g (Function.update f k q x) + g (f k) = ∑ x, g (f x) + g q := by
  have h : (fun x => g (Function.update f k q x)) = Function.update (fun x => g (f x)) k (g q) := by
    funext x
    by_cases hx : x = k
    · rw [hx, Function.update_self, Function.update_self]
    · rw [Function.update_of_ne hx, Function.update_of_ne hx]
  have hf := Finset.add_sum_erase Finset.univ (fun x => g (f x)) (Finset.mem_univ k)
  rw [h, Finset.sum_update_of_mem (Finset.mem_univ k), Finset.sdiff_singleton_eq_erase]
  omega

/-- What one position gains or loses, both counters follow. -/
theorem Matched.update {l : Ledger K} (h : Matched l) {b : Book} {v : Nat} {k : K} {q : Position}
    (hs : b.supply + (l.position k).lp = l.book.supply + q.lp)
    (hj : b.juniorLp + (l.position k).juniorLp = l.book.juniorLp + q.juniorLp)
    (hlive : q.live = true ↔ 0 < q.lp)
    (hjunior : q.junior = true → b.tranches = true ∧ q.live = true)
    (ht : l.book.tranches = true → b.tranches = true)
    (hempty : b.juniorLp = 0 → b.juniorBalance = 0) :
    Matched (⟨b, v, Function.update l.position k q⟩ : Ledger K) := by
  have s1 := sum_update (f := l.position) (g := Position.lp) k q
  have s2 := sum_update (f := l.position) (g := Position.juniorLp) k q
  have e1 := h.supply_eq
  have e2 := h.juniorLp_eq
  refine ⟨?_, ?_, ?_, ?_, hempty⟩
  · show b.supply = ∑ x, (Function.update l.position k q x).lp
    omega
  · show b.juniorLp = ∑ x, (Function.update l.position k q x).juniorLp
    omega
  · intro x
    show (Function.update l.position k q x).live = true ↔
      0 < (Function.update l.position k q x).lp
    by_cases hx : x = k
    · rw [hx, Function.update_self]
      exact hlive
    · rw [Function.update_of_ne hx]
      exact h.live_iff x
  · intro x
    show (Function.update l.position k q x).junior = true →
      b.tranches = true ∧ (Function.update l.position k q x).live = true
    by_cases hx : x = k
    · rw [hx, Function.update_self]
      exact hjunior
    · rw [Function.update_of_ne hx]
      exact fun e => ⟨ht (h.junior_live x e).1, (h.junior_live x e).2⟩

theorem Matched.step {l l' : Ledger K} {m : Move K} (h : Matched l) (hm : Step l m l') :
    Matched l' := by
  cases hm with
  | accrue hf hv hs hj =>
    obtain ⟨h1, h2, h3, h4, h5⟩ := h
    refine ⟨h1, h2, h3, h4, fun h0 => ?_⟩
    have hnot : ¬(l.book.tranches = true ∧ 0 < l.book.juniorLp) := fun e => by
      have h0 : l.book.juniorLp = 0 := h0
      omega
    rw [if_neg hnot] at hj
    show l.book.juniorBalance + _ = 0
    rw [h5 h0, hj]
  | @deposit k a lp ha hlp hacc hgate hv hprice hzero hflag =>
    refine h.update ?_ ?_ ⟨fun _ => Nat.add_pos_right _ hlp, fun _ => rfl⟩ (fun e => by cases e)
      (fun e => e) h.junior_empty
    · show l.book.supply + lp + _ = l.book.supply + (_ + lp)
      omega
    · show l.book.juniorLp + (l.position k).juniorLp = l.book.juniorLp + 0
      rw [Position.juniorLp, if_neg (by rw [hflag]; decide)]
  | @depositJunior k a lp ha hlp hacc ht hgate hprice hzero hflag =>
    refine h.update ?_ ?_ ⟨fun _ => Nat.add_pos_right _ hlp, fun _ => rfl⟩ (fun _ => ⟨ht, rfl⟩)
      (fun e => e) (fun e => ?_)
    · show l.book.supply + lp + _ = l.book.supply + (_ + lp)
      omega
    · -- a position that is not junior yet is empty
      have hold : (l.position k).juniorLp = (l.position k).lp := by
        rcases hflag with hj | hl
        · exact if_pos hj
        · have := (h.live_iff k).not.mp (by rw [hl]; decide)
          unfold Position.juniorLp
          split <;> omega
      show l.book.juniorLp + lp + (l.position k).juniorLp = l.book.juniorLp + (_ + lp)
      omega
    · have e : l.book.juniorLp + lp = 0 := e
      omega
  | @withdraw k lp x hlp hle hacc hflag hv hx hpos hvault hsupply =>
    have hlive : (l.position k).live = true := (h.live_iff k).mpr (by omega)
    have hjf : (l.position k).junior = false := by
      cases hj : (l.position k).junior with
      | false => rfl
      | true => rw [hflag (h.junior_live k hj).1] at hj; cases hj
    refine h.update ?_ ?_ (Position.live_debit hlive) (fun e => ?_) (fun e => e) h.junior_empty
    · show l.book.supply - lp + _ = l.book.supply + _
      rw [Position.lp_debit]
      omega
    · show l.book.juniorLp + _ = l.book.juniorLp + _
      rw [Position.juniorLp_debit_of_not hjf, Position.juniorLp, if_neg (by rw [hjf]; decide)]
    · rw [(Position.junior_debit e).1] at hjf
      cases hjf
  | @withdrawJunior k lp x hlp hle hacc ht hflag hx hvault hsupply hrest hbal =>
    have hlive : (l.position k).live = true := (h.junior_live k hflag).2
    refine h.update ?_ ?_ (Position.live_debit hlive)
      (fun e => ⟨ht, (Position.junior_debit e).2 hlive⟩) (fun e => e) (fun e => ?_)
    · show l.book.supply - lp + _ = l.book.supply + _
      rw [Position.lp_debit]
      omega
    · show l.book.juniorLp - lp + _ = l.book.juniorLp + _
      rw [Position.juniorLp_debit hflag, Position.juniorLp, if_pos hflag]
      omega
    · have e : l.book.juniorLp - lp = 0 := e
      omega
  | @exitJunior k lp x hlp hle hacc ht hflag hx hvault hsupply hlast =>
    have hlive : (l.position k).live = true := (h.junior_live k hflag).2
    have hsum := h.juniorLp_eq ▸ lp_le_sum l.position Position.juniorLp k
    rw [Position.juniorLp, if_pos hflag] at hsum
    refine h.update ?_ ?_ (Position.live_debit hlive)
      (fun e => ⟨ht, (Position.junior_debit e).2 hlive⟩) (fun e => e) (fun _ => rfl)
    · show l.book.supply - lp + _ = l.book.supply + _
      rw [Position.lp_debit]
      omega
    · show 0 + _ = l.book.juniorLp + _
      rw [Position.juniorLp_debit hflag, Position.juniorLp, if_pos hflag]
      omega
  | flush | giveBack | recover | inflow =>
    obtain ⟨h1, h2, h3, h4, h5⟩ := h
    exact ⟨h1, h2, h3, h4, h5⟩
  | setTranches hm =>
    obtain ⟨h1, h2, h3, h4, h5⟩ := h
    exact ⟨h1, h2, h3, fun k e => ⟨rfl, (h4 k e).2⟩, h5⟩

/-- A position keeps its tranche for as long as it holds LP. -/
theorem Matched.junior_eq {l l' : Ledger K} {m : Move K} (h : Matched l) (hm : Step l m l') {k : K}
    (h0 : 0 < (l.position k).lp) (h1 : 0 < (l'.position k).lp) :
    (l'.position k).junior = (l.position k).junior := by
  have hdebit : ∀ {q : Position} {lp : Nat}, 0 < (q.debit lp).lp →
      (q.debit lp).junior = q.junior := by
    intro q lp hpos
    rw [Position.lp_debit] at hpos
    unfold Position.debit
    rw [if_neg (by omega)]
  cases hm with
  | @deposit k' a lp ha hlp hacc hgate hv hprice hzero hflag =>
    by_cases hk : k = k'
    · subst hk
      simp only [Function.update_self]
      exact hflag.symm
    · simp only [Function.update_of_ne hk]
  | @depositJunior k' a lp ha hlp hacc ht hgate hprice hzero hflag =>
    by_cases hk : k = k'
    · subst hk
      simp only [Function.update_self]
      -- a record that was not junior is not live, and one that holds LP is
      rcases hflag with hj | hl
      · exact hj.symm
      · rw [(h.live_iff k).mpr h0] at hl
        cases hl
    · simp only [Function.update_of_ne hk]
  | @withdraw k' | @withdrawJunior k' | @exitJunior k' =>
    by_cases hk : k = k'
    · subst hk
      simp only [Function.update_self] at h1 ⊢
      exact hdebit h1
    · simp only [Function.update_of_ne hk]
  | _ => rfl

/-- What holds of every reachable ledger. -/
structure Sound (X : Nat) (l : Ledger K) : Prop extends Matched l, Balanced X l

theorem Sound.step {X : Nat} {l l' : Ledger K} {m : Move K} (h : Sound X l) (hm : Step l m l') :
    Sound (X + m.inflowOf) l' :=
  ⟨h.toMatched.step hm, h.toBalanced.step hm⟩

theorem Sound.run {X : Nat} {l l' : Ledger K} {ms : List (Move K)} (h : Sound X l)
    (hr : Transition.Run Step l ms l') : Sound (X + (ms.map Move.inflowOf).sum) l' :=
  hr.tally Move.inflowOf (fun _ _ _ _ _ hs hm => hs.step hm) h

end Positions

end Ledger

end PercolatorStake
