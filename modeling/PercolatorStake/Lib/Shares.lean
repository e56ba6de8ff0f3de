import Mathlib

/-!
# Share pools with one virtual share and one virtual asset

A pool of `value` assets owned through `supply` shares, priced at
`(value + 1) / (supply + 1)` and rounded against whoever acts.  The price is the
only thing a bystander sees, and neither minting nor redeeming lowers it.
-/

namespace Shares

/-- Assets per share, the virtual unit of each included. -/
def price (value supply : ℕ) : ℚ := (value + 1) / (supply + 1)

/-- Shares for `amount` assets, rounded down. -/
def minted (supply value amount : ℕ) : ℕ := amount * (supply + 1) / (value + 1)

/-- Assets for `shares` shares, rounded down. -/
def redeemed (supply value shares : ℕ) : ℕ := shares * (value + 1) / (supply + 1)

theorem price_le_price {v s v' s' : ℕ} :
    price v s ≤ price v' s' ↔ (v + 1) * (s' + 1) ≤ (v' + 1) * (s + 1) := by
  unfold price
  rw [div_le_div_iff₀ (by positivity) (by positivity)]
  exact_mod_cast Iff.rfl

theorem minted_mul_le (s v a : ℕ) : minted s v a * (v + 1) ≤ a * (s + 1) :=
  Nat.div_mul_le_self _ _

theorem redeemed_mul_le (s v l : ℕ) : redeemed s v l * (s + 1) ≤ l * (v + 1) :=
  Nat.div_mul_le_self _ _

/-- A holding of at most the whole supply redeems for at most the whole value. -/
theorem redeemed_le_value {s v l : ℕ} (h : l ≤ s) : redeemed s v l ≤ v := by
  refine Nat.le_of_lt_succ ((Nat.div_lt_iff_lt_mul (Nat.succ_pos s)).mpr ?_)
  calc l * (v + 1) ≤ s * (v + 1) := Nat.mul_le_mul_right _ h
    _ < (s + 1) * (v + 1) := Nat.mul_lt_mul_of_pos_right (Nat.lt_succ_self s) (Nat.succ_pos v)
    _ = v.succ * (s + 1) := Nat.mul_comm _ _

/-- The whole supply redeems for the whole value only at a price of one. -/
theorem redeemed_all_eq_iff {s v : ℕ} (h : s ≤ v) : redeemed s v s = v ↔ s = v := by
  constructor
  · intro he
    have hmul := redeemed_mul_le s v s
    rw [he, Nat.mul_succ, Nat.mul_succ, Nat.mul_comm v s] at hmul
    omega
  · intro he
    rw [he]
    exact Nat.mul_div_cancel _ (Nat.succ_pos v)

theorem one_le_price {v s : ℕ} : 1 ≤ price v s ↔ s ≤ v := by
  unfold price
  rw [one_le_div₀ (by positivity)]
  exact_mod_cast Nat.succ_le_succ_iff

/-- Minting for at least the price leaves the price no lower. -/
theorem price_le_of_mint {s v a l : ℕ} (h : l * (v + 1) ≤ a * (s + 1)) :
    price v s ≤ price (v + a) (s + l) := by
  rw [price_le_price]
  nlinarith

/-- Redeeming for at most the price leaves the price no lower. -/
theorem price_le_of_redeem {s v w l : ℕ} (hw : w ≤ v) (hl : l ≤ s)
    (h : w * (s + 1) ≤ l * (v + 1)) : price v s ≤ price (v - w) (s - l) := by
  rw [price_le_price]
  obtain ⟨v', rfl⟩ := Nat.exists_eq_add_of_le hw
  obtain ⟨s', rfl⟩ := Nat.exists_eq_add_of_le hl
  rw [Nat.add_sub_cancel_left, Nat.add_sub_cancel_left]
  nlinarith

theorem price_le_of_value_le {s v v' : ℕ} (h : v ≤ v') : price v s ≤ price v' s := by
  rw [price_le_price]
  exact Nat.mul_le_mul_right _ (by omega)

/-- At one supply the price orders the values. -/
theorem value_le_of_price_le {s v v' : ℕ} (h : price v s ≤ price v' s) : v ≤ v' := by
  rw [price_le_price] at h
  have := Nat.le_of_mul_le_mul_right h (Nat.succ_pos s)
  omega

/-- A fixed holding redeems for no less at a price that is no lower. -/
theorem redeemed_mono {s v s' v' : ℕ} (h : price v s ≤ price v' s') (l : ℕ) :
    redeemed s v l ≤ redeemed s' v' l := by
  rw [price_le_price] at h
  refine (Nat.le_div_iff_mul_le (Nat.succ_pos s')).mpr ?_
  have hr := redeemed_mul_le s v l
  refine Nat.le_of_mul_le_mul_right ?_ (Nat.succ_pos s)
  calc redeemed s v l * (s' + 1) * (s + 1)
      = redeemed s v l * (s + 1) * (s' + 1) := by ring
    _ ≤ l * (v + 1) * (s' + 1) := Nat.mul_le_mul_right _ hr
    _ = l * ((v + 1) * (s' + 1)) := by ring
    _ ≤ l * ((v' + 1) * (s + 1)) := Nat.mul_le_mul_left _ h
    _ = l * (v' + 1) * (s + 1) := by ring

end Shares
