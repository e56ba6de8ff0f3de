import PercolatorStake.Lib.Shares

/-!
# Share pools over several steps

Two facts that one step does not show.  An amount minted or redeemed in pieces gives no
more than in one piece: every piece rounds against the holder, and the better price that
the rounding leaves to the rest of the holding never makes up for it.  And a holding whose
holder pays into the pool is worth no more than what was paid, as long as only a bounded
number of others mint beside it: each of them loses less than a share to rounding.
-/

namespace Shares

/-! ## In pieces -/

/-- Shares for amounts put in one after the other. -/
def mintedAll : ℕ → ℕ → List ℕ → ℕ
  | _, _, [] => 0
  | s, v, a :: rest => minted s v a + mintedAll (s + minted s v a) (v + a) rest

/-- Assets for holdings redeemed one after the other. -/
def redeemedAll : ℕ → ℕ → List ℕ → ℕ
  | _, _, [] => 0
  | s, v, l :: rest => redeemed s v l + redeemedAll (s - l) (v - redeemed s v l) rest

/-- Shares minted for no more than the price redeem, right after, for no more than was
paid for them. -/
theorem redeemed_minted_le {s v a l k : ℕ} (h : l * (v + 1) ≤ a * (s + 1)) (hk : k ≤ l) :
    redeemed (s + l) (v + a) k ≤ a := by
  refine Nat.div_le_of_le_mul ?_
  calc k * (v + a + 1) ≤ l * (v + a + 1) := Nat.mul_le_mul_right _ hk
    _ = l * (v + 1) + l * a := by ring
    _ ≤ a * (s + 1) + l * a := Nat.add_le_add_right h _
    _ = (s + l + 1) * a := by ring

theorem minted_split (s v a b : ℕ) :
    minted s v a + minted (s + minted s v a) (v + a) b ≤ minted s v (a + b) := by
  have ha := minted_mul_le s v a
  have hb := minted_mul_le (s + minted s v a) (v + a) b
  generalize minted s v a = m at *
  generalize minted (s + m) (v + a) b = n at *
  refine (Nat.le_div_iff_mul_le (Nat.succ_pos v)).mpr ?_
  refine Nat.le_of_mul_le_mul_right ?_ (Nat.succ_pos (v + a))
  calc (m + n) * (v + 1) * (v + a + 1)
      = m * (v + 1) * (v + a + 1) + n * (v + a + 1) * (v + 1) := by ring
    _ ≤ m * (v + 1) * (v + a + 1) + b * (s + m + 1) * (v + 1) := by gcongr
    _ = m * (v + 1) * (v + a + 1 + b) + b * (s + 1) * (v + 1) := by ring
    _ ≤ a * (s + 1) * (v + a + 1 + b) + b * (s + 1) * (v + 1) := by gcongr
    _ = (a + b) * (s + 1) * (v + a + 1) := by ring

theorem redeemed_split {s v l k : ℕ} (h : l + k ≤ s) :
    redeemed s v l + redeemed (s - l) (v - redeemed s v l) k ≤ redeemed s v (l + k) := by
  have hle : redeemed s v l ≤ v := redeemed_le_value (by omega)
  have hl := redeemed_mul_le s v l
  have hk := redeemed_mul_le (s - l) (v - redeemed s v l) k
  generalize redeemed s v l = x at *
  obtain ⟨r, rfl⟩ := Nat.exists_eq_add_of_le h
  obtain ⟨u, rfl⟩ := Nat.exists_eq_add_of_le hle
  rw [Nat.add_assoc l k r, Nat.add_sub_cancel_left, Nat.add_sub_cancel_left] at *
  generalize redeemed (k + r) u k = y at *
  refine (Nat.le_div_iff_mul_le (Nat.succ_pos _)).mpr ?_
  refine Nat.le_of_mul_le_mul_right ?_ (Nat.succ_pos (k + r))
  -- the second piece is priced on what the first one leaves of both sides
  calc (x + y) * (l + (k + r) + 1) * (k + r + 1)
      = x * (l + (k + r) + 1) * (k + r + 1) + y * (k + r + 1) * (l + (k + r) + 1) := by ring
    _ ≤ x * (l + (k + r) + 1) * (k + r + 1) + k * (u + 1) * (l + (k + r) + 1) := by gcongr
    _ = x * (l + (k + r) + 1) * (r + 1) + k * (x + u + 1) * (l + (k + r) + 1) := by ring
    _ ≤ l * (x + u + 1) * (r + 1) + k * (x + u + 1) * (l + (k + r) + 1) := by gcongr
    _ = (l + k) * (x + u + 1) * (k + r + 1) := by ring

theorem mintedAll_le (s v : ℕ) (amounts : List ℕ) :
    mintedAll s v amounts ≤ minted s v amounts.sum := by
  induction amounts generalizing s v with
  | nil => exact Nat.zero_le _
  | cons a rest ih =>
    calc minted s v a + mintedAll (s + minted s v a) (v + a) rest
        ≤ minted s v a + minted (s + minted s v a) (v + a) rest.sum := by gcongr; exact ih _ _
      _ ≤ minted s v (a + rest.sum) := minted_split s v a rest.sum
      _ = minted s v (a :: rest).sum := by rw [List.sum_cons]

theorem redeemedAll_le {s v : ℕ} {holdings : List ℕ} (h : holdings.sum ≤ s) :
    redeemedAll s v holdings ≤ redeemed s v holdings.sum := by
  induction holdings generalizing s v with
  | nil => exact Nat.zero_le _
  | cons l rest ih =>
    rw [List.sum_cons] at h ⊢
    calc redeemed s v l + redeemedAll (s - l) (v - redeemed s v l) rest
        ≤ redeemed s v l + redeemed (s - l) (v - redeemed s v l) rest.sum := by
          gcongr
          exact ih (by omega)
      _ ≤ redeemed s v (l + rest.sum) := redeemed_split h

/-! ## A holding beside others -/

/-- The holding `A` is worth at most `B`, with room for `k` mints by others: each of them
may raise the price by the part of a share it loses. -/
def Contained (A B k s v : ℕ) : Prop := A * (v + 1) * (s + 2 + k) ≤ B * ((s + 1) * (s + 2))

theorem Contained.redeemed_le {A B k s v : ℕ} (h : Contained A B k s v) :
    redeemed s v A ≤ B := by
  refine Nat.div_le_of_le_mul (Nat.le_of_mul_le_mul_right ?_ (Nat.succ_pos (s + 1)))
  calc A * (v + 1) * (s + 1 + 1) ≤ A * (v + 1) * (s + 2 + k) := Nat.mul_le_mul_left _ (by omega)
    _ ≤ B * ((s + 1) * (s + 2)) := h
    _ = (s + 1) * B * (s + 1 + 1) := by ring

/-- What is paid in beside a holding is worth to it less than it was, if there are shares
enough beside it. -/
theorem Contained.pay {A B k s v : ℕ} (h : Contained A B k s v) (hs : A + k ≤ s) (x : ℕ) :
    Contained A (B + x) k s (v + x) := by
  obtain ⟨r, rfl⟩ := Nat.exists_eq_add_of_le hs
  have hshare : A * (A + k + r + 2 + k) ≤ (A + k + r + 1) * (A + k + r + 2) := by nlinarith
  have hx := Nat.mul_le_mul_left x hshare
  unfold Contained at *
  calc A * (v + x + 1) * (A + k + r + 2 + k)
      = A * (v + 1) * (A + k + r + 2 + k) + x * (A * (A + k + r + 2 + k)) := by ring
    _ ≤ B * ((A + k + r + 1) * (A + k + r + 2)) +
        x * ((A + k + r + 1) * (A + k + r + 2)) := Nat.add_le_add h hx
    _ = (B + x) * ((A + k + r + 1) * (A + k + r + 2)) := by ring

theorem lt_minted_succ_mul (s v a : ℕ) : a * (s + 1) < (minted s v a + 1) * (v + 1) := by
  rw [Nat.mul_comm (minted s v a + 1)]
  exact Nat.lt_mul_div_succ _ (Nat.succ_pos v)

/-- A mint takes one unit of the room, if it mints anything. -/
theorem Contained.mint {A B k s v a : ℕ} (h : Contained A B (k + 1) s v)
    (hpos : 0 < minted s v a) : Contained A B k (s + minted s v a) (v + a) := by
  have hlt := lt_minted_succ_mul s v a
  generalize minted s v a = m at *
  -- the price after it, by less than one share
  have hprice : (v + a + 1) * (s + 1) ≤ (v + 1) * (s + m + 2) := by nlinarith
  have hroom : (s + 2) * (s + m + 2 + k) ≤ (s + m + 1) * (s + 3 + k) := by nlinarith
  unfold Contained at *
  refine Nat.le_of_mul_le_mul_right (c := (s + 1) * (s + 3 + k)) ?_ (by positivity)
  calc A * (v + a + 1) * (s + m + 2 + k) * ((s + 1) * (s + 3 + k))
      = (v + a + 1) * (s + 1) * (A * (s + m + 2 + k) * (s + 3 + k)) := by ring
    _ ≤ (v + 1) * (s + m + 2) * (A * (s + m + 2 + k) * (s + 3 + k)) := by gcongr
    _ = A * (v + 1) * (s + 2 + (k + 1)) * ((s + m + 2) * (s + m + 2 + k)) := by ring
    _ ≤ B * ((s + 1) * (s + 2)) * ((s + m + 2) * (s + m + 2 + k)) := by gcongr
    _ = B * (s + 1) * (s + m + 2) * ((s + 2) * (s + m + 2 + k)) := by ring
    _ ≤ B * (s + 1) * (s + m + 2) * ((s + m + 1) * (s + 3 + k)) := by gcongr
    _ = B * ((s + m + 1) * (s + m + 2)) * ((s + 1) * (s + 3 + k)) := by ring

end Shares
