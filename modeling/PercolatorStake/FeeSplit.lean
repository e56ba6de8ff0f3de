import PercolatorStake.Lib.Word

/-!
# The fee split

`distribute_fees` weighs the two tranches and gives the junior one its floor
share.  The product of a fee and a weight can leave 128 bits, and then the
quotient is formed from a 256-bit product by long division, one bit at a time.

The division is followed with the usual invariant: when `i` bits of the dividend
are still unread, the remainder and the quotient are those of the bits read so
far.
-/

namespace PercolatorStake
namespace Math

open Word

/-- The 256-bit product as a high and a low word, from 64-bit limbs. -/
def wideProduct (a b : U128) : U128 × U128 :=
  let mask : U128 := BitVec.ofNat 128 (2 ^ 64 - 1)
  let a0 := a &&& mask
  let a1 := a >>> 64
  let b0 := b &&& mask
  let b1 := b >>> 64
  let m0 := a0 * b0
  let m1 := a0 * b1
  let m2 := a1 * b0
  let m3 := a1 * b1
  let mid := overflowingAdd m1 m2
  let lo := overflowingAdd m0 (mid.1 <<< 64)
  let hi := m3 + (mid.1 >>> 64) + (mid.2 <<< 64) + lo.2
  (hi, lo.1)

/-- The same with every product and every sum of the limbs checked. -/
def checkedProduct (a b : U128) : Option (U128 × U128) := do
  let mask : U128 := BitVec.ofNat 128 (2 ^ 64 - 1)
  let a0 := a &&& mask
  let a1 := a >>> 64
  let b0 := b &&& mask
  let b1 := b >>> 64
  let m0 ← wideMul a0 b0
  let m1 ← wideMul a0 b1
  let m2 ← wideMul a1 b0
  let m3 ← wideMul a1 b1
  let mid := overflowingAdd m1 m2
  let lo := overflowingAdd m0 (mid.1 <<< 64)
  let hi ← wideAdd m3 (mid.1 >>> 64)
  let hi ← wideAdd hi (mid.2 <<< 64)
  let hi ← wideAdd hi lo.2
  some (hi, lo.1)

/-- One turn of the long division: the bit at position `i` of the dividend is
shifted into the remainder, and the bit shifted out on top counts in the
comparison with the divisor. -/
def mulDivStep (hi lo d : U128) (i : Nat) (rem quo : U128) : U128 × U128 :=
  let bit := if 128 ≤ i then (hi >>> (i - 128)) &&& 1 else (lo >>> i) &&& 1
  let remTop := rem >>> 127
  let rem := (rem <<< 1) ||| bit
  if remTop = 1 ∨ d ≤ rem then
    (rem - d, if i < 128 then quo ||| ((1 : U128) <<< i) else quo)
  else (rem, quo)

/-- The division loop, from bit `i - 1` down to bit `0`. -/
def mulDivLoop (hi lo d : U128) : Nat → U128 → U128 → U128 × U128
  | 0, rem, quo => (rem, quo)
  | i + 1, rem, quo =>
    let next := mulDivStep hi lo d i rem quo
    mulDivLoop hi lo d i next.1 next.2

/-- The division of the full product, all 256 bits of it. -/
def mulDivWide (a b d : U128) : U128 :=
  (mulDivLoop (wideProduct a b).1 (wideProduct a b).2 d 256 0 0).2

def mulDivFloor (a b d : U128) : U128 :=
  match wideMul a b with
  | some p => p / d
  | none => mulDivWide a b d

/-- The weighted share of a fee.  When the product leaves the word the fee is
split into quotient and remainder first. -/
def juniorShare (totalFee juniorWeight totalWeight : U128) : U128 :=
  match wideMul totalFee juniorWeight with
  | some product => product / totalWeight
  | none =>
    let q := totalFee / totalWeight
    let r := totalFee % totalWeight
    let part1 := q * juniorWeight
    let part2 := mulDivFloor r juniorWeight totalWeight
    wideSaturatingAdd part1 part2

/-- Fees for the junior and for the senior tranche. -/
def distributeFees (juniorBalance seniorBalance : UInt64) (juniorFeeMultBps : UInt16)
    (totalFee : UInt64) : UInt64 × UInt64 :=
  if totalFee = 0 then (0, 0)
  else
    let totalBalance := widen juniorBalance + widen seniorBalance
    if totalBalance = 0 then (0, 0)
    else
      let juniorWeight := widen juniorBalance * BitVec.ofNat 128 juniorFeeMultBps.toNat
      let seniorWeight := widen seniorBalance * 10000
      let totalWeight := juniorWeight + seniorWeight
      if totalWeight = 0 then (0, 0)
      else
        let share := juniorShare (widen totalFee) juniorWeight totalWeight
        let juniorFee := UInt64.ofNat (wideLesser share (widen totalFee)).toNat
        (juniorFee, saturatingSub totalFee juniorFee)

/-! ## The product -/

theorem toNat_and_mask (a : U128) :
    (a &&& BitVec.ofNat 128 (2 ^ 64 - 1)).toNat = a.toNat % 2 ^ 64 := by
  have hm : (BitVec.ofNat 128 (2 ^ 64 - 1)).toNat = 2 ^ 64 - 1 := rfl
  rw [BitVec.toNat_and, hm, Nat.and_two_pow_sub_one_eq_mod]

theorem toNat_mul_of_lt {a b : U128} (h : a.toNat * b.toNat < 2 ^ 128) :
    (a * b).toNat = a.toNat * b.toNat := by
  rw [BitVec.toNat_mul, Nat.mod_eq_of_lt h]

theorem limb_mul_lt {x y : Nat} (hx : x < 2 ^ 64) (hy : y < 2 ^ 64) :
    x * y ≤ (2 ^ 64 - 1) * (2 ^ 64 - 1) :=
  Nat.mul_le_mul (by omega) (by omega)

theorem toNat_shiftRight (a : U128) (n : Nat) : (a >>> n).toNat = a.toNat / 2 ^ n := by
  rw [BitVec.toNat_ushiftRight, Nat.shiftRight_eq_div_pow]

theorem toNat_shiftLeft (a : U128) (n : Nat) :
    (a <<< n).toNat = a.toNat * 2 ^ n % 2 ^ 128 := by
  rw [BitVec.toNat_shiftLeft, Nat.shiftLeft_eq]

/-- The limb products put together, as naturals. -/
theorem limbs_mul (a b : Nat) :
    a * b = (a / 2 ^ 64) * (b / 2 ^ 64) * 2 ^ 128 +
      ((a % 2 ^ 64) * (b / 2 ^ 64) + (a / 2 ^ 64) * (b % 2 ^ 64)) * 2 ^ 64 +
        (a % 2 ^ 64) * (b % 2 ^ 64) := by
  have ha : a = a / 2 ^ 64 * 2 ^ 64 + a % 2 ^ 64 := (Nat.div_add_mod' a _).symm
  have hb : b = b / 2 ^ 64 * 2 ^ 64 + b % 2 ^ 64 := (Nat.div_add_mod' b _).symm
  generalize a / 2 ^ 64 = a1 at *
  generalize b / 2 ^ 64 = b1 at *
  generalize a % 2 ^ 64 = a0 at *
  generalize b % 2 ^ 64 = b0 at *
  subst ha hb
  ring

theorem toNat_add_of_lt {a b : U128} (h : a.toNat + b.toNat < 2 ^ 128) :
    (a + b).toNat = a.toNat + b.toNat := by
  rw [BitVec.toNat_add, Nat.mod_eq_of_lt h]

/-- No product and no partial sum leaves the word, and the two words are the exact
product. -/
theorem checkedProduct_eq (a b : U128) : checkedProduct a b = some (wideProduct a b) ∧
    (wideProduct a b).1.toNat * 2 ^ 128 + (wideProduct a b).2.toNat = a.toNat * b.toNat := by
  have ha := a.isLt
  have hb := b.isLt
  have hp : a.toNat * b.toNat < 2 ^ 256 :=
    calc a.toNat * b.toNat ≤ a.toNat * 2 ^ 128 := Nat.mul_le_mul_left _ hb.le
      _ < 2 ^ 128 * 2 ^ 128 := Nat.mul_lt_mul_of_pos_right ha (by decide)
      _ = 2 ^ 256 := by decide
  unfold checkedProduct wideProduct
  extract_lets mask a0 a1 b0 b1 m0 m1 m2 m3 mid lo hi
  have h0 : a0.toNat = a.toNat % 2 ^ 64 := toNat_and_mask a
  have h1 : a1.toNat = a.toNat / 2 ^ 64 := toNat_shiftRight a 64
  have k0 : b0.toNat = b.toNat % 2 ^ 64 := toNat_and_mask b
  have k1 : b1.toNat = b.toNat / 2 ^ 64 := toNat_shiftRight b 64
  -- the four limb products fit
  have product : ∀ x y : U128, x.toNat < 2 ^ 64 → y.toNat < 2 ^ 64 →
      wideMul x y = some (x * y) ∧ (x * y).toNat = x.toNat * y.toNat := by
    intro x y hx hy
    have hlt : x.toNat * y.toNat < 2 ^ 128 := lt_of_le_of_lt (limb_mul_lt hx hy) (by decide)
    exact ⟨if_pos hlt, toNat_mul_of_lt hlt⟩
  obtain ⟨c0, e0⟩ := product a0 b0 (by omega) (by omega)
  obtain ⟨c1, e1⟩ := product a0 b1 (by omega) (by omega)
  obtain ⟨c2, e2⟩ := product a1 b0 (by omega) (by omega)
  obtain ⟨c3, e3⟩ := product a1 b1 (by omega) (by omega)
  replace e0 : m0.toNat = a0.toNat * b0.toNat := e0
  replace e1 : m1.toNat = a0.toNat * b1.toNat := e1
  replace e2 : m2.toNat = a1.toNat * b0.toNat := e2
  replace e3 : m3.toNat = a1.toNat * b1.toNat := e3
  have hmid : mid.1.toNat + mid.2.toNat * 2 ^ 128 = m1.toNat + m2.toNat :=
    overflowingAdd_spec m1 m2
  have hlo : lo.1.toNat + lo.2.toNat * 2 ^ 128 = m0.toNat + (mid.1 <<< 64).toNat :=
    overflowingAdd_spec m0 _
  have hlow := toNat_shiftLeft mid.1 64
  have hhigh := toNat_shiftRight mid.1 64
  have hcarry := toNat_shiftLeft mid.2 64
  have hsum := limbs_mul a.toNat b.toNat
  rw [← h0, ← h1, ← k0, ← k1, ← e0, ← e1, ← e2, ← e3] at hsum
  -- the high word, taken over naturals, is what the product leaves above the low one
  have hone : m1.toNat + m2.toNat < 2 ^ 129 := by
    have := m1.isLt
    have := m2.isLt
    omega
  have hexact : (m3.toNat + mid.1.toNat / 2 ^ 64 + mid.2.toNat * 2 ^ 64 + lo.2.toNat) * 2 ^ 128 +
      lo.1.toNat = a.toNat * b.toNat := by omega
  have hc : (mid.2 <<< 64).toNat = mid.2.toNat * 2 ^ 64 := by omega
  have hlt₁ : m3.toNat + (mid.1 >>> 64).toNat < 2 ^ 128 := by omega
  have s₁ := toNat_add_of_lt hlt₁
  have hlt₂ : (m3 + (mid.1 >>> 64)).toNat + (mid.2 <<< 64).toNat < 2 ^ 128 := by omega
  have s₂ := toNat_add_of_lt hlt₂
  have hlt₃ : (m3 + (mid.1 >>> 64) + (mid.2 <<< 64)).toNat + lo.2.toNat < 2 ^ 128 := by omega
  have s₃ : hi.toNat = (m3 + (mid.1 >>> 64) + (mid.2 <<< 64)).toNat + lo.2.toNat :=
    toNat_add_of_lt hlt₃
  refine ⟨?_, ?_⟩
  · have a₁ : wideAdd m3 (mid.1 >>> 64) = some (m3 + (mid.1 >>> 64)) := if_pos hlt₁
    have a₂ : wideAdd (m3 + (mid.1 >>> 64)) (mid.2 <<< 64) =
        some (m3 + (mid.1 >>> 64) + (mid.2 <<< 64)) := if_pos hlt₂
    have a₃ : wideAdd (m3 + (mid.1 >>> 64) + (mid.2 <<< 64)) lo.2 = some hi := if_pos hlt₃
    rw [c0, c1, c2, c3]
    show ((wideAdd m3 (mid.1 >>> 64)).bind fun x => (wideAdd x (mid.2 <<< 64)).bind fun x =>
      (wideAdd x lo.2).bind fun x => some (x, lo.1)) = _
    rw [a₁, Option.bind_some, a₂, Option.bind_some, a₃, Option.bind_some]
  · show hi.toNat * 2 ^ 128 + lo.1.toNat = _
    rw [s₃, s₂, s₁, hhigh, hc]
    exact hexact

theorem wideProduct_eq (a b : U128) :
    (wideProduct a b).1.toNat * 2 ^ 128 + (wideProduct a b).2.toNat = a.toNat * b.toNat :=
  (checkedProduct_eq a b).2

/-! ## The division -/

/-- Bits `i` and up of the dividend, read as a number. -/
theorem div_two_pow_succ (n i : Nat) : n / 2 ^ i = 2 * (n / 2 ^ (i + 1)) + n / 2 ^ i % 2 := by
  have h : n / 2 ^ (i + 1) = n / 2 ^ i / 2 := by rw [Nat.pow_succ, Nat.div_div_eq_div_mul]
  omega

theorem toNat_and_one (a : U128) : (a &&& 1).toNat = a.toNat % 2 := by
  have h1 : (1 : U128).toNat = 1 := rfl
  rw [BitVec.toNat_and, h1, Nat.and_one_is_mod]

/-- The bit the loop reads is bit `i` of the dividend. -/
theorem dividend_bit (hi lo : U128) (i : Nat) :
    (if 128 ≤ i then (hi >>> (i - 128)) &&& 1 else (lo >>> i) &&& 1).toNat =
      (hi.toNat * 2 ^ 128 + lo.toNat) / 2 ^ i % 2 := by
  have hlo := lo.isLt
  by_cases h : 128 ≤ i
  · have hp : 2 ^ i = 2 ^ 128 * 2 ^ (i - 128) := by rw [← Nat.pow_add, Nat.add_sub_cancel' h]
    have hd : (hi.toNat * 2 ^ 128 + lo.toNat) / 2 ^ 128 = hi.toNat := by omega
    rw [if_pos h, toNat_and_one, toNat_shiftRight, hp, ← Nat.div_div_eq_div_mul, hd]
  · have hp : 2 ^ 128 = 2 ^ i * (2 ^ (127 - i) * 2) := by
      rw [← Nat.pow_succ, ← Nat.pow_add, show i + (127 - i).succ = 128 by omega]
    have hd : (hi.toNat * 2 ^ 128 + lo.toNat) / 2 ^ i =
        hi.toNat * 2 ^ (127 - i) * 2 + lo.toNat / 2 ^ i := by
      rw [hp, Nat.mul_left_comm, Nat.mul_add_div (Nat.two_pow_pos i), Nat.mul_assoc]
    rw [if_neg h, toNat_and_one, toNat_shiftRight, hd]
    omega

/-- Shifting a bit in below gives twice the value and the bit, less what leaves
on top. -/
theorem toNat_shift_in {r b : U128} (hb : b.toNat < 2) :
    ((r <<< 1) ||| b).toNat = (2 * r.toNat + b.toNat) % 2 ^ 128 := by
  have hr := r.isLt
  have hs : (r <<< 1).toNat = (r.toNat % 2 ^ 127) <<< 1 := by
    rw [toNat_shiftLeft, Nat.shiftLeft_eq]
    omega
  rw [BitVec.toNat_or, hs, ← Nat.shiftLeft_add_eq_or_of_lt (by omega), Nat.shiftLeft_eq]
  omega

/-- A quotient whose low `i + 1` bits are clear takes bit `i`. -/
theorem toNat_set_bit {quo : U128} {q i : Nat} (hi : i < 128)
    (hq : quo.toNat = q * 2 ^ (i + 1)) :
    (quo ||| ((1 : U128) <<< i)).toNat = (2 * q + 1) * 2 ^ i := by
  have hlt : 2 ^ i < 2 ^ (i + 1) := Nat.pow_lt_pow_right (by decide) (by omega)
  have h1 : ((1 : U128) <<< i).toNat = 2 ^ i := by
    have hone : (1 : U128).toNat = 1 := rfl
    rw [toNat_shiftLeft, hone, Nat.one_mul,
      Nat.mod_eq_of_lt (Nat.pow_lt_pow_right (by decide) hi)]
  rw [BitVec.toNat_or, h1, hq, Nat.mul_comm q, ← Nat.two_pow_add_eq_or_of_lt hlt, Nat.pow_succ]
  ring

theorem divMod_eq {n k d r : Nat} (h : n = k * d + r) (hr : r < d) : n / d = k ∧ n % d = r :=
  (Nat.div_mod_unique (by omega)).mpr ⟨by rw [h]; ring, hr⟩

/-- Remainder and quotient of the bits read so far, `i` bits before the end. -/
structure Divided (n d i : Nat) (rem quo : U128) : Prop where
  rem_eq : rem.toNat = n / 2 ^ i % d
  quo_eq : quo.toNat = n / 2 ^ i / d * 2 ^ i

theorem mulDivStep_divided {hi lo d : U128} {i : Nat} {rem quo : U128} (hd : 0 < d.toNat)
    (hfit : (hi.toNat * 2 ^ 128 + lo.toNat) / d.toNat < 2 ^ 128)
    (h : Divided (hi.toNat * 2 ^ 128 + lo.toNat) d.toNat (i + 1) rem quo) :
    Divided (hi.toNat * 2 ^ 128 + lo.toNat) d.toNat i
      (mulDivStep hi lo d i rem quo).1 (mulDivStep hi lo d i rem quo).2 := by
  obtain ⟨hrem, hquo⟩ := h
  have hbit := dividend_bit hi lo i
  have hsucc := div_two_pow_succ (hi.toNat * 2 ^ 128 + lo.toNat) i
  have hrange : (hi.toNat * 2 ^ 128 + lo.toNat) / 2 ^ i / d.toNat * 2 ^ i < 2 ^ 128 := by
    refine lt_of_le_of_lt ?_ hfit
    rw [Nat.div_right_comm]
    exact Nat.div_mul_le_self _ _
  generalize hi.toNat * 2 ^ 128 + lo.toNat = n at *
  have hdlt := d.isLt
  have hremlt := rem.isLt
  unfold mulDivStep
  extract_lets bit remTop rem'
  replace hbit : bit.toNat = n / 2 ^ i % 2 := hbit
  have hb2 : bit.toNat < 2 := by omega
  have hrem' : rem'.toNat = (2 * rem.toNat + bit.toNat) % 2 ^ 128 := toNat_shift_in hb2
  have htop : remTop.toNat = rem.toNat / 2 ^ 127 := toNat_shiftRight rem 127
  have hremd : rem.toNat < d.toNat := by rw [hrem]; exact Nat.mod_lt _ hd
  -- the longer prefix of the dividend, through what the shorter one leaves
  have hprefix : n / 2 ^ i = 2 * (n / 2 ^ (i + 1) / d.toNat) * d.toNat +
      (2 * rem.toNat + bit.toNat) := by
    have hdm := Nat.div_add_mod' (n / 2 ^ (i + 1)) d.toNat
    rw [← hrem] at hdm
    rw [Nat.mul_assoc]
    omega
  have hcond : (remTop = 1 ∨ d ≤ rem') ↔ d.toNat ≤ 2 * rem.toNat + bit.toNat := by
    have hone : (1 : U128).toNat = 1 := rfl
    rw [BitVec.le_def, ← BitVec.toNat_inj, htop, hrem', hone]
    omega
  by_cases hle : d.toNat ≤ 2 * rem.toNat + bit.toNat
  · rw [if_pos (hcond.mpr hle)]
    have hsplit : n / 2 ^ i = (2 * (n / 2 ^ (i + 1) / d.toNat) + 1) * d.toNat +
        (2 * rem.toNat + bit.toNat - d.toNat) := by
      rw [Nat.add_mul]
      omega
    have hdm := divMod_eq hsplit (by omega)
    -- a quotient bit above the word would put the quotient out of range
    have hi128 : i < 128 := by
      by_contra hge
      have hpow : 2 ^ 128 ≤ 2 ^ i := Nat.pow_le_pow_right (by decide) (by omega)
      rw [hdm.1] at hrange
      have := Nat.mul_le_mul (Nat.le_add_left 1 (2 * (n / 2 ^ (i + 1) / d.toNat))) hpow
      omega
    rw [if_pos hi128]
    refine ⟨?_, ?_⟩
    · rw [hdm.2, BitVec.toNat_sub]
      omega
    · rw [hdm.1]
      exact toNat_set_bit hi128 hquo
  · rw [if_neg (mt hcond.mp hle)]
    have hdm := divMod_eq hprefix (by omega)
    refine ⟨?_, ?_⟩
    · rw [hdm.2]
      show rem'.toNat = _
      omega
    · rw [hdm.1]
      show quo.toNat = _
      rw [hquo, Nat.pow_succ]
      ring

theorem mulDivLoop_divided {hi lo d : U128} (hd : 0 < d.toNat)
    (hfit : (hi.toNat * 2 ^ 128 + lo.toNat) / d.toNat < 2 ^ 128) {i : Nat} {rem quo : U128}
    (h : Divided (hi.toNat * 2 ^ 128 + lo.toNat) d.toNat i rem quo) :
    Divided (hi.toNat * 2 ^ 128 + lo.toNat) d.toNat 0
      (mulDivLoop hi lo d i rem quo).1 (mulDivLoop hi lo d i rem quo).2 := by
  induction i generalizing rem quo with
  | zero => exact h
  | succ i ih => exact ih (mulDivStep_divided hd hfit h)

/-- Before the first turn nothing is read of a dividend without a bit from `i` on. -/
theorem divided_start {n d i : Nat} (hlt : n < 2 ^ i) : Divided n d i 0 0 := by
  refine ⟨?_, ?_⟩
  · rw [Nat.div_eq_of_lt hlt, Nat.zero_mod]
    rfl
  · rw [Nat.div_eq_of_lt hlt, Nat.zero_div, Nat.zero_mul]
    rfl

/-- The loop divides whatever has no bit at position `i` or above. -/
theorem mulDivLoop_eq {hi lo d : U128} (hd : 0 < d.toNat)
    (hfit : (hi.toNat * 2 ^ 128 + lo.toNat) / d.toNat < 2 ^ 128) {i : Nat}
    (hlt : hi.toNat * 2 ^ 128 + lo.toNat < 2 ^ i) :
    (mulDivLoop hi lo d i 0 0).2.toNat = (hi.toNat * 2 ^ 128 + lo.toNat) / d.toNat := by
  have hend := (mulDivLoop_divided hd hfit (divided_start hlt)).quo_eq
  rwa [Nat.pow_zero, Nat.div_one, Nat.mul_one] at hend

theorem wideProduct_lt (a b : U128) :
    (wideProduct a b).1.toNat * 2 ^ 128 + (wideProduct a b).2.toNat < 2 ^ 256 := by
  have hhi := (wideProduct a b).1.isLt
  have hlo := (wideProduct a b).2.isLt
  omega

/-- The floor of the exact quotient, whenever that quotient fits. -/
theorem mulDivFloor_eq {a b d : U128} (hd : 0 < d.toNat)
    (hfit : a.toNat * b.toNat / d.toNat < 2 ^ 128) :
    (mulDivFloor a b d).toNat = a.toNat * b.toNat / d.toNat := by
  unfold mulDivFloor
  by_cases h : a.toNat * b.toNat < 2 ^ 128
  · obtain ⟨p, hp, hn⟩ := wideMul_eq h
    rw [hp]
    show (p / d).toNat = _
    rw [BitVec.toNat_udiv, hn]
  · have hnone : wideMul a b = none := if_neg h
    rw [hnone]
    show (mulDivWide a b d).toNat = _
    rw [← wideProduct_eq a b] at hfit ⊢
    rw [mulDivWide, mulDivLoop_eq hd hfit (wideProduct_lt a b)]

/-! ## The split -/

/-- A floor of a product, with the first factor divided first. -/
theorem mul_div_split (f w t : Nat) (ht : 0 < t) :
    f * w / t = f / t * w + f % t * w / t := by
  have hf : f = t * (f / t) + f % t := (Nat.div_add_mod f t).symm
  calc f * w / t = (t * (f / t * w) + f % t * w) / t := by
        conv_lhs => rw [hf]
        congr 1
        ring
    _ = f / t * w + f % t * w / t := Nat.mul_add_div ht _ _

theorem share_le (f : Nat) {w t : Nat} (h : w ≤ t) : f * w / t ≤ f := by
  by_cases ht : t = 0
  · rw [ht, Nat.div_zero]
    exact Nat.zero_le f
  · exact Nat.div_le_of_le_mul (by rw [Nat.mul_comm t]; exact Nat.mul_le_mul_left f h)

/-- Both branches give the floor of the share, and neither the wrapping nor the
saturating operations of the second one show. -/
theorem juniorShare_eq {f w t : U128} (hf : f.toNat < 2 ^ 64) (ht : 0 < t.toNat)
    (hle : w.toNat ≤ t.toNat) : (juniorShare f w t).toNat = f.toNat * w.toNat / t.toNat := by
  have hshare : f.toNat * w.toNat / t.toNat ≤ f.toNat := share_le _ hle
  unfold juniorShare
  by_cases h : f.toNat * w.toNat < 2 ^ 128
  · obtain ⟨p, hp, hn⟩ := wideMul_eq h
    simp only [hp]
    rw [BitVec.toNat_udiv, hn]
  · have hnone : wideMul f w = none := if_neg h
    simp only [hnone]
    have hsplit := mul_div_split f.toNat w.toNat t.toNat ht
    have e2 : (mulDivFloor (f % t) w t).toNat = f.toNat % t.toNat * w.toNat / t.toNat := by
      rw [← BitVec.toNat_umod]
      refine mulDivFloor_eq ht ?_
      rw [BitVec.toNat_umod]
      omega
    have e1 : (f / t * w).toNat = f.toNat / t.toNat * w.toNat := by
      rw [← BitVec.toNat_udiv]
      refine toNat_mul_of_lt ?_
      rw [BitVec.toNat_udiv]
      omega
    have hsum : (f / t * w).toNat + (mulDivFloor (f % t) w t).toNat < 2 ^ 128 := by
      rw [e1, e2]
      omega
    rw [wideSaturatingAdd, if_pos hsum, toNat_add_of_lt hsum, e1, e2, hsplit]

theorem toNat_juniorWeight (j : UInt64) (m : UInt16) :
    (widen j * BitVec.ofNat 128 m.toNat).toNat = j.toNat * m.toNat ∧
      j.toNat * m.toNat < 2 ^ 80 := by
  have hj := j.toNat_lt
  have hm : m.toNat < 2 ^ 16 := m.toNat_lt
  have hlt : j.toNat * m.toNat < 2 ^ 80 :=
    calc j.toNat * m.toNat ≤ j.toNat * 2 ^ 16 := Nat.mul_le_mul_left _ hm.le
      _ < 2 ^ 80 := by omega
  have em : (BitVec.ofNat 128 m.toNat).toNat = m.toNat := by
    rw [BitVec.toNat_ofNat, Nat.mod_eq_of_lt (by omega)]
  refine ⟨?_, hlt⟩
  rw [toNat_mul_of_lt (by rw [toNat_widen, em]; omega), toNat_widen, em]

theorem toNat_seniorWeight (s : UInt64) :
    (widen s * (10000 : U128)).toNat = s.toNat * 10000 := by
  have hs := s.toNat_lt
  have e : (10000 : U128).toNat = 10000 := rfl
  rw [toNat_mul_of_lt (by rw [toNat_widen, e]; omega), toNat_widen, e]

/-- The junior tranche gets the floor of its weighted share, at every
magnitude. -/
theorem distributeFees_junior (j s : UInt64) (m : UInt16) (f : UInt64) :
    (distributeFees j s m f).1.toNat =
      f.toNat * (j.toNat * m.toNat) / (j.toNat * m.toNat + s.toNat * 10000) := by
  have hf := f.toNat_lt
  have hs := s.toNat_lt
  obtain ⟨ejw, hjw⟩ := toNat_juniorWeight j m
  have esw := toNat_seniorWeight s
  have e0 : (0 : U128).toNat = 0 := rfl
  unfold distributeFees
  by_cases hf0 : f = 0
  · rw [if_pos hf0, hf0]
    simp
  rw [if_neg hf0]
  have etw : (widen j * BitVec.ofNat 128 m.toNat + widen s * 10000).toNat =
      j.toNat * m.toNat + s.toNat * 10000 := by
    rw [toNat_add_of_lt (by rw [ejw, esw]; omega), ejw, esw]
  by_cases hb : widen j + widen s = 0
  · have e : (widen j + widen s).toNat = j.toNat + s.toNat := by
      have hj := j.toNat_lt
      rw [toNat_add_of_lt (by rw [toNat_widen, toNat_widen]; omega), toNat_widen, toNat_widen]
    have hj0 : j.toNat = 0 := by
      rw [hb] at e
      omega
    simp only [if_pos hb, hj0]
    simp
  by_cases hw : widen j * BitVec.ofNat 128 m.toNat + widen s * 10000 = 0
  · simp only [if_neg hb, if_pos hw]
    rw [← etw, hw, e0, Nat.div_zero]
    rfl
  have hpos : 0 < (widen j * BitVec.ofNat 128 m.toNat + widen s * 10000).toNat := by
    rcases Nat.eq_zero_or_pos
      (widen j * BitVec.ofNat 128 m.toNat + widen s * 10000).toNat with h | h
    · exact absurd (BitVec.eq_of_toNat_eq h) hw
    · exact h
  simp only [if_neg hb, if_neg hw]
  have eshare := juniorShare_eq (f := widen f) (w := widen j * BitVec.ofNat 128 m.toNat)
    (by rw [toNat_widen]; exact hf) hpos (by rw [etw, ejw]; omega)
  have hle := share_le f.toNat
    (show j.toNat * m.toNat ≤ j.toNat * m.toNat + s.toNat * 10000 by omega)
  rw [toNat_widen, ejw, etw] at eshare
  rw [wideLesser, if_pos (by rw [eshare, toNat_widen]; exact hle), toNat_ofNat (by omega), eshare]

end Math
end PercolatorStake
