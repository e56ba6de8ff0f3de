import PercolatorStake.FeeSplit

/-!
# The fee split in checked arithmetic

The same functions with every sum and product checked, without the clamp and with no
saturation.  They return what the program returns, so none of these ever shows.
-/

namespace PercolatorStake
namespace Math

open Word

/-! ## The division loop, turn by turn -/

/-- Remainder and quotient after `k` turns of the loop. -/
def mulDivState (hi lo d : U128) : Nat → U128 × U128
  | 0 => (0, 0)
  | k + 1 =>
    mulDivStep hi lo d (255 - k) (mulDivState hi lo d k).1 (mulDivState hi lo d k).2

section

variable {hi lo d : U128} {i k : Nat}

theorem mulDivLoop_state (hk : k + i = 256) :
    mulDivLoop hi lo d i (mulDivState hi lo d k).1 (mulDivState hi lo d k).2 =
      mulDivState hi lo d 256 := by
  induction i generalizing k with
  | zero =>
    obtain rfl : k = 256 := by omega
    rfl
  | succ i ih =>
    have hi : 255 - k = i := by omega
    have hnext := ih (k := k + 1) (by omega)
    rw [mulDivState, hi] at hnext
    exact hnext

theorem mulDivState_divided (hd : 0 < d.toNat)
    (hfit : (hi.toNat * 2 ^ 128 + lo.toNat) / d.toNat < 2 ^ 128)
    (hlt : hi.toNat * 2 ^ 128 + lo.toNat < 2 ^ 256) (hk : k ≤ 256) :
    Divided (hi.toNat * 2 ^ 128 + lo.toNat) d.toNat (256 - k) (mulDivState hi lo d k).1
      (mulDivState hi lo d k).2 := by
  induction k with
  | zero => exact divided_start hlt
  | succ k ih =>
    have hstart := ih (by omega)
    have hpos : 256 - k = 255 - k + 1 := by omega
    rw [hpos] at hstart
    have hnext := mulDivStep_divided hd hfit hstart
    have hend : 256 - (k + 1) = 255 - k := by omega
    rw [hend]
    exact hnext

end

/-- What a turn compares with the divisor: the bit shifted out on top of the remainder
and the remainder with bit `i` of the dividend shifted in. -/
def shiftIn (hi lo : U128) (i : Nat) (rem : U128) : U128 × U128 :=
  (rem >>> 127, (rem <<< 1) ||| if 128 ≤ i then (hi >>> (i - 128)) &&& 1 else (lo >>> i) &&& 1)

/-- Both together are a number of 129 bits, and nothing is lost in it. -/
theorem shiftIn_exact (hi lo : U128) (i : Nat) (rem : U128) :
    (shiftIn hi lo i rem).1.toNat * 2 ^ 128 + (shiftIn hi lo i rem).2.toNat =
      2 * rem.toNat + (hi.toNat * 2 ^ 128 + lo.toNat) / 2 ^ i % 2 := by
  have hrem := rem.isLt
  have hbit := dividend_bit hi lo i
  have htop : (shiftIn hi lo i rem).1.toNat = rem.toNat / 2 ^ 127 := toNat_shiftRight rem 127
  have hlow : (shiftIn hi lo i rem).2.toNat = _ := toNat_shift_in (r := rem)
    (b := if 128 ≤ i then (hi >>> (i - 128)) &&& 1 else (lo >>> i) &&& 1) (by omega)
  rw [hbit] at hlow
  omega

/-- A turn reduces that number by the divisor, fully. -/
theorem mulDivState_turn {hi lo d : U128} (hd : 0 < d.toNat)
    (hfit : (hi.toNat * 2 ^ 128 + lo.toNat) / d.toNat < 2 ^ 128) {k : Nat} (hk : k < 256) :
    (mulDivState hi lo d (k + 1)).1.toNat =
      (2 * (mulDivState hi lo d k).1.toNat +
        (hi.toNat * 2 ^ 128 + lo.toNat) / 2 ^ (255 - k) % 2) % d.toNat := by
  have hhi := hi.isLt
  have hlo := lo.isLt
  have hlt : hi.toNat * 2 ^ 128 + lo.toNat < 2 ^ 256 := by omega
  have hnow := (mulDivState_divided hd hfit hlt (k := k) (by omega)).rem_eq
  have hnext := (mulDivState_divided hd hfit hlt (k := k + 1) (by omega)).rem_eq
  have hsucc := div_two_pow_succ (hi.toNat * 2 ^ 128 + lo.toNat) (255 - k)
  have hhere : 256 - k = 255 - k + 1 := by omega
  have hthere : 256 - (k + 1) = 255 - k := by omega
  rw [hhere] at hnow
  rw [hthere, hsucc] at hnext
  rw [hnext, hnow]
  exact ((Nat.mod_modEq _ d.toNat).symm.mul_left 2).add_right _

/-! ## Floor division -/

theorem toNat_pos {d : U128} (h : d ≠ 0) : 0 < d.toNat := by
  rcases Nat.eq_zero_or_pos d.toNat with hd | hd
  · exact absurd (BitVec.eq_of_toNat_eq hd) h
  · exact hd

/-- `mul_div_floor` is the floor of the exact quotient.  The limbs make the exact
product with no sum or product out of range, each turn of the loop leaves the remainder
below the divisor, and on a product that fits the loop divides as the machine does. -/
theorem mul_div_floor_exact {a b d : U128} (hd : d ≠ 0)
    (hfit : a.toNat * b.toNat / d.toNat < 2 ^ 128) :
    (mulDivFloor a b d).toNat = a.toNat * b.toNat / d.toNat ∧
    checkedProduct a b = some (wideProduct a b) ∧
    (wideProduct a b).1.toNat * 2 ^ 128 + (wideProduct a b).2.toNat = a.toNat * b.toNat ∧
    mulDivWide a b d = (mulDivState (wideProduct a b).1 (wideProduct a b).2 d 256).2 ∧
    (∀ k < 256,
      let rem := (mulDivState (wideProduct a b).1 (wideProduct a b).2 d k).1
      let next := (mulDivState (wideProduct a b).1 (wideProduct a b).2 d (k + 1)).1
      let shifted := shiftIn (wideProduct a b).1 (wideProduct a b).2 (255 - k) rem
      shifted.1.toNat * 2 ^ 128 + shifted.2.toNat =
          2 * rem.toNat + a.toNat * b.toNat / 2 ^ (255 - k) % 2 ∧
        next.toNat = (shifted.1.toNat * 2 ^ 128 + shifted.2.toNat) % d.toNat ∧
        next.toNat < d.toNat) ∧
    ∀ p, wideMul a b = some p → mulDivWide a b d = p / d := by
  have hpos := toNat_pos hd
  obtain ⟨hchecked, hproduct⟩ := checkedProduct_eq a b
  have hwide := hfit
  rw [← hproduct] at hwide
  have hslow : (mulDivWide a b d).toNat = a.toNat * b.toNat / d.toNat := by
    rw [mulDivWide, mulDivLoop_eq hpos hwide (wideProduct_lt a b), hproduct]
  refine ⟨mulDivFloor_eq hpos hfit, hchecked, hproduct, ?_, ?_, ?_⟩
  · rw [mulDivWide]
    exact congrArg Prod.snd (mulDivLoop_state (k := 0) rfl)
  · intro k hk rem next shifted
    have hshift := shiftIn_exact (wideProduct a b).1 (wideProduct a b).2 (255 - k) rem
    have hturn := mulDivState_turn hpos hwide hk
    rw [← hshift] at hturn
    rw [hproduct] at hshift
    refine ⟨hshift, hturn, ?_⟩
    have hlt := Nat.mod_lt
      (shifted.1.toNat * 2 ^ 128 + shifted.2.toNat) hpos
    rwa [← hturn] at hlt
  · intro p hp
    have hprod : a.toNat * b.toNat < 2 ^ 128 := by
      by_contra hlarge
      rw [wideMul, if_neg hlarge] at hp
      cases hp
    obtain ⟨p', hp', hn⟩ := wideMul_eq hprod
    obtain rfl : p' = p := Option.some.inj (hp'.symm.trans hp)
    apply BitVec.eq_of_toNat_eq
    rw [hslow, BitVec.toNat_udiv, hn]

/-- The widest operands, divided by the widest divisor. -/
theorem mul_div_floor_widest :
    let m := BitVec.allOnes 128
    m.toNat * m.toNat / m.toNat < 2 ^ 128 ∧ (mulDivFloor m m m).toNat = 2 ^ 128 - 1 := by
  have hfit : (BitVec.allOnes 128).toNat * (BitVec.allOnes 128).toNat /
      (BitVec.allOnes 128).toNat < 2 ^ 128 := by decide +kernel
  refine ⟨hfit, ?_⟩
  rw [(mul_div_floor_exact (by decide +kernel) hfit).1]
  decide +kernel

/-! ## The split -/

/-- `mul_div_floor` with the limbs checked. -/
def checkedMulDivFloor (a b d : U128) : Option U128 :=
  match wideMul a b with
  | some p => wideDiv p d
  | none => do
    let p ← checkedProduct a b
    some (mulDivLoop p.1 p.2 d 256 0 0).2

/-- The branch of a product that fits. -/
def fastShare (totalFee juniorWeight totalWeight : U128) : Option U128 := do
  let product ← wideMul totalFee juniorWeight
  wideDiv product totalWeight

/-- The other branch, on quotient and remainder of the fee. -/
def splitShare (totalFee juniorWeight totalWeight : U128) : Option U128 := do
  let q ← wideDiv totalFee totalWeight
  let r := totalFee % totalWeight
  let part1 ← wideMul q juniorWeight
  let part2 ← checkedMulDivFloor r juniorWeight totalWeight
  wideAdd part1 part2

/-- The share, by whichever branch the product selects. -/
def checkedShare (totalFee juniorWeight totalWeight : U128) : Option U128 :=
  match wideMul totalFee juniorWeight with
  | some product => wideDiv product totalWeight
  | none => splitShare totalFee juniorWeight totalWeight

/-- `distribute_fees` with every operation checked and the share not clamped. -/
def checkedDistributeFees (juniorBalance seniorBalance : UInt64) (juniorFeeMultBps : UInt16)
    (totalFee : UInt64) : Option (UInt64 × UInt64) :=
  if totalFee = 0 then some (0, 0)
  else do
    let totalBalance ← wideAdd (widen juniorBalance) (widen seniorBalance)
    if totalBalance = 0 then some (0, 0)
    else do
      let juniorWeight ← wideMul (widen juniorBalance) (BitVec.ofNat 128 juniorFeeMultBps.toNat)
      let seniorWeight ← wideMul (widen seniorBalance) 10000
      let totalWeight ← wideAdd juniorWeight seniorWeight
      if totalWeight = 0 then some (0, 0)
      else do
        let share ← checkedShare (widen totalFee) juniorWeight totalWeight
        let juniorFee ← narrow share.toNat
        let seniorFee ← checkedSub totalFee juniorFee
        some (juniorFee, seniorFee)

theorem checkedMulDivFloor_eq {a b d : U128} (hd : 0 < d.toNat) :
    checkedMulDivFloor a b d = some (mulDivFloor a b d) := by
  unfold checkedMulDivFloor mulDivFloor
  cases wideMul a b with
  | some p => exact if_neg hd.ne'
  | none =>
    show ((checkedProduct a b).bind fun p => some (mulDivLoop p.1 p.2 d 256 0 0).2) = _
    rw [(checkedProduct_eq a b).1, Option.bind_some]
    rfl

/-- Of a fee in 64 bits the split branch makes the floor of the share, without leaving
the word. -/
theorem splitShare_eq {f w t : U128} (hf : f.toNat < 2 ^ 64) (ht : 0 < t.toNat)
    (hle : w.toNat ≤ t.toNat) :
    ∃ share, splitShare f w t = some share ∧ share.toNat = f.toNat * w.toNat / t.toNat := by
  have hshare : f.toNat * w.toNat / t.toNat ≤ f.toNat := share_le _ hle
  have hsplit := mul_div_split f.toNat w.toNat t.toNat ht
  rw [hsplit] at hshare
  have hpart : f.toNat / t.toNat * w.toNat ≤ f.toNat := (Nat.le_add_right _ _).trans hshare
  obtain ⟨q, hq, nq⟩ := wideDiv_eq (a := f) (b := t) ht.ne'
  obtain ⟨part1, h1, n1⟩ := wideMul_eq (a := q) (b := w) (by rw [nq]; omega)
  have n2 : (mulDivFloor (f % t) w t).toNat = f.toNat % t.toNat * w.toNat / t.toNat := by
    rw [← BitVec.toNat_umod]
    refine mulDivFloor_eq ht ?_
    rw [BitVec.toNat_umod]
    omega
  obtain ⟨share, hs, ns⟩ := wideAdd_eq (a := part1) (b := mulDivFloor (f % t) w t)
    (by rw [n1, nq, n2]; omega)
  refine ⟨share, ?_, by rw [ns, n1, nq, n2, hsplit]⟩
  unfold splitShare
  simp only [hq, h1, checkedMulDivFloor_eq ht, Option.bind_eq_bind, Option.bind_some]
  exact hs

/-- Where the product fits, the other branch says the same. -/
theorem fastShare_eq {f w t x : U128} (h : fastShare f w t = some x) :
    x.toNat = f.toNat * w.toNat / t.toNat := by
  unfold fastShare at h
  by_cases hfit : f.toNat * w.toNat < 2 ^ 128
  · obtain ⟨p, hp, np⟩ := wideMul_eq hfit
    rw [hp] at h
    change wideDiv p t = some x at h
    by_cases ht : t.toNat = 0
    · rw [wideDiv, if_pos ht] at h
      cases h
    · obtain ⟨c, hc, nc⟩ := wideDiv_eq (a := p) ht
      rw [hc] at h
      cases h
      rw [nc, np]
  · rw [show wideMul f w = none from if_neg hfit] at h
    cases h

theorem checkedShare_eq {f w t : U128} (hf : f.toNat < 2 ^ 64) (ht : 0 < t.toNat)
    (hle : w.toNat ≤ t.toNat) :
    checkedShare f w t = some (juniorShare f w t) := by
  have hshare := juniorShare_eq hf ht hle
  unfold checkedShare
  cases hw : wideMul f w with
  | some product =>
    show wideDiv product t = _
    rw [wideDiv, if_neg ht.ne', juniorShare, hw]
  | none =>
    obtain ⟨share, hs, ns⟩ := splitShare_eq hf ht hle
    show splitShare f w t = _
    rw [hs, Option.some_inj]
    exact BitVec.eq_of_toNat_eq (ns.trans hshare.symm)

theorem total_zero {j s : UInt64} (h : widen j + widen s = 0) : j.toNat = 0 ∧ s.toNat = 0 := by
  have hj := j.toNat_lt
  have hs := s.toNat_lt
  have e : (widen j + widen s).toNat = j.toNat + s.toNat := by
    rw [toNat_add_of_lt (by rw [toNat_widen, toNat_widen]; omega), toNat_widen, toNat_widen]
  have h0 : (0 : U128).toNat = 0 := rfl
  rw [h, h0] at e
  omega

/-- The weight of both tranches, in the word and as a natural. -/
theorem toNat_totalWeight (j s : UInt64) (m : UInt16) :
    (widen j * BitVec.ofNat 128 m.toNat + widen s * 10000).toNat =
      j.toNat * m.toNat + s.toNat * 10000 := by
  have hs := s.toNat_lt
  obtain ⟨hjunior, hlt⟩ := toNat_juniorWeight j m
  have hsenior := toNat_seniorWeight s
  rw [toNat_add_of_lt (by rw [hjunior, hsenior]; omega), hjunior, hsenior]

theorem checkedDistributeFees_eq (j s : UInt64) (m : UInt16) (f : UInt64) :
    checkedDistributeFees j s m f = some (distributeFees j s m f) := by
  have hj := j.toNat_lt
  have hs := s.toNat_lt
  have hm : m.toNat < 2 ^ 16 := m.toNat_lt
  have hf := f.toNat_lt
  obtain ⟨hjunior, hlt⟩ := toNat_juniorWeight j m
  have hsenior := toNat_seniorWeight s
  have htotal := toNat_totalWeight j s m
  have e10 : (10000 : U128).toNat = 10000 := rfl
  have em : (BitVec.ofNat 128 m.toNat).toNat = m.toNat := by
    rw [BitVec.toNat_ofNat, Nat.mod_eq_of_lt (by omega)]
  have c₁ : wideAdd (widen j) (widen s) = some (widen j + widen s) :=
    if_pos (by rw [toNat_widen, toNat_widen]; omega)
  have c₂ : wideMul (widen j) (BitVec.ofNat 128 m.toNat) =
      some (widen j * BitVec.ofNat 128 m.toNat) :=
    if_pos (by rw [toNat_widen, em]; omega)
  have c₃ : wideMul (widen s) 10000 = some (widen s * 10000) :=
    if_pos (by rw [toNat_widen, e10]; omega)
  have c₄ : wideAdd (widen j * BitVec.ofNat 128 m.toNat) (widen s * 10000) =
      some (widen j * BitVec.ofNat 128 m.toNat + widen s * 10000) :=
    if_pos (by rw [hjunior, hsenior]; omega)
  unfold checkedDistributeFees distributeFees
  by_cases hf0 : f = 0
  · rw [if_pos hf0, if_pos hf0]
  rw [if_neg hf0, if_neg hf0]
  simp only [c₁, c₂, c₃, c₄, Option.bind_eq_bind, Option.bind_some]
  by_cases hb : widen j + widen s = 0
  · rw [if_pos hb, if_pos hb]
  rw [if_neg hb, if_neg hb]
  by_cases hw : widen j * BitVec.ofNat 128 m.toNat + widen s * 10000 = 0
  · rw [if_pos hw, if_pos hw]
  rw [if_neg hw, if_neg hw]
  have hle : (widen j * BitVec.ofNat 128 m.toNat).toNat ≤
      (widen j * BitVec.ofNat 128 m.toNat + widen s * 10000).toNat := by
    rw [htotal, hjunior]
    omega
  have hfee : (widen f).toNat < 2 ^ 64 := by rw [toNat_widen]; exact hf
  have hshare := juniorShare_eq hfee (toNat_pos hw) hle
  have hbound := share_le (widen f).toNat hle
  rw [← hshare, toNat_widen] at hbound
  rw [checkedShare_eq hfee (toNat_pos hw) hle]
  generalize juniorShare _ _ _ = share at *
  have hnarrow : narrow share.toNat = some (UInt64.ofNat share.toNat) := if_pos (by omega)
  have hfits : (UInt64.ofNat share.toNat).toNat ≤ f.toNat := by
    rw [toNat_ofNat (by omega)]
    exact hbound
  have hsub : checkedSub f (UInt64.ofNat share.toNat) =
      some (f - UInt64.ofNat share.toNat) := if_pos hfits
  rw [wideLesser, if_pos (by rw [toNat_widen]; exact hbound), saturatingSub, if_pos hfits]
  show ((narrow share.toNat).bind fun juniorFee =>
    (checkedSub f juniorFee).bind fun seniorFee => some (juniorFee, seniorFee)) = _
  rw [hnarrow, Option.bind_some, hsub, Option.bind_some]

/-- With a fee and a weight the last guard is passed. -/
theorem distributeFees_some {j s f : UInt64} {m : UInt16} (hfee : f.toNat ≠ 0)
    (hweight : j.toNat * m.toNat + s.toNat * 10000 ≠ 0) :
    ∃ fee, distributeFees j s m f = (fee, saturatingSub f fee) := by
  have htotal := toNat_totalWeight j s m
  have h0 : (0 : U128).toNat = 0 := rfl
  have hf : f ≠ 0 := by rwa [Ne, eq_zero_iff]
  have hb : widen j + widen s ≠ 0 := by
    intro h
    obtain ⟨hj, hs⟩ := total_zero h
    rw [hj, hs] at hweight
    omega
  have hw : widen j * BitVec.ofNat 128 m.toNat + widen s * 10000 ≠ 0 := by
    intro h
    rw [h, h0] at htotal
    omega
  unfold distributeFees
  simp only [if_neg hf, if_neg hb, if_neg hw]
  exact ⟨_, rfl⟩

theorem distributeFees_none {j s f : UInt64} {m : UInt16}
    (h : f.toNat = 0 ∨ j.toNat * m.toNat + s.toNat * 10000 = 0) :
    distributeFees j s m f = (0, 0) := by
  unfold distributeFees
  by_cases hf : f = 0
  · rw [if_pos hf]
  rw [if_neg hf]
  by_cases hb : widen j + widen s = 0
  · simp only [if_pos hb]
  have hw : widen j * BitVec.ofNat 128 m.toNat + widen s * 10000 = 0 := by
    apply BitVec.eq_of_toNat_eq
    rw [toNat_totalWeight]
    rw [eq_zero_iff] at hf
    exact h.resolve_left hf
  simp only [if_neg hb, if_pos hw]

/-- The fee split at every magnitude: no operation out of range, the floor of the junior
share and the rest to the senior tranche, nothing when there is no fee or no weight, and one
value from both branches. -/
theorem fee_split_exact (j s : UInt64) (m : UInt16) (f : UInt64) :
    checkedDistributeFees j s m f = some (distributeFees j s m f) ∧
    let total := j.toNat * m.toNat + s.toNat * 10000
    let juniorWeight := widen j * BitVec.ofNat 128 m.toNat
    let totalWeight := juniorWeight + widen s * 10000
    (f.toNat ≠ 0 → total ≠ 0 →
      (distributeFees j s m f).1.toNat = f.toNat * j.toNat * m.toNat / total ∧
      (distributeFees j s m f).1.toNat + (distributeFees j s m f).2.toNat = f.toNat) ∧
    (f.toNat = 0 ∨ total = 0 → distributeFees j s m f = (0, 0)) ∧
    (total ≠ 0 → ∃ share, splitShare (widen f) juniorWeight totalWeight = some share ∧
      share.toNat = f.toNat * j.toNat * m.toNat / total ∧
      ∀ x, fastShare (widen f) juniorWeight totalWeight = some x → x = share) := by
  refine ⟨checkedDistributeFees_eq j s m f, ?_⟩
  intro total juniorWeight totalWeight
  have hf := f.toNat_lt
  obtain ⟨hjunior, -⟩ := toNat_juniorWeight j m
  replace hjunior : juniorWeight.toNat = j.toNat * m.toNat := hjunior
  have htotal : totalWeight.toNat = total := toNat_totalWeight j s m
  have hfloor := distributeFees_junior j s m f
  rw [← Nat.mul_assoc] at hfloor
  refine ⟨?_, ?_, ?_⟩
  · intro hfee hweight
    refine ⟨hfloor, ?_⟩
    have hle := share_le f.toNat (show j.toNat * m.toNat ≤ total from Nat.le_add_right _ _)
    rw [← Nat.mul_assoc, ← hfloor] at hle
    obtain ⟨fee, hsplit⟩ := distributeFees_some hfee hweight
    rw [hsplit] at hle ⊢
    change fee.toNat ≤ f.toNat at hle
    show fee.toNat + (saturatingSub f fee).toNat = f.toNat
    rw [toNat_saturatingSub]
    omega
  · intro hnone
    exact distributeFees_none hnone
  · intro hweight
    have hle : juniorWeight.toNat ≤ totalWeight.toNat := by
      rw [hjunior, htotal]
      exact Nat.le_add_right _ _
    have hfee : (widen f).toNat < 2 ^ 64 := by rw [toNat_widen]; exact hf
    obtain ⟨share, hshare, hvalue⟩ :=
      splitShare_eq hfee (show 0 < totalWeight.toNat by omega) hle
    refine ⟨share, hshare, ?_, ?_⟩
    · rw [hvalue, toNat_widen, hjunior, htotal, Nat.mul_assoc]
    · intro x hx
      exact BitVec.eq_of_toNat_eq ((fastShare_eq hx).trans hvalue.symm)

end Math
end PercolatorStake
