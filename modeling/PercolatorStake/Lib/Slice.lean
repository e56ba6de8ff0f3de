import PercolatorStake.Lib.Bytes

/-!
# Slices of a byte string

A parser takes fixed slices of its input.  A slice out of range stops the program,
which is not the same as rejecting the input, so it has an outcome of its own.

A field is the number in a slice.  Fields laid end to end and read back are what they
were, and the other way round.
-/

namespace Bytes

variable {ε : Type}

/-- A program over byte strings: it stops (`none`), rejects, or returns. -/
abbrev Parse (ε : Type) := ExceptT ε Option

/-- `s[lo..hi]`. -/
def slice (s : List UInt8) (lo hi : Nat) : Parse ε (List UInt8) :=
  if lo ≤ hi ∧ hi ≤ s.length then pure ((s.drop lo).take (hi - lo)) else .mk none

/-- `s[i]`. -/
def index (s : List UInt8) (i : Nat) : Parse ε UInt8 :=
  match s[i]? with
  | some b => pure b
  | none => .mk none

/-- `s.try_into().map_err(|_| e)?` for an array of `n` bytes. -/
def tryInto (n : Nat) (e : ε) (s : List UInt8) : Parse ε (List UInt8) :=
  if s.length = n then pure s else throw e

/-- The number in the `n` bytes from `lo`. -/
def field (s : List UInt8) (lo n : Nat) : Nat := decodeLe ((s.drop lo).take n)

section

variable {s t : List UInt8} {lo hi n x : Nat}

theorem slice_eq (h : lo ≤ hi) (hs : hi ≤ s.length) :
    slice s lo hi = (pure ((s.drop lo).take (hi - lo)) : Parse ε _) := if_pos ⟨h, hs⟩

theorem index_eq (h : n < s.length) : index s n = (pure (s.getD n 0) : Parse ε _) := by
  unfold index
  rw [List.getElem?_eq_getElem h, List.getD_eq_getElem?_getD, List.getElem?_eq_getElem h]
  rfl

theorem tryInto_eq {e : ε} (h : s.length = n) : tryInto n e s = pure s := if_pos h

theorem length_take_drop (h : lo + n ≤ s.length) : ((s.drop lo).take n).length = n := by
  rw [List.length_take, List.length_drop]
  omega

theorem decodeLe_lt (s : List UInt8) : decodeLe s < 256 ^ s.length := by
  induction s with
  | nil => exact Nat.one_pos
  | cons b s ih =>
    have hb := b.toNat_lt
    rw [decodeLe, List.length_cons, Nat.pow_succ]
    omega

theorem field_lt (h : lo + n ≤ s.length) : field s lo n < 256 ^ n := by
  have := decodeLe_lt ((s.drop lo).take n)
  rwa [length_take_drop h] at this

/-- A number encoded from a string is that string again. -/
theorem encodeLe_decodeLe (s : List UInt8) : encodeLe s.length (decodeLe s) = s := by
  induction s with
  | nil => rfl
  | cons b s ih =>
    have hb := b.toNat_lt
    have hhead : UInt8.ofNat (b.toNat + 256 * decodeLe s) = b := by
      rw [← UInt8.toNat_inj, UInt8.toNat_ofNat']
      omega
    have htail : (b.toNat + 256 * decodeLe s) / 256 = decodeLe s := by omega
    rw [List.length_cons, decodeLe, encodeLe, hhead, htail, ih]

theorem encodeLe_field (h : lo + n ≤ s.length) :
    encodeLe n (field s lo n) = (s.drop lo).take n := by
  have := encodeLe_decodeLe ((s.drop lo).take n)
  rwa [length_take_drop h] at this

/-- The field at the front. -/
theorem field_encodeLe (h : x < 256 ^ n) : field (encodeLe n x ++ t) 0 n = x := by
  have hlen : (encodeLe n x).length = n := length_encodeLe n x
  unfold field
  rw [List.drop_zero, List.take_append_of_le_length hlen.ge, List.take_of_length_le hlen.le,
    decodeLe_encodeLe, Nat.mod_eq_of_lt h]

/-- A field within the first part. -/
theorem field_append_left (h : lo + n ≤ s.length) : field (s ++ t) lo n = field s lo n := by
  unfold field
  rw [List.drop_append_of_le_length (by omega), List.take_append_of_le_length]
  rw [List.length_drop]
  omega

/-- A field past the first part. -/
theorem field_append (h : s.length ≤ lo) : field (s ++ t) lo n = field t (lo - s.length) n := by
  unfold field
  rw [List.drop_append, List.drop_eq_nil_of_le h, List.nil_append]

end

end Bytes
