import Mathlib

/-!
# Little-endian fields of a byte array

A fixed-size byte array read and written through fields, each an offset and a
length.  Two fields that do not overlap do not see each other's writes, and a
field reads back what was last written to it, up to its width.  A record packed
into such an array is then as good as a record of separate fields.

`encodeLe` and `decodeLe` are the same encoding for lists of bytes, which is how
a value travels on a wire.
-/

namespace Bytes

variable {n : Nat}

/-- Byte `i`, or zero past the end. -/
def byteAt (v : Vector UInt8 n) (i : Nat) : UInt8 :=
  if h : i < n then v[i] else 0

def setByte (v : Vector UInt8 n) (i : Nat) (b : UInt8) : Vector UInt8 n :=
  if h : i < n then v.set i b else v

/-- The number in the `len` bytes from `off`, least significant byte first. -/
def readLe (v : Vector UInt8 n) : Nat → Nat → Nat
  | _, 0 => 0
  | off, len + 1 => (byteAt v off).toNat + 256 * readLe v (off + 1) len

/-- Store the low `len` bytes of `x` from `off` on. -/
def writeLe (v : Vector UInt8 n) : Nat → Nat → Nat → Vector UInt8 n
  | _, 0, _ => v
  | off, len + 1, x => writeLe (setByte v off (UInt8.ofNat x)) (off + 1) len (x / 256)

theorem byteAt_setByte {v : Vector UInt8 n} {i j : Nat} {b : UInt8} (h : i < n) :
    byteAt (setByte v i b) j = if i = j then b else byteAt v j := by
  unfold byteAt setByte
  by_cases hj : j < n
  · simp only [h, hj, dif_pos, Vector.getElem_set]
  · have hij : i ≠ j := by omega
    simp [hj, hij]

theorem byteAt_setByte_self {v : Vector UInt8 n} {i : Nat} {b : UInt8} (h : i < n) :
    byteAt (setByte v i b) i = b := by
  rw [byteAt_setByte h, if_pos rfl]

theorem byteAt_setByte_ne {v : Vector UInt8 n} {i j : Nat} {b : UInt8} (h : i < n)
    (hij : i ≠ j) : byteAt (setByte v i b) j = byteAt v j := by
  rw [byteAt_setByte h, if_neg hij]

theorem byteAt_writeLe_outside (len : Nat) :
    ∀ {v : Vector UInt8 n} {off x j : Nat}, off + len ≤ n → (j < off ∨ off + len ≤ j) →
      byteAt (writeLe v off len x) j = byteAt v j := by
  induction len with
  | zero => intros; rfl
  | succ len ih =>
    intro v off x j hn hj
    rw [writeLe, ih (by omega) (by omega), byteAt_setByte_ne (by omega) (by omega)]

/-- A field is untouched by a write to a disjoint one. -/
theorem readLe_writeLe_of_disjoint {v : Vector UInt8 n} {o₂ l₂ x : Nat} (hn : o₂ + l₂ ≤ n)
    {o₁ l₁ : Nat} (h : o₁ + l₁ ≤ o₂ ∨ o₂ + l₂ ≤ o₁) :
    readLe (writeLe v o₂ l₂ x) o₁ l₁ = readLe v o₁ l₁ := by
  induction l₁ generalizing o₁ with
  | zero => rfl
  | succ l ih => rw [readLe, readLe, ih (by omega), byteAt_writeLe_outside l₂ hn (by omega)]

theorem readLe_setByte_of_disjoint {v : Vector UInt8 n} {i : Nat} {b : UInt8} (hn : i < n)
    {off len : Nat} (h : off + len ≤ i ∨ i < off) :
    readLe (setByte v i b) off len = readLe v off len := by
  induction len generalizing off with
  | zero => rfl
  | succ l ih => rw [readLe, readLe, ih (by omega), byteAt_setByte_ne hn (by omega)]

/-- A field depends on its own bytes only. -/
theorem readLe_congr {v v' : Vector UInt8 n} {off len : Nat}
    (h : ∀ i, off ≤ i → i < off + len → byteAt v i = byteAt v' i) :
    readLe v off len = readLe v' off len := by
  induction len generalizing off with
  | zero => rfl
  | succ l ih =>
    rw [readLe, readLe, h off le_rfl (by omega), ih]
    intro i hlo hhi
    exact h i (by omega) (by omega)

/-- A field reads back what was written to it, modulo its width. -/
theorem readLe_writeLe (len : Nat) : ∀ {v : Vector UInt8 n} {off x : Nat}, off + len ≤ n →
    readLe (writeLe v off len x) off len = x % 256 ^ len := by
  induction len with
  | zero => intro v off x _; simp [readLe, Nat.mod_one]
  | succ l ih =>
    intro v off x h
    rw [writeLe, readLe, ih (by omega), byteAt_writeLe_outside l (by omega) (by omega),
      byteAt_setByte_self (by omega), Nat.pow_succ, Nat.mul_comm (256 ^ l) 256, Nat.mod_mul]
    simp

theorem readLe_lt (v : Vector UInt8 n) (off len : Nat) : readLe v off len < 256 ^ len := by
  induction len generalizing off with
  | zero => simp [readLe]
  | succ l ih =>
    have hb := (byteAt v off).toNat_lt
    have hr := ih (off + 1)
    rw [readLe, Nat.pow_succ]
    omega

/-! ## Byte lists -/

/-- The low `len` bytes of `x`, least significant first. -/
def encodeLe : Nat → Nat → List UInt8
  | 0, _ => []
  | len + 1, x => UInt8.ofNat x :: encodeLe len (x / 256)

def decodeLe : List UInt8 → Nat
  | [] => 0
  | b :: bs => b.toNat + 256 * decodeLe bs

@[simp] theorem length_encodeLe (len x : Nat) : (encodeLe len x).length = len := by
  induction len generalizing x with
  | zero => rfl
  | succ l ih => rw [encodeLe, List.length_cons, ih]

theorem decodeLe_encodeLe (len x : Nat) : decodeLe (encodeLe len x) = x % 256 ^ len := by
  induction len generalizing x with
  | zero => simp [encodeLe, decodeLe, Nat.mod_one]
  | succ l ih =>
    rw [encodeLe, decodeLe, ih, Nat.pow_succ, Nat.mul_comm (256 ^ l) 256, Nat.mod_mul]
    simp

end Bytes
