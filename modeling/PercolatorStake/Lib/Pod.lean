import PercolatorStake.Lib.Slice

/-!
# Plain old data

A type whose values are the byte strings of one length.  A record of plain data is laid
out field by field, and a field begins where the fields before it end.  That has to be a
multiple of its alignment, so a record with a hidden gap cannot be built.

A record at the front of a buffer is read and written in place.
-/

namespace Bytes

/-! ## Spans -/

/-- The `n` bytes from `off`. -/
def span (s : List UInt8) (off n : Nat) : List UInt8 := (s.drop off).take n

section

variable {s t : List UInt8} {off n : Nat}

theorem span_append_left (h : off + n ≤ s.length) : span (s ++ t) off n = span s off n := by
  rw [span, List.drop_append_of_le_length (by omega), List.take_append_of_le_length, span]
  rw [List.length_drop]
  omega

theorem span_append_right (h : s.length ≤ off) :
    span (s ++ t) off n = span t (off - s.length) n := by
  rw [span, List.drop_append, List.drop_eq_nil_of_le h, List.nil_append, span]

theorem span_self (h : s.length = n) : span s 0 n = s := by
  rw [span, List.drop_zero, List.take_of_length_le h.le]

theorem span_succ (h : off < s.length) : span s off (n + 1) =
    s.getD off 0 :: span s (off + 1) n := by
  rw [span, span, List.drop_eq_getElem_cons h, List.take_succ_cons, List.getD_eq_getElem s 0 h]

/-- The bytes of a field in an array. -/
theorem encodeLe_readLe {k : Nat} {v : Vector UInt8 k} (h : off + n ≤ k) :
    encodeLe n (readLe v off n) = span v.toList off n := by
  induction n generalizing off with
  | zero => rfl
  | succ n ih =>
    have hoff : off < k := by omega
    have hhead : v.toList.getD off 0 = byteAt v off := by
      rw [byteAt, dif_pos hoff, List.getD_eq_getElem _ _ (by rwa [Vector.length_toList]),
        Vector.getElem_toList]
    have hb := (byteAt v off).toNat_lt
    rw [span_succ (by rwa [Vector.length_toList]), ← ih (by omega), readLe, encodeLe, hhead]
    congr 1
    · rw [← UInt8.toNat_inj, UInt8.toNat_ofNat']
      omega
    · congr 1
      omega

/-- A field in an array is a number exactly if its bytes are those of the number. -/
theorem readLe_eq_iff {k : Nat} {v : Vector UInt8 k} (h : off + s.length ≤ k) :
    readLe v off s.length = decodeLe s ↔ span v.toList off s.length = s := by
  rw [← encodeLe_readLe h]
  constructor
  · intro he
    rw [he, encodeLe_decodeLe]
  · intro he
    have hd := congrArg decodeLe he
    rwa [decodeLe_encodeLe, Nat.mod_eq_of_lt (readLe_lt v off s.length)] at hd

theorem span_one {k : Nat} {v : Vector UInt8 k} (h : off < k) :
    span v.toList off 1 = [byteAt v off] := by
  rw [span_succ (by rwa [Vector.length_toList]), List.getD_eq_getElem _ _
    (by rwa [Vector.length_toList]), Vector.getElem_toList, byteAt, dif_pos h]
  rfl

end

/-! ## Plain data -/

structure Pod (α : Type) where
  size : Nat
  align : Nat
  encode : α → List UInt8
  decode : List UInt8 → α
  length_encode : ∀ x, (encode x).length = size
  decode_encode : ∀ x, decode (encode x) = x
  encode_decode : ∀ s, s.length = size → encode (decode s) = s

namespace Pod

variable {α β : Type}

/-! ## Fields -/

def byte : Pod UInt8 where
  size := 1
  align := 1
  encode b := [b]
  decode s := s.getD 0 0
  length_encode _ := rfl
  decode_encode _ := rfl
  encode_decode s h := by
    obtain ⟨b, rfl⟩ := List.length_eq_one_iff.mp h
    rfl

/-- A little-endian word. -/
def word : Pod UInt64 where
  size := 8
  align := 8
  encode x := encodeLe 8 x.toNat
  decode s := UInt64.ofNat (decodeLe s)
  length_encode _ := length_encodeLe ..
  decode_encode x := by
    have hlt : x.toNat < 256 ^ 8 := x.toNat_lt
    rw [decodeLe_encodeLe, Nat.mod_eq_of_lt hlt, UInt64.ofNat_toNat]
  encode_decode s h := by
    have hlt : decodeLe s < 2 ^ 64 := by
      have := decodeLe_lt s
      rwa [h] at this
    rw [UInt64.toNat_ofNat_of_lt' hlt, ← h, encodeLe_decodeLe]

def array (n : Nat) : Pod (Vector UInt8 n) where
  size := n
  align := 1
  encode v := v.toList
  decode s := Vector.ofFn fun i => s.getD i 0
  length_encode v := Vector.length_toList
  decode_encode v := by
    ext i hi
    simp
  encode_decode s h := by
    subst h
    apply List.ext_getElem
    · simp
    · intro i h1 h2
      simp

/-! ## Records -/

/-- Two types side by side. -/
def pair (a : Pod α) (b : Pod β) : Pod (α × β) where
  size := a.size + b.size
  align := max a.align b.align
  encode x := a.encode x.1 ++ b.encode x.2
  decode s := (a.decode (s.take a.size), b.decode (s.drop a.size))
  length_encode x := by rw [List.length_append, a.length_encode, b.length_encode]
  decode_encode x := by
    have ha := a.length_encode x.1
    rw [List.take_left' ha, List.drop_left' ha, a.decode_encode, b.decode_encode]
  encode_decode s h := by
    have ha : (s.take a.size).length = a.size := by
      rw [List.length_take]
      omega
    have hb : (s.drop a.size).length = b.size := by
      rw [List.length_drop]
      omega
    rw [a.encode_decode _ ha, b.encode_decode _ hb, List.take_append_drop]

section

variable {a : Pod α} {b : Pod β} {x : α × β} {off n : Nat}

theorem span_pair_left (h : off + n ≤ a.size) :
    span ((pair a b).encode x) off n = span (a.encode x.1) off n :=
  span_append_left (by rwa [a.length_encode])

theorem span_pair_right (h : a.size ≤ off) :
    span ((pair a b).encode x) off n = span (b.encode x.2) (off - a.size) n := by
  have hlen := a.length_encode x.1
  show span (a.encode x.1 ++ b.encode x.2) off n = _
  rw [span_append_right (by omega), hlen]

end

/-- The fields of a record from the offset `off` on. -/
structure Fields (off : Nat) (α : Type) where
  pod : Pod α

namespace Fields

variable {off : Nat}

/-- The first field.  At the start everything is aligned. -/
def first (a : Pod α) (b : Fields a.size β) : Fields 0 (α × β) := ⟨pair a b.pod⟩

def last (a : Pod α) (_ : a.align ∣ off) : Fields off α := ⟨a⟩

def cons (a : Pod α) (_ : a.align ∣ off) (b : Fields (off + a.size) β) : Fields off (α × β) :=
  ⟨pair a b.pod⟩

/-- The finished record: it ends on its alignment, and its fields get names. -/
def record (a : Fields 0 α) (_ : a.pod.align ∣ a.pod.size) (e : α ≃ β) : Pod β where
  size := a.pod.size
  align := a.pod.align
  encode x := a.pod.encode (e.symm x)
  decode s := e (a.pod.decode s)
  length_encode _ := a.pod.length_encode _
  decode_encode x := by rw [a.pod.decode_encode, Equiv.apply_symm_apply]
  encode_decode s h := by rw [Equiv.symm_apply_apply, a.pod.encode_decode s h]

end Fields

/-! ## In place -/

section

variable (a : Pod α)

/-- The record at the front of a buffer. -/
def read (data : List UInt8) : α := a.decode (data.take a.size)

/-- The buffer with the record at its front replaced. -/
def write (data : List UInt8) (x : α) : List UInt8 := a.encode x ++ data.drop a.size

variable {a} {data : List UInt8} {x y : α}

theorem length_write (h : a.size ≤ data.length) : (a.write data x).length = data.length := by
  rw [write, List.length_append, a.length_encode, List.length_drop]
  omega

@[simp] theorem read_write : a.read (a.write data x) = x := by
  rw [read, write, List.take_left' (a.length_encode x), a.decode_encode]

@[simp] theorem read_encode : a.read (a.encode x) = x := by
  rw [read, List.take_of_length_le (a.length_encode x).le, a.decode_encode]

theorem write_read (h : a.size ≤ data.length) : a.write data (a.read data) = data := by
  have hlen : (data.take a.size).length = a.size := by
    rw [List.length_take]
    omega
  rw [write, read, a.encode_decode _ hlen, List.take_append_drop]

@[simp] theorem write_write : a.write (a.write data x) y = a.write data y := by
  rw [write, write, write, List.drop_left' (a.length_encode x)]

/-- What is behind the record stays. -/
@[simp] theorem drop_write : (a.write data x).drop a.size = data.drop a.size :=
  List.drop_left' (a.length_encode x)

/-- The record at the front changed by `f`. -/
def update (a : Pod α) (data : List UInt8) (f : α → α) : List UInt8 :=
  a.write data (f (a.read data))

variable {f g : α → α}

@[simp] theorem read_update : a.read (a.update data f) = f (a.read data) := read_write

@[simp] theorem update_update : a.update (a.update data f) g = a.update data (g ∘ f) := by
  rw [update, read_update, update, write_write, update, Function.comp_apply]

@[simp] theorem drop_update : (a.update data f).drop a.size = data.drop a.size := drop_write

theorem length_update (h : a.size ≤ data.length) : (a.update data f).length = data.length :=
  length_write h

theorem update_id (h : a.size ≤ data.length) : a.update data id = data := write_read h

/-- What stands in a record written to a buffer. -/
theorem span_write {off n : Nat} (h : off + n ≤ a.size) :
    span (a.write data x) off n = span (a.encode x) off n :=
  span_append_left (by rwa [a.length_encode])

/-- What stands in a record read from a buffer. -/
theorem span_read {off n : Nat} (h : off + n ≤ a.size) (hdata : a.size ≤ data.length) :
    span (a.encode (a.read data)) off n = span data off n := by
  have hwrite : span (a.write data (a.read data)) off n = span (a.encode (a.read data)) off n :=
    span_write h
  rw [← hwrite, write_read hdata]

end

end Pod

end Bytes
