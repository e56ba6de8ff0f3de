import PercolatorStake.Lib.Slice
import PercolatorStake.Error
import PercolatorStake.Instruction
import PercolatorStake.State

/-!
# Instruction data

A tag byte, and a payload whose length the tag fixes.  The parser takes exactly these
strings, and what it does not read back is a flag other than zero or one and the value
of an option that is absent.
-/

namespace PercolatorStake

open Bytes

/-! ## The parser -/

abbrev Unpack (α : Type) := Parse ProgramError α

/-- `if rest.len() != n { return Err(InvalidInstructionData) }`. -/
def requireLen (rest : List UInt8) (n : Nat) : Unpack Unit :=
  if rest.length ≠ n then throw .invalidInstructionData else pure ()

/-- `uN::from_le_bytes(rest[lo..hi].try_into().map_err(..)?)`, of `n` bytes. -/
def leBytes (rest : List UInt8) (lo hi n : Nat) : Unpack Nat := do
  let s ← slice rest lo hi
  let s ← tryInto n .invalidInstructionData s
  pure (decodeLe s)

def u16At (rest : List UInt8) (lo hi : Nat) : Unpack UInt16 := do
  let x ← leBytes rest lo hi 2
  pure (UInt16.ofNat x)

def u64At (rest : List UInt8) (lo hi : Nat) : Unpack UInt64 := do
  let x ← leBytes rest lo hi 8
  pure (UInt64.ofNat x)

def u128At (rest : List UInt8) (lo hi : Nat) : Unpack (BitVec 128) := do
  let x ← leBytes rest lo hi 16
  pure (BitVec.ofNat 128 x)

/-- A slice of 32 bytes as an address. -/
def pubkeyAt (rest : List UInt8) (lo hi : Nat) : Unpack Pubkey := do
  let s ← slice rest lo hi
  let s ← tryInto 32 .invalidInstructionData s
  pure (Vector.ofFn fun i : Fin 32 => s.getD i 0)

def StakeInstruction.unpack (data : List UInt8) : Unpack StakeInstruction :=
  match data with
  | [] => throw .invalidInstructionData
  | tag :: rest =>
    match tag with
    | 0 => do
      requireLen rest 16
      let cooldownSlots ← u64At rest 0 8
      let depositCap ← u64At rest 8 16
      pure (.initPool cooldownSlots depositCap)
    | 1 => do
      requireLen rest 8
      let amount ← u64At rest 0 8
      pure (.deposit amount)
    | 2 => do
      requireLen rest 8
      let lpAmount ← u64At rest 0 8
      pure (.withdraw lpAmount)
    | 3 => do
      requireLen rest 8
      let amount ← u64At rest 0 8
      pure (.flushToInsurance amount)
    | 4 => do
      requireLen rest 18
      let hasCooldown ← index rest 0
      let cooldown ← u64At rest 1 9
      let hasCap ← index rest 9
      let cap ← u64At rest 10 18
      pure (.updateConfig (if hasCooldown ≠ 0 then some cooldown else none)
        (if hasCap ≠ 0 then some cap else none))
    | 5 => do
      requireLen rest 32
      let newAdmin ← pubkeyAt rest 0 32
      pure (.proposeAdmin newAdmin)
    | 6 => do
      requireLen rest 0
      pure .acceptAdmin
    | 7 => do
      requireLen rest 8
      let newCooldownSlots ← u64At rest 0 8
      pure (.proposeCooldownIncrease newCooldownSlots)
    | 8 => do
      requireLen rest 0
      pure .commitCooldownIncrease
    | 9 => do
      requireLen rest 0
      pure .cancelCooldownIncrease
    | 19 => do
      requireLen rest 0
      pure .bindInsuranceAuthority
    | 20 => do
      requireLen rest 0
      pure .rotateInsuranceAuthority
    | 21 => do
      requireLen rest 0
      pure .burnAssetAdmin
    | 22 => do
      requireLen rest 0
      pure .rotateInsuranceOperator
    | 23 => do
      requireLen rest 8
      let amount ← u64At rest 0 8
      pure (.recoverFlushedInsurance amount)
    | 10 => do
      requireLen rest 8
      let amount ← u64At rest 0 8
      pure (.returnInsurance amount)
    | 12 => do
      requireLen rest 0
      pure .accrueFees
    | 13 => do
      requireLen rest 16
      let cooldownSlots ← u64At rest 0 8
      let depositCap ← u64At rest 8 16
      pure (.initTradingPool cooldownSlots depositCap)
    | 14 => do
      requireLen rest 3
      let enabled ← index rest 0
      let hwmFloorBps ← u16At rest 1 3
      pure (.adminSetHwmConfig (enabled != 0) hwmFloorBps)
    | 15 => do
      requireLen rest 2
      let juniorFeeMultBps ← u16At rest 0 2
      pure (.adminSetTrancheConfig juniorFeeMultBps)
    | 16 => do
      requireLen rest 8
      let amount ← u64At rest 0 8
      pure (.depositJunior amount)
    | 18 => do
      requireLen rest 0
      pure .setMarketResolved
    | 24 => do
      requireLen rest 0
      pure .adminResolveMarket
    | 25 => do
      requireLen rest 6
      let creatorShareBps ← u16At rest 0 2
      let lpShareBps ← u16At rest 2 4
      let insuranceShareBps ← u16At rest 4 6
      pure (.adminUpdateFeeSplit creatorShareBps lpShareBps insuranceShareBps)
    | 26 => do
      requireLen rest 16
      let maintenanceFeePerSlot ← u128At rest 0 16
      pure (.adminUpdateMaintenanceFeePerSlot maintenanceFeePerSlot)
    | 27 => do
      requireLen rest 6
      let domain ← u16At rest 0 2
      let feeBps ← u16At rest 2 4
      let insuranceShareBps ← u16At rest 4 6
      pure (.adminUpdateBackingFeePolicy domain feeBps insuranceShareBps)
    | 28 => do
      requireLen rest 8
      let tradeFeeBaseBps ← u64At rest 0 8
      pure (.adminUpdateTradeFeePolicy tradeFeeBaseBps)
    | _ => throw .invalidInstructionData

/-! ## The grammar -/

def word (s : List UInt8) (o : Nat) : UInt64 := UInt64.ofNat (field s o 8)

def half (s : List UInt8) (o : Nat) : UInt16 := UInt16.ofNat (field s o 2)

def readConfig (s : List UInt8) : StakeInstruction :=
  .updateConfig (if s.getD 0 0 ≠ 0 then some (word s 1) else none)
    (if s.getD 9 0 ≠ 0 then some (word s 10) else none)

def readHwm (s : List UInt8) : StakeInstruction := .adminSetHwmConfig (s.getD 0 0 != 0) (half s 1)

/-- The length of the payload of a tag, and how it reads. -/
def grammar : UInt8 → Option (Nat × (List UInt8 → StakeInstruction))
  | 0 => some (16, fun s => .initPool (word s 0) (word s 8))
  | 1 => some (8, fun s => .deposit (word s 0))
  | 2 => some (8, fun s => .withdraw (word s 0))
  | 3 => some (8, fun s => .flushToInsurance (word s 0))
  | 4 => some (18, readConfig)
  | 5 => some (32, fun s => .proposeAdmin (Vector.ofFn fun i : Fin 32 => s.getD i 0))
  | 6 => some (0, fun _ => .acceptAdmin)
  | 7 => some (8, fun s => .proposeCooldownIncrease (word s 0))
  | 8 => some (0, fun _ => .commitCooldownIncrease)
  | 9 => some (0, fun _ => .cancelCooldownIncrease)
  | 10 => some (8, fun s => .returnInsurance (word s 0))
  | 12 => some (0, fun _ => .accrueFees)
  | 13 => some (16, fun s => .initTradingPool (word s 0) (word s 8))
  | 14 => some (3, readHwm)
  | 15 => some (2, fun s => .adminSetTrancheConfig (half s 0))
  | 16 => some (8, fun s => .depositJunior (word s 0))
  | 18 => some (0, fun _ => .setMarketResolved)
  | 19 => some (0, fun _ => .bindInsuranceAuthority)
  | 20 => some (0, fun _ => .rotateInsuranceAuthority)
  | 21 => some (0, fun _ => .burnAssetAdmin)
  | 22 => some (0, fun _ => .rotateInsuranceOperator)
  | 23 => some (8, fun s => .recoverFlushedInsurance (word s 0))
  | 24 => some (0, fun _ => .adminResolveMarket)
  | 25 => some (6, fun s => .adminUpdateFeeSplit (half s 0) (half s 2) (half s 4))
  | 26 => some (16, fun s => .adminUpdateMaintenanceFeePerSlot (BitVec.ofNat 128 (field s 0 16)))
  | 27 => some (6, fun s => .adminUpdateBackingFeePolicy (half s 0) (half s 2) (half s 4))
  | 28 => some (8, fun s => .adminUpdateTradeFeePolicy (word s 0))
  | _ => none

section

variable {rest : List UInt8} {lo hi n : Nat} {i : StakeInstruction}

theorem leBytes_eq (hn : hi = lo + n) (hs : hi ≤ rest.length) :
    leBytes rest lo hi n = pure (field rest lo n) := by
  subst hn
  unfold leBytes
  rw [slice_eq (Nat.le_add_right lo n) hs, Nat.add_sub_cancel_left, pure_bind,
    tryInto_eq (length_take_drop hs), pure_bind]
  rfl

theorem u16At_eq (hn : hi = lo + 2) (hs : hi ≤ rest.length) :
    u16At rest lo hi = pure (half rest lo) := by
  rw [u16At, leBytes_eq hn hs, pure_bind]
  rfl

theorem u64At_eq (hn : hi = lo + 8) (hs : hi ≤ rest.length) :
    u64At rest lo hi = pure (word rest lo) := by
  rw [u64At, leBytes_eq hn hs, pure_bind]
  rfl

theorem u128At_eq (hn : hi = lo + 16) (hs : hi ≤ rest.length) :
    u128At rest lo hi = pure (BitVec.ofNat 128 (field rest lo 16)) := by
  rw [u128At, leBytes_eq hn hs, pure_bind]

theorem pubkeyAt_eq (hs : rest.length = 32) :
    pubkeyAt rest 0 32 = pure (Vector.ofFn fun i : Fin 32 => rest.getD i 0) := by
  unfold pubkeyAt
  rw [slice_eq (Nat.zero_le 32) hs.ge, pure_bind, List.drop_zero, List.take_of_length_le (by omega),
    tryInto_eq hs, pure_bind]

/-- An arm of the parser: past the length check nothing fails. -/
theorem requireLen_bind {body : Unpack StakeInstruction} (h : rest.length = n → body = pure i) :
    (requireLen rest n >>= fun _ => body) =
      if rest.length = n then pure i else throw .invalidInstructionData := by
  unfold requireLen
  by_cases hn : rest.length = n
  · rw [if_neg (not_not.mpr hn), pure_bind, if_pos hn, h hn]
  · rw [if_pos hn, if_neg hn]
    rfl

end

/-- The parser reads what the grammar says and rejects everything else. -/
theorem unpack_cons (tag : UInt8) (rest : List UInt8) :
    StakeInstruction.unpack (tag :: rest) =
      match grammar tag with
      | some (n, read) =>
        if rest.length = n then pure (read rest) else throw .invalidInstructionData
      | none => throw .invalidInstructionData := by
  unfold StakeInstruction.unpack
  simp only
  split
  case h_28 => simp only [grammar, *]
  all_goals
    apply requireLen_bind
    intro h
    simp (disch := omega) only [u64At_eq, u16At_eq, u128At_eq, pubkeyAt_eq, index_eq, pure_bind,
      readConfig, readHwm]

/-! ## The encoder -/

def le16 (x : UInt16) : List UInt8 := encodeLe 2 x.toNat

def le64 (x : UInt64) : List UInt8 := encodeLe 8 x.toNat

def le128 (x : BitVec 128) : List UInt8 := encodeLe 16 x.toNat

/-- A value that is absent is encoded as zero. -/
def optional (x : Option UInt64) : List UInt8 := flagByte x.isSome :: le64 (x.getD 0)

/-- The canonical encoding. -/
def StakeInstruction.encode : StakeInstruction → List UInt8
  | .initPool cooldownSlots depositCap => 0 :: (le64 cooldownSlots ++ le64 depositCap)
  | .deposit amount => 1 :: le64 amount
  | .withdraw lpAmount => 2 :: le64 lpAmount
  | .flushToInsurance amount => 3 :: le64 amount
  | .updateConfig newCooldownSlots newDepositCap =>
    4 :: (optional newCooldownSlots ++ optional newDepositCap)
  | .proposeAdmin newAdmin => 5 :: newAdmin.toList
  | .acceptAdmin => [6]
  | .proposeCooldownIncrease newCooldownSlots => 7 :: le64 newCooldownSlots
  | .commitCooldownIncrease => [8]
  | .cancelCooldownIncrease => [9]
  | .returnInsurance amount => 10 :: le64 amount
  | .accrueFees => [12]
  | .initTradingPool cooldownSlots depositCap => 13 :: (le64 cooldownSlots ++ le64 depositCap)
  | .adminSetHwmConfig enabled hwmFloorBps => 14 :: flagByte enabled :: le16 hwmFloorBps
  | .adminSetTrancheConfig juniorFeeMultBps => 15 :: le16 juniorFeeMultBps
  | .depositJunior amount => 16 :: le64 amount
  | .setMarketResolved => [18]
  | .bindInsuranceAuthority => [19]
  | .rotateInsuranceAuthority => [20]
  | .burnAssetAdmin => [21]
  | .rotateInsuranceOperator => [22]
  | .recoverFlushedInsurance amount => 23 :: le64 amount
  | .adminResolveMarket => [24]
  | .adminUpdateFeeSplit creatorShareBps lpShareBps insuranceShareBps =>
    25 :: (le16 creatorShareBps ++ (le16 lpShareBps ++ le16 insuranceShareBps))
  | .adminUpdateMaintenanceFeePerSlot maintenanceFeePerSlot => 26 :: le128 maintenanceFeePerSlot
  | .adminUpdateBackingFeePolicy domain feeBps insuranceShareBps =>
    27 :: (le16 domain ++ (le16 feeBps ++ le16 insuranceShareBps))
  | .adminUpdateTradeFeePolicy tradeFeeBaseBps => 28 :: le64 tradeFeeBaseBps

/-- The length of the payload of a tag. -/
def payloadLength : UInt8 → Option Nat
  | 0 | 13 | 26 => some 16
  | 1 | 2 | 3 | 7 | 10 | 16 | 23 | 28 => some 8
  | 4 => some 18
  | 5 => some 32
  | 25 | 27 => some 6
  | 14 => some 3
  | 15 => some 2
  | 6 | 8 | 9 | 12 | 18 | 19 | 20 | 21 | 22 | 24 => some 0
  | _ => none

section

variable {s t : List UInt8} {o : Nat} {tag : UInt8} {i : StakeInstruction}

theorem grammar_length (tag : UInt8) : (grammar tag).map Prod.fst = payloadLength tag := by
  unfold grammar
  split
  case h_28 => simp only [payloadLength, *, Option.map_none]
  all_goals rfl

theorem word_le64_append (x : UInt64) : word (le64 x ++ t) 0 = x := by
  rw [word, le64, field_encodeLe x.toNat_lt, UInt64.ofNat_toNat]

theorem word_le64 (x : UInt64) : word (le64 x) 0 = x := by
  have := word_le64_append (t := []) x
  rwa [List.append_nil] at this

theorem half_le16_append (x : UInt16) : half (le16 x ++ t) 0 = x := by
  rw [half, le16, field_encodeLe x.toNat_lt, UInt16.ofNat_toNat]

theorem half_le16 (x : UInt16) : half (le16 x) 0 = x := by
  have := half_le16_append (t := []) x
  rwa [List.append_nil] at this

theorem word_append (h : s.length ≤ o) : word (s ++ t) o = word t (o - s.length) := by
  rw [word, field_append h, word]

theorem half_append (h : s.length ≤ o) : half (s ++ t) o = half t (o - s.length) := by
  rw [half, field_append h, half]

theorem word_cons (b : UInt8) (o : Nat) : word (b :: s) (o + 1) = word s o := rfl

@[simp] theorem length_le16 (x : UInt16) : (le16 x).length = 2 := length_encodeLe 2 _

@[simp] theorem length_le64 (x : UInt64) : (le64 x).length = 8 := length_encodeLe 8 _

@[simp] theorem length_le128 (x : BitVec 128) : (le128 x).length = 16 := length_encodeLe 16 _

@[simp] theorem length_optional (x : Option UInt64) : (optional x).length = 9 := by
  simp [optional]

theorem flagByte_bne_zero (b : Bool) : (flagByte b != 0) = b := by
  cases b <;> rfl

theorem unpack_read {n : Nat} {read : List UInt8 → StakeInstruction}
    (h : grammar tag = some (n, read)) (hn : s.length = n) (hi : read s = i) :
    StakeInstruction.unpack (tag :: s) = pure i := by
  rw [unpack_cons, h]
  show (if s.length = n then _ else _) = _
  rw [if_pos hn, hi]

/-- An option is read back from its flag and its value. -/
theorem optional_read (x : Option UInt64) :
    (if flagByte x.isSome ≠ 0 then some (x.getD 0) else none) = x := by
  cases x <;> rfl

theorem field_le128 (x : BitVec 128) : BitVec.ofNat 128 (field (le128 x) 0 16) = x := by
  have h := field_encodeLe (n := 16) (t := []) x.isLt
  rw [List.append_nil] at h
  rw [le128, h, BitVec.ofNat_toNat, BitVec.setWidth_eq]

/-- Every instruction is read back from its encoding. -/
theorem unpack_encode (i : StakeInstruction) : StakeInstruction.unpack i.encode = pure i := by
  cases i with
  | updateConfig cooldown cap =>
    apply unpack_read rfl (by simp)
    have hcap : word (le64 (cooldown.getD 0) ++ optional cap) 9 = cap.getD 0 := by
      rw [word_append (by simp), length_le64, optional, word_cons, word_le64]
    have hflag : (le64 (cooldown.getD 0) ++ optional cap).getD 8 0 = flagByte cap.isSome := by
      simp [optional]
    show StakeInstruction.updateConfig
      (if flagByte cooldown.isSome ≠ 0 then
        some (word (le64 (cooldown.getD 0) ++ optional cap) 0) else none)
      (if (le64 (cooldown.getD 0) ++ optional cap).getD 8 0 ≠ 0 then
        some (word (le64 (cooldown.getD 0) ++ optional cap) 9) else none) = _
    rw [word_le64_append, hcap, hflag, optional_read, optional_read]
  | proposeAdmin newAdmin =>
    exact unpack_read rfl (by simp) (congrArg StakeInstruction.proposeAdmin (ofFn_toList newAdmin))
  | adminUpdateMaintenanceFeePerSlot fee =>
    exact unpack_read rfl (by simp)
      (congrArg StakeInstruction.adminUpdateMaintenanceFeePerSlot (field_le128 fee))
  | adminSetHwmConfig enabled bps =>
    apply unpack_read rfl (by simp)
    show StakeInstruction.adminSetHwmConfig (flagByte enabled != 0) (half (le16 bps) 0) = _
    rw [flagByte_bne_zero, half_le16]
  | _ =>
    apply unpack_read rfl (by simp)
    simp [word_le64, word_append, word_le64_append, half_le16, half_append, half_le16_append]

end

/-! ## What two encodings of one instruction share -/

/-- The bytes that are not read back: a flag that is set, beyond that it is set, and the
value of an option that is absent. -/
def StakeInstruction.Unread : StakeInstruction → Nat → Prop
  | .updateConfig cooldown cap, k =>
    k = 1 ∧ cooldown.isSome ∨ 2 ≤ k ∧ k < 10 ∧ cooldown = none ∨
      k = 10 ∧ cap.isSome ∨ 11 ≤ k ∧ cap = none
  | .adminSetHwmConfig enabled _, k => k = 1 ∧ enabled
  | _, _ => False

section

variable {s v w : List UInt8} {tag b c : UInt8} {i : StakeInstruction} {n o k : Nat}
  {read : List UInt8 → StakeInstruction}

theorem le64_word (h : o + 8 ≤ s.length) : le64 (word s o) = (s.drop o).take 8 := by
  rw [le64, word, UInt64.toNat_ofNat_of_lt' (field_lt h), encodeLe_field h]

theorem le16_half (h : o + 2 ≤ s.length) : le16 (half s o) = (s.drop o).take 2 := by
  rw [le16, half, UInt16.toNat_ofNat_of_lt' (field_lt h), encodeLe_field h]

theorem le128_field (h : s.length = 16) : le128 (BitVec.ofNat 128 (field s 0 16)) = s := by
  have hlt : field s 0 16 < 2 ^ 128 := field_lt h.ge
  rw [le128, BitVec.toNat_ofNat, Nat.mod_eq_of_lt hlt, encodeLe_field h.ge, List.drop_zero,
    List.take_of_length_le h.le]

theorem toList_ofFn (h : s.length = 32) :
    (Vector.ofFn fun i : Fin 32 => s.getD i 0).toList = s := by
  apply List.ext_getElem
  · simp [h]
  · intro j h₁ h₂
    simp [h₂]

theorem two_words (h : s.length = 16) : le64 (word s 0) ++ le64 (word s 8) = s := by
  rw [le64_word (by omega), le64_word h.ge, List.drop_zero,
    List.take_of_length_le (l := s.drop 8) (by rw [List.length_drop]; omega),
    List.take_append_drop]

theorem three_halves (h : s.length = 6) :
    le16 (half s 0) ++ (le16 (half s 2) ++ le16 (half s 4)) = s := by
  rw [le16_half (by omega), le16_half (by omega), le16_half h.ge, List.drop_zero,
    List.take_of_length_le (l := s.drop 4) (by rw [List.length_drop]; omega),
    show 4 = 2 + 2 from rfl, ← List.drop_drop, List.take_append_drop, List.take_append_drop]

theorem one_word (h : s.length = 8) : le64 (word s 0) = s := by
  rw [le64_word h.ge, List.drop_zero, List.take_of_length_le h.le]

theorem one_half (h : s.length = 2) : le16 (half s 0) = s := by
  rw [le16_half h.ge, List.drop_zero, List.take_of_length_le h.le]

theorem no_bytes (h : s.length = 0) : tag :: s = [tag] := by
  rw [List.eq_nil_of_length_eq_zero h]

/-- Away from the two instructions with flags the data is the encoding. -/
theorem encode_read (h : grammar tag = some (n, read)) (hn : s.length = n) (h4 : tag ≠ 4)
    (h14 : tag ≠ 14) : (read s).encode = tag :: s := by
  unfold grammar at h
  split at h
  all_goals cases h
  case h_5 => exact absurd rfl h4
  case h_14 => exact absurd rfl h14
  all_goals
    simp only [StakeInstruction.encode, two_words, three_halves, one_word, one_half, no_bytes,
      le128_field, toList_ofFn, hn]

theorem word_append_left (h : o + 8 ≤ v.length) : word (v ++ s) o = word v o := by
  rw [word, field_append_left h, word]

/-- The bytes of an option agree with its encoding, up to a set flag and an absent value. -/
theorem option_bytes {x : Option UInt64} (hv : v.length = 8)
    (hx : x = if b ≠ 0 then some (word v 0) else none) (k : Nat) :
    (b :: v)[k]? = (optional x)[k]? ∨ k = 0 ∧ x.isSome ∨ 1 ≤ k ∧ x = none := by
  by_cases hb : b = 0
  · rw [if_neg (not_not.mpr hb)] at hx
    subst hx hb
    cases k with
    | zero => exact Or.inl rfl
    | succ k => exact Or.inr (Or.inr ⟨Nat.succ_pos k, rfl⟩)
  · rw [if_pos hb] at hx
    subst hx
    cases k with
    | zero => exact Or.inr (Or.inl ⟨rfl, rfl⟩)
    | succ k =>
      have hle : le64 (word v 0) = v := one_word hv
      refine Or.inl ?_
      show v[k]? = (le64 (word v 0))[k]?
      rw [hle]

/-- What the data of tag 4 shares with the encoding. -/
theorem updateConfig_bytes {x y : Option UInt64} (hv : v.length = 8) (hw : w.length = 8)
    (hx : x = if b ≠ 0 then some (word v 0) else none)
    (hy : y = if c ≠ 0 then some (word w 0) else none) (k : Nat) :
    (4 :: (b :: v ++ c :: w))[k]? = (StakeInstruction.updateConfig x y).encode[k]? ∨
      (StakeInstruction.updateConfig x y).Unread k := by
  cases k with
  | zero => exact Or.inl rfl
  | succ k =>
    show (b :: v ++ c :: w)[k]? = (optional x ++ optional y)[k]? ∨ _
    have hbv : (b :: v).length = 9 := by rw [List.length_cons, hv]
    rw [List.getElem?_append, List.getElem?_append, hbv, length_optional]
    by_cases hk : k < 9
    · rw [if_pos hk, if_pos hk]
      apply (option_bytes hv hx k).imp_right
      intro hfree
      apply hfree.elim
      · intro h
        exact Or.inl ⟨congrArg (· + 1) h.1, h.2⟩
      · intro h
        exact Or.inr (Or.inl ⟨Nat.succ_le_succ h.1, Nat.succ_lt_succ hk, h.2⟩)
    · rw [if_neg hk, if_neg hk]
      apply (option_bytes hw hy (k - 9)).imp_right
      intro hfree
      apply hfree.elim
      · intro h
        exact Or.inr (Or.inr (Or.inl ⟨by omega, h.2⟩))
      · intro h
        exact Or.inr (Or.inr (Or.inr ⟨by omega, h.2⟩))

theorem readConfig_eq (hv : v.length = 8) :
    readConfig (b :: v ++ c :: w) = .updateConfig (if b ≠ 0 then some (word v 0) else none)
      (if c ≠ 0 then some (word w 0) else none) := by
  have hx : word (v ++ c :: w) 0 = word v 0 := word_append_left hv.ge
  have hc : (v ++ c :: w).getD 8 0 = c := by
    rw [List.getD_append_right _ _ _ _ hv.le, hv]
    rfl
  have hy : word (v ++ c :: w) 9 = word w 0 := by
    rw [word_append (by omega), hv]
    rfl
  rw [← hx, ← hy]
  show StakeInstruction.updateConfig _ (if (v ++ c :: w).getD 8 0 ≠ 0 then _ else _) = _
  rw [hc]
  rfl

/-- The payload of tag 4 as two options. -/
theorem exists_options (h : s.length = 18) :
    ∃ b v c w, s = b :: v ++ c :: w ∧ v.length = 8 ∧ w.length = 8 := by
  cases s with
  | nil => cases h
  | cons b t =>
    have ht : t.length = 17 := Nat.succ.inj h
    cases hd : t.drop 8 with
    | nil =>
      have := List.drop_eq_nil_iff.mp hd
      omega
    | cons c w =>
      have hw : (t.drop 8).length = 9 := by rw [List.length_drop, ht]
      rw [hd] at hw
      refine ⟨b, t.take 8, c, w, ?_, ?_, Nat.succ.inj hw⟩
      · rw [← hd, List.cons_append, List.take_append_drop]
      · rw [List.length_take, ht]
        rfl

/-- What the data of tag 14 shares with the encoding. -/
theorem hwm_bytes (hs : s.length = 3) (k : Nat) :
    (14 :: s)[k]? = (readHwm s).encode[k]? ∨ (readHwm s).Unread k := by
  cases s with
  | nil => cases hs
  | cons b t =>
    have ht : le16 (half t 0) = t := one_half (Nat.succ.inj hs)
    have henc : (readHwm (b :: t)).encode = 14 :: flagByte (b != 0) :: t :=
      congrArg (14 :: flagByte (b != 0) :: ·) ht
    rw [henc]
    by_cases hb : b = 0
    · subst hb
      exact Or.inl rfl
    · by_cases hk : k = 1
      · exact Or.inr ⟨hk, bne_iff_ne.mpr hb⟩
      · refine Or.inl ?_
        match k, hk with
        | 0, _ => rfl
        | k + 2, _ => rfl

/-- What the parser accepts: a tag, and a payload of its length. -/
theorem unpack_eq_pure (h : StakeInstruction.unpack s = pure i) :
    ∃ tag rest n read, s = tag :: rest ∧ grammar tag = some (n, read) ∧ rest.length = n ∧
      read rest = i := by
  cases s with
  | nil => cases h
  | cons tag rest =>
    rw [unpack_cons] at h
    cases hg : grammar tag with
    | none =>
      rw [hg] at h
      cases h
    | some p =>
      rw [hg] at h
      by_cases hn : rest.length = p.1
      · replace h := (if_pos hn).symm.trans h
        refine ⟨tag, rest, p.1, p.2, rfl, hg, hn, ?_⟩
        cases h
        rfl
      · replace h := (if_neg hn).symm.trans h
        cases h

/-- Data that is accepted is the encoding, but for the bytes that are not read back. -/
theorem unpack_bytes (h : StakeInstruction.unpack s = pure i) (k : Nat) :
    s[k]? = i.encode[k]? ∨ i.Unread k := by
  obtain ⟨tag, rest, n, read, rfl, hg, hn, rfl⟩ := unpack_eq_pure h
  by_cases h4 : tag = 4
  · subst h4
    cases hg
    obtain ⟨b, v, c, w, rfl, hv, hw⟩ := exists_options hn
    rw [readConfig_eq hv]
    exact updateConfig_bytes hv hw rfl rfl k
  · by_cases h14 : tag = 14
    · subst h14
      cases hg
      exact hwm_bytes hn k
    · exact Or.inl (by rw [encode_read hg hn h4 h14])

theorem unpack_isSome (s : List UInt8) : (StakeInstruction.unpack s).run ≠ none := by
  cases s with
  | nil => exact Option.some_ne_none _
  | cons tag rest =>
    rw [unpack_cons]
    cases grammar tag with
    | none => exact Option.some_ne_none _
    | some p =>
      by_cases hn : rest.length = p.1
      · exact ne_of_eq_of_ne (congrArg ExceptT.run (if_pos hn)) (Option.some_ne_none _)
      · exact ne_of_eq_of_ne (congrArg ExceptT.run (if_neg hn)) (Option.some_ne_none _)

/-- The accepted strings by tag and length. -/
theorem exists_unpack_iff (s : List UInt8) :
    (∃ i, StakeInstruction.unpack s = pure i) ↔
      ∃ tag rest, s = tag :: rest ∧ payloadLength tag = some rest.length := by
  constructor
  · intro ⟨i, h⟩
    obtain ⟨tag, rest, n, read, hs, hg, hn, _⟩ := unpack_eq_pure h
    refine ⟨tag, rest, hs, ?_⟩
    rw [← grammar_length, hg, hn]
    rfl
  · intro ⟨tag, rest, hs, hp⟩
    rw [← grammar_length] at hp
    obtain ⟨p, hg, hn⟩ := Option.map_eq_some_iff.mp hp
    exact ⟨p.2 rest, hs ▸ unpack_read hg hn.symm rfl⟩

theorem not_unread_zero (i : StakeInstruction) : ¬ i.Unread 0 := by
  cases i <;> simp [StakeInstruction.Unread]

/-- Strings with one tag that are accepted have one length. -/
theorem length_eq_of_unpack {s t : List UInt8} {i j : StakeInstruction}
    (hs : StakeInstruction.unpack s = pure i) (ht : StakeInstruction.unpack t = pure j)
    (htag : s[0]? = t[0]?) : s.length = t.length := by
  obtain ⟨a, s', hs', ha⟩ := (exists_unpack_iff s).mp ⟨i, hs⟩
  obtain ⟨b, t', ht', hb⟩ := (exists_unpack_iff t).mp ⟨j, ht⟩
  subst hs' ht'
  have hab : a = b := Option.some.inj htag
  rw [hab] at ha
  rw [List.length_cons, List.length_cons, Option.some.inj (ha.symm.trans hb)]

/-- The parser accepts exactly the strings of its grammar and never stops.  An instruction
is read back from its encoding, and two strings for one instruction differ only in the
bytes that are not read back. -/
theorem unpack_grammar :
    (∀ data, (StakeInstruction.unpack data).run ≠ none) ∧
    (∀ data, (∃ i, StakeInstruction.unpack data = pure i) ↔
      ∃ tag rest, data = tag :: rest ∧ payloadLength tag = some rest.length) ∧
    (∀ i, StakeInstruction.unpack i.encode = pure i) ∧
    (∀ data data' i, StakeInstruction.unpack data = pure i →
      StakeInstruction.unpack data' = pure i →
        data.length = data'.length ∧ ∀ k : Nat, data[k]? = data'[k]? ∨ i.Unread k) ∧
    (∀ data data' i i', StakeInstruction.unpack data = pure i →
      StakeInstruction.unpack data' = pure i' → data <+: data' → data = data') := by
  refine ⟨unpack_isSome, exists_unpack_iff, unpack_encode, ?_, ?_⟩
  · intro data data' i h h'
    have hbytes : ∀ k : Nat, data[k]? = data'[k]? ∨ i.Unread k := by
      intro k
      apply (unpack_bytes h k).elim
      · intro hk
        exact (unpack_bytes h' k).imp_left fun hk' => hk.trans hk'.symm
      · exact Or.inr
    exact ⟨length_eq_of_unpack h h' ((hbytes 0).resolve_right (not_unread_zero i)), hbytes⟩
  · intro data data' i i' h h' hpre
    have htag : data[0]? = data'[0]? := by
      obtain ⟨tag, rest, hdata, _⟩ := (exists_unpack_iff data).mp ⟨i, h⟩
      obtain ⟨more, hmore⟩ := hpre
      rw [← hmore, hdata]
      rfl
    exact hpre.eq_of_length (length_eq_of_unpack h h' htag)

end

end PercolatorStake
