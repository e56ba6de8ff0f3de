import PercolatorStake.MarketBinding
import PercolatorStake.Unpack

/-!
# Markets

The wrapper keeps one authority for every market.  It resolves the market, sets the fee
split and the maintenance fee, and names its successor.  The wrapper is not part of this
repository: it is a parameter, with the laws that the four commands and the other
instructions this program sends have there.
-/

namespace PercolatorStake

open Bytes Result Word

/-! ## Commands -/

/-- What the authority of a market may ask of it. -/
inductive MarketCommand where
  | updateAuthority (newAuthority : Pubkey)
  | resolveMarket
  | updateFeeSplit (creatorShareBps lpShareBps insuranceShareBps : UInt16)
  | updateMaintenanceFeePerSlot (maintenanceFeePerSlot : BitVec 128)
  deriving DecidableEq

namespace MarketCommand

/-- The command as `authority` sends it. -/
def instruction (program authority slab : Pubkey) : MarketCommand → Instruction
  | updateAuthority newAuthority => Cpi.updateAuthority program authority newAuthority slab
  | resolveMarket => Cpi.resolveMarket program authority slab
  | updateFeeSplit creatorShareBps lpShareBps insuranceShareBps =>
    Cpi.updateFeeSplit program authority slab creatorShareBps lpShareBps insuranceShareBps
  | updateMaintenanceFeePerSlot maintenanceFeePerSlot =>
    Cpi.updateMaintenanceFeePerSlot program authority slab maintenanceFeePerSlot

theorem administrative (program authority slab : Pubkey) (c : MarketCommand) :
    Cpi.Administrative (c.instruction program authority slab) := by
  cases c with
  | updateAuthority => exact .updateAuthority ..
  | resolveMarket => exact .resolveMarket ..
  | updateFeeSplit => exact .updateFeeSplit ..
  | updateMaintenanceFeePerSlot => exact .updateMaintenanceFeePerSlot ..

end MarketCommand

/-- What the wrapper keeps of a market for its authority to decide. -/
structure Market where
  authority : Pubkey
  resolved : Bool
  feeSplit : UInt16 × UInt16 × UInt16
  maintenanceFeePerSlot : BitVec 128
  deriving DecidableEq

/-- A market is resolved once. -/
def Market.obey (m : Market) : MarketCommand → Option Market
  | .updateAuthority newAuthority => some { m with authority := newAuthority }
  | .resolveMarket => if m.resolved = true then none else some { m with resolved := true }
  | .updateFeeSplit creatorShareBps lpShareBps insuranceShareBps =>
    some { m with feeSplit := (creatorShareBps, lpShareBps, insuranceShareBps) }
  | .updateMaintenanceFeePerSlot maintenanceFeePerSlot =>
    some { m with maintenanceFeePerSlot := maintenanceFeePerSlot }

/-- The initialized markets by address. -/
abbrev Markets : Type := Pubkey → Option Market

/-! ## The wrapper -/

/-- The tags that this program sends and that are no command. -/
def Cpi.otherTags : List UInt8 :=
  [tagTopUpInsurance, tagWithdrawInsuranceAsset, tagUpdateAssetAuthority,
    tagUpdateBackingFeePolicy, tagUpdateTradeFeePolicy]

/-- A wrapper, as far as the markets are concerned.  What else it asks before it accepts an
instruction is its own affair, and so is what it makes of the instructions that this program
does not send, except that a market is its authority's: nobody else resolves it, sets its
fees or names a successor. -/
structure MarketProgram where
  admits : Markets → World → Instruction → Bool
  handle : Markets → Instruction → Option Markets
  command : ∀ {M M' : Markets} {c : MarketCommand} {authority slab : Pubkey},
    handle M (c.instruction percolatorMainnet authority slab) = some M' ↔
      ∃ m m', M slab = some m ∧ m.authority = authority ∧ m.obey c = some m' ∧
        M' = Function.update M slab (some m')
  topUpInsurance : ∀ {M M' : Markets} {signer slab source dest tokenProgram : Pubkey}
    {amount : UInt64}, handle M (Cpi.topUpInsurance percolatorMainnet signer slab source dest
      tokenProgram amount) = some M' → ∃ m, M slab = some m ∧ m.resolved = false
  other : ∀ {M M' : Markets} {ix : Instruction} {t : UInt8}, ix.data.head? = some t →
    t ∈ Cpi.otherTags → handle M ix = some M' → M' = M
  unsigned : ∀ {M M' : Markets} {ix : Instruction} {k : Pubkey} {m : Market},
    handle M ix = some M' → M k = some m →
    (∀ a ∈ ix.accounts, a.isSigner = true → a.pubkey ≠ m.authority) → M' k = some m

/-- Only instructions to the wrapper program reach the markets. -/
def MarketProgram.receive (program : MarketProgram) (M : Markets) (ix : Instruction) :
    Except ProgramError Markets :=
  if ix.programId = percolatorMainnet then
    okOr (program.handle M ix) ProgramError.invocationFailed
  else .ok M

theorem MarketProgram.receive_eq_ok {program : MarketProgram} {M M' : Markets} {ix : Instruction}
    (h : ix.programId = percolatorMainnet) :
    program.receive M ix = .ok M' ↔ program.handle M ix = some M' := by
  unfold receive
  rw [if_pos h, okOr_eq_ok]

/-! ## A reference wrapper -/

namespace Sample

/-- The tags of the four commands. -/
def commandTags : List UInt8 :=
  [Cpi.tagUpdateAuthority, Cpi.tagResolveMarket, Cpi.tagUpdateFeeSplit,
    Cpi.tagUpdateMaintenanceFeePerSlot]

/-- A payload of another length is not a command. -/
def decodeCommand : List UInt8 → Option MarketCommand
  | 32 :: rest =>
    if rest.length = 32 then some (.updateAuthority (Vector.ofFn fun i => rest.getD i 0)) else none
  | 19 :: rest => if rest.length = 0 then some .resolveMarket else none
  | 86 :: rest =>
    if rest.length = 6 then some (.updateFeeSplit (half rest 0) (half rest 2) (half rest 4))
    else none
  | 88 :: rest =>
    if rest.length = 16 then some (.updateMaintenanceFeePerSlot (.ofNat 128 (field rest 0 16)))
    else none
  | _ => none

/-- The authority signs, and so does a successor. -/
def signedFor (m : Market) (accounts : List AccountMeta) (c : MarketCommand) : Bool :=
  (accounts[0]?.any fun a => a.isSigner && a.pubkey == m.authority) &&
    match c with
    | .updateAuthority newAuthority =>
      accounts[1]?.any fun a => a.isSigner && a.pubkey == newAuthority
    | _ => true

def marketHandle (M : Markets) (ix : Instruction) : Option Markets :=
  match ix.data.head? with
  | none => some M
  | some t =>
    if t ∈ commandTags then do
      let c ← decodeCommand ix.data
      let k ← ix.market
      let m ← M k
      if signedFor m ix.accounts c = true then
        (m.obey c).map fun m' => Function.update M k (some m')
      else none
    else if t = Cpi.tagTopUpInsurance then do
      let k ← ix.market
      let m ← M k
      if m.resolved = true then none else some M
    else some M

section

variable {M M' : Markets} {ix : Instruction} {c : MarketCommand} {k slab authority : Pubkey}
  {m : Market}

theorem decodeCommand_instruction (c : MarketCommand) (program authority slab : Pubkey) :
    decodeCommand (c.instruction program authority slab).data = some c := by
  cases c with
  | updateAuthority newAuthority =>
    show (if newAuthority.toList.length = 32 then
      some (MarketCommand.updateAuthority (Vector.ofFn fun i => newAuthority.toList.getD i 0))
      else none) = _
    rw [if_pos (Vector.length_toList ..), ofFn_toList]
  | resolveMarket => rfl
  | updateFeeSplit creatorShareBps lpShareBps insuranceShareBps =>
    show decodeCommand (86 :: (le16 creatorShareBps ++ le16 lpShareBps ++
      le16 insuranceShareBps)) = _
    simp [decodeCommand, half_append, half_le16, half_le16_append]
  | updateMaintenanceFeePerSlot maintenanceFeePerSlot =>
    show decodeCommand (88 :: le128 maintenanceFeePerSlot) = _
    simp [decodeCommand, field_le128]

/-- What the wrapper makes of a command. -/
theorem marketHandle_command : marketHandle M (c.instruction percolatorMainnet authority slab) =
    (M slab).bind fun m => if m.authority = authority then
      (m.obey c).map fun m' => Function.update M slab (some m') else none := by
  obtain ⟨t, hhead, htag⟩ : ∃ t, (c.instruction percolatorMainnet authority slab).data.head? =
      some t ∧ t ∈ commandTags := by
    cases c <;> exact ⟨_, rfl, by decide⟩
  have hmarket : (c.instruction percolatorMainnet authority slab).market = some slab := by
    cases c <;> rfl
  have hsigned : ∀ m : Market,
      signedFor m (c.instruction percolatorMainnet authority slab).accounts c = true ↔
        m.authority = authority := by
    intro m
    have hauthority : (authority == m.authority) = true ↔ m.authority = authority := by
      rw [beq_iff_eq, eq_comm]
    rw [← hauthority]
    cases c with
    | updateAuthority newAuthority =>
      show ((authority == m.authority) && (newAuthority == newAuthority)) = true ↔ _
      rw [beq_self_eq_true, Bool.and_true]
    | resolveMarket | updateFeeSplit | updateMaintenanceFeePerSlot =>
      show ((authority == m.authority) && true) = true ↔ _
      rw [Bool.and_true]
  unfold marketHandle
  simp only [hhead, if_pos htag, decodeCommand_instruction, hmarket, hsigned, Option.bind_eq_bind,
    Option.bind_some]

/-- What is no command changes no market. -/
theorem marketHandle_other {t : UInt8} (h : marketHandle M ix = some M')
    (hhead : ix.data.head? = some t) (htag : t ∉ commandTags) : M' = M := by
  unfold marketHandle at h
  simp only [hhead, if_neg htag] at h
  split at h
  · obtain ⟨k, -, h⟩ := Option.bind_eq_some_iff.mp h
    obtain ⟨m, -, h⟩ := Option.bind_eq_some_iff.mp h
    split at h
    · cases h
    · exact (Option.some.inj h).symm
  · exact (Option.some.inj h).symm

theorem marketHandle_eq_some (h : marketHandle M ix = some M') :
    M' = M ∨ ∃ c k m m', M k = some m ∧ signedFor m ix.accounts c = true ∧
      M' = Function.update M k (some m') := by
  by_cases htag : ∃ t, ix.data.head? = some t ∧ t ∈ commandTags
  · obtain ⟨t, hhead, ht⟩ := htag
    unfold marketHandle at h
    simp only [hhead, if_pos ht] at h
    obtain ⟨c, -, h⟩ := Option.bind_eq_some_iff.mp h
    obtain ⟨k, -, h⟩ := Option.bind_eq_some_iff.mp h
    obtain ⟨m, hm, h⟩ := Option.bind_eq_some_iff.mp h
    split at h
    · rename_i hsigned
      obtain ⟨m', -, rfl⟩ := Option.map_eq_some_iff.mp h
      exact .inr ⟨c, k, m, m', hm, hsigned, rfl⟩
    · cases h
  · cases hhead : ix.data.head? with
    | none =>
      unfold marketHandle at h
      rw [hhead] at h
      exact .inl (Option.some.inj h).symm
    | some t => exact .inl (marketHandle_other h hhead fun ht => htag ⟨t, hhead, ht⟩)

theorem signedFor_signer {accounts : List AccountMeta} (h : signedFor m accounts c = true) :
    ∃ a ∈ accounts, a.isSigner = true ∧ a.pubkey = m.authority := by
  unfold signedFor at h
  rw [Bool.and_eq_true, Option.any_eq_true] at h
  obtain ⟨⟨a, ha, hsigned⟩, -⟩ := h
  rw [Bool.and_eq_true, beq_iff_eq] at hsigned
  exact ⟨a, List.mem_of_getElem? ha, hsigned⟩

end

/-- A wrapper that knows the four commands and asks for a live market before a top-up. -/
def marketProgram : MarketProgram where
  admits _ _ _ := true
  handle := marketHandle
  command := by
    intro M M' c authority slab
    rw [marketHandle_command, Option.bind_eq_some_iff]
    constructor
    · rintro ⟨m, hm, h⟩
      split at h
      · rename_i hauth
        obtain ⟨m', hobey, rfl⟩ := Option.map_eq_some_iff.mp h
        exact ⟨m, m', hm, hauth, hobey, rfl⟩
      · cases h
    · rintro ⟨m, m', hm, hauth, hobey, rfl⟩
      refine ⟨m, hm, ?_⟩
      rw [if_pos hauth, hobey]
      rfl
  topUpInsurance := by
    intro M M' signer slab source dest tokenProgram amount h
    obtain ⟨m, hm, h⟩ : ∃ m, M slab = some m ∧
        (if m.resolved = true then none else some M) = some M' := Option.bind_eq_some_iff.mp h
    split at h
    · cases h
    · rename_i hlive
      exact ⟨m, hm, Bool.eq_false_iff.mpr hlive⟩
  other := by
    intro M M' ix t hhead ht h
    refine marketHandle_other h hhead ?_
    simp only [Cpi.otherTags, List.mem_cons, List.not_mem_nil, or_false] at ht
    rcases ht with rfl | rfl | rfl | rfl | rfl <;> decide
  unsigned := by
    intro M M' ix k m h hm hsign
    rcases marketHandle_eq_some h with rfl | ⟨c, k', m₁, m', hm₁, hsigned, rfl⟩
    · exact hm
    · by_cases hk : k = k'
      · subst hk
        obtain rfl : m = m₁ := Option.some_inj.mp (hm.symm.trans hm₁)
        obtain ⟨a, ha, hsigner, hkey⟩ := signedFor_signer hsigned
        exact (hsign a ha hsigner hkey).elim
      · rw [Function.update_of_ne hk]
        exact hm

end Sample

end PercolatorStake
