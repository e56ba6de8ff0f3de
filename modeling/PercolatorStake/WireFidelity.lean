import PercolatorStake.Unpack
import PercolatorStake.Dispatch
import PercolatorStake.Effect.Settings
import PercolatorStake.Execution

/-!
# From instruction data to wrapper data

An instruction comes in as bytes and, where it is passed on to the wrapper, goes out as
bytes.  The payload that goes out is the payload that came in, and the amount that goes
out is the amount that is booked.
-/

namespace PercolatorStake

open Bytes Result

/-- The program on instruction data.  It stops (`none`) where the parser does. -/
def processData (ctx : Context) (w : World) (accounts : List AccountInfo) (data : List UInt8) :
    Option (Except ProgramError World) :=
  (StakeInstruction.unpack data).run.map fun ix => ix >>= process ctx w accounts

section

variable {ctx : Context} {w w' : World} {accounts : List AccountInfo} {amount : UInt64}
  {d : Dispatch} {rest : List UInt8}

/-! ## The setters -/

/-- The payload of a setter passes through parser, handler and builder unchanged. -/
theorem calls_of_setter {tag t : UInt8} {ix : StakeInstruction}
    (ht : (tag, t) ∈ [(25, 86), (26, 88), (27, 51), (28, 55)])
    (hix : StakeInstruction.unpack (tag :: rest) = pure ix)
    (h : dispatch ctx w accounts ix = .ok d) : ∃ c, d.calls = [c] ∧ c.ix.data = t :: rest := by
  obtain ⟨tag', rest', n, read, hcons, hg, hn, rfl⟩ := unpack_eq_pure hix
  obtain ⟨rfl, rfl⟩ := List.cons.inj hcons
  simp only [List.mem_cons, Prod.mk.injEq, List.not_mem_nil, or_false] at ht
  rcases ht with ⟨rfl, rfl⟩ | ⟨rfl, rfl⟩ | ⟨rfl, rfl⟩ | ⟨rfl, rfl⟩
  all_goals cases hg
  · have h : dispatchGroupAProxy ctx w accounts (fun program poolPda slab => Cpi.updateFeeSplit
        program poolPda slab (half rest 0) (half rest 2) (half rest 4)) = .ok d := h
    apply calls_dispatchGroupAProxy _ h
    intro program signer slab
    show _ :: (le16 (half rest 0) ++ le16 (half rest 2) ++ le16 (half rest 4)) = _
    rw [List.append_assoc, three_halves hn]
    rfl
  · have h : dispatchGroupAProxy ctx w accounts (fun program poolPda slab =>
        Cpi.updateMaintenanceFeePerSlot program poolPda slab (.ofNat 128 (field rest 0 16))) =
        .ok d := h
    apply calls_dispatchGroupAProxy _ h
    intro program signer slab
    show _ :: le128 (BitVec.ofNat 128 (field rest 0 16)) = _
    rw [le128_field hn]
    rfl
  · have h : dispatchGroupBProxy ctx w accounts (fun program vaultAuth slab =>
        Cpi.updateBackingFeePolicy program vaultAuth slab (half rest 0) (half rest 2)
          (half rest 4)) = .ok d := h
    apply calls_dispatchGroupBProxy _ h
    intro program signer slab
    show _ :: (le16 (half rest 0) ++ le16 (half rest 2) ++ le16 (half rest 4)) = _
    rw [List.append_assoc, three_halves hn]
    rfl
  · have h : dispatchGroupBProxy ctx w accounts (fun program vaultAuth slab =>
        Cpi.updateTradeFeePolicy program vaultAuth slab (word rest 0)) = .ok d := h
    apply calls_dispatchGroupBProxy _ h
    intro program signer slab
    show _ :: le64 (word rest 0) = _
    rw [one_word hn]
    rfl

/-! ## The amounts -/

theorem field_amount (s : List UInt8) (amount : UInt64) :
    field (s ++ encodeLe 16 amount.toNat) s.length 16 = amount.toNat := by
  have hlt : amount.toNat < 256 ^ 16 := Nat.lt_of_lt_of_le amount.toNat_lt (by decide)
  have hfield := field_encodeLe (t := []) hlt
  rwa [List.append_nil, ← Nat.sub_self s.length, ← field_append le_rfl] at hfield

/-- What a flush that went through has booked. -/
theorem flush_booked (h : process ctx w accounts (.flushToInsurance amount) = .ok w') :
    ∃ a p p', accounts[1]? = some a ∧ w.pool ctx.programId a.key = some p ∧
      w'.pool ctx.programId a.key = some p' ∧
      p'.totalFlushed.toNat = p.totalFlushed.toNat + amount.toNat := by
  obtain ⟨r⟩ := processFlushToInsurance_run h
  have hbook := congrArg Book.flushed (bookFlush_book r.book_eq).2
  exact ⟨r.a.poolPda, r.pool, r.final, FlushAccounts.next_eq_ok r.next_eq, r.pool_eq,
    r.rewrites.after, hbook⟩

theorem recover_booked (h : process ctx w accounts (.recoverFlushedInsurance amount) = .ok w') :
    ∃ a p p', accounts[1]? = some a ∧ w.pool ctx.programId a.key = some p ∧
      w'.pool ctx.programId a.key = some p' ∧
      p'.totalReturned.toNat = p.totalReturned.toNat + amount.toNat ∧
      p'.totalRecoveredFromWrapper.toNat =
        p.totalRecoveredFromWrapper.toNat + amount.toNat := by
  obtain ⟨r⟩ := processRecoverFlushedInsurance_run h
  have hbook := (bookRecover_book r.book_eq).2
  exact ⟨r.a.poolPda, r.pool, r.final, RecoverAccounts.next_eq_ok r.next_eq, r.pool_eq,
    r.rewrites.after, congrArg Book.returned hbook, congrArg Book.recovered hbook⟩

end

/-- A setter goes out as one call with the payload it came in with, and a flush and a recovery book
the amount they send.  Here `dispatch` is the handler up to what it sends. -/
theorem wire_fidelity (ctx : Context) :
    (∀ w accounts ix, process ctx w accounts ix = dispatch ctx w accounts ix >>= ctx.run) ∧
    (∀ tag t, (tag, t) ∈ [(25, 86), (26, 88), (27, 51), (28, 55)] →
      ∀ rest ix w accounts d, StakeInstruction.unpack (tag :: rest) = pure ix →
        dispatch ctx w accounts ix = .ok d →
          processData ctx w accounts (tag :: rest) = some (ctx.run d) ∧
            ∃ c, d.calls = [c] ∧ c.ix.data = t :: rest) ∧
    (∀ amount w accounts d, dispatch ctx w accounts (.flushToInsurance amount) = .ok d →
      ∃ c, d.calls = [c] ∧ c.ix.data.head? = some 9 ∧ c.ix.data.length = 17 ∧
        field c.ix.data 1 16 = amount.toNat ∧
        ∀ w', process ctx w accounts (.flushToInsurance amount) = .ok w' →
          ∃ a p p', accounts[1]? = some a ∧ w.pool ctx.programId a.key = some p ∧
            w'.pool ctx.programId a.key = some p' ∧
            p'.totalFlushed.toNat = p.totalFlushed.toNat + field c.ix.data 1 16) ∧
    (∀ amount w accounts d, dispatch ctx w accounts (.recoverFlushedInsurance amount) = .ok d →
      ∃ c, d.calls = [c] ∧ c.ix.data.head? = some 57 ∧ c.ix.data.length = 19 ∧
        field c.ix.data 3 16 = amount.toNat ∧
        ∀ w', process ctx w accounts (.recoverFlushedInsurance amount) = .ok w' →
          ∃ a p p', accounts[1]? = some a ∧ w.pool ctx.programId a.key = some p ∧
            w'.pool ctx.programId a.key = some p' ∧
            p'.totalReturned.toNat = p.totalReturned.toNat + field c.ix.data 3 16 ∧
            p'.totalRecoveredFromWrapper.toNat =
              p.totalRecoveredFromWrapper.toNat + field c.ix.data 3 16) := by
  refine ⟨fun _ _ _ => process_eq_dispatch, ?_, ?_, ?_⟩
  · intro tag t ht rest ix w accounts d hix h
    refine ⟨?_, calls_of_setter ht hix h⟩
    rw [processData, hix]
    show some (process ctx w accounts ix) = _
    rw [process_eq_dispatch, h]
    rfl
  · intro amount w accounts d h
    obtain ⟨c, hc, hdata⟩ := calls_dispatchFlushToInsurance h
    have hfield : field c.ix.data 1 16 = amount.toNat := by
      rw [hdata]
      exact field_amount [Cpi.tagTopUpInsurance] amount
    refine ⟨c, hc, ?_, ?_, hfield, ?_⟩
    · rw [hdata]
      rfl
    · rw [hdata, List.length_cons, length_encodeLe]
    · intro w' h'
      rw [hfield]
      exact flush_booked h'
  · intro amount w accounts d h
    obtain ⟨c, hc, hdata⟩ := calls_dispatchRecoverFlushedInsurance h
    have hfield : field c.ix.data 3 16 = amount.toNat := by
      rw [hdata]
      exact field_amount (Cpi.tagWithdrawInsuranceAsset :: encodeLe 2 0) amount
    refine ⟨c, hc, ?_, ?_, hfield, ?_⟩
    · rw [hdata]
      rfl
    · rw [hdata, List.length_cons, List.length_append, length_encodeLe, length_encodeLe]
    · intro w' h'
      rw [hfield]
      exact recover_booked h'

namespace Sample

/-- The admin sets a split of a half, three tenths and a fifth. -/
theorem wire_fidelity_split :
    ∃ d, dispatch ctx (after []) [signer (key admin), writable pool, writable slab,
        readonly percolatorMainnet] (.adminUpdateFeeSplit 5000 3000 2000) = .ok d ∧
      processData ctx (after []) [signer (key admin), writable pool, writable slab,
        readonly percolatorMainnet] [25, 136, 19, 184, 11, 208, 7] = some (ctx.run d) ∧
      ∃ c, d.calls = [c] ∧ c.ix.data = [86, 136, 19, 184, 11, 208, 7] := by
  have hok : (dispatch ctx (after []) [signer (key admin), writable pool, writable slab,
      readonly percolatorMainnet] (.adminUpdateFeeSplit 5000 3000 2000)).toOption.isSome =
      true := by decide +kernel
  cases hd : dispatch ctx (after []) [signer (key admin), writable pool, writable slab,
      readonly percolatorMainnet] (.adminUpdateFeeSplit 5000 3000 2000) with
  | ok d =>
    exact ⟨d, rfl, (wire_fidelity ctx).2.1 25 86 (by decide) [136, 19, 184, 11, 208, 7] _ _ _ _
      rfl hd⟩
  | error e =>
    rw [hd] at hok
    cases hok

end Sample

end PercolatorStake
