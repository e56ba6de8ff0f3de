import PercolatorStake.Effect.Init
import PercolatorStake.Effect.Withdraw
import PercolatorStake.Effect.Admin

/-!
# The program refines the ledger

Every event of a run is a list of at most two moves of the abstract ledger, and
the pool keeps standing.  So whatever the moves of the ledger preserve holds of
every world the program can reach.
-/

namespace PercolatorStake

/-- The moves of the ledger that an event may be. -/
def Realizes (ctx : Context) (π : Pubkey) (e : Event) (ms : List (Move Pubkey)) : Prop :=
  match e with
  | .outside x => ms = [.inflow x]
  | .instruction (.deposit amount) accounts =>
    ∃ user acc lp, accounts[0]? = some user ∧ Accrual acc ∧
      ms = acc ++ [.deposit (ctx.depositPda π user.key) amount.toNat lp]
  | .instruction (.depositJunior amount) accounts =>
    ∃ user acc lp, accounts[0]? = some user ∧ Accrual acc ∧
      ms = acc ++ [.depositJunior (ctx.depositPda π user.key) amount.toNat lp]
  | .instruction (.withdraw lp) accounts =>
    ∃ user acc x mv, accounts[0]? = some user ∧ Accrual acc ∧
      Withdrawal (ctx.depositPda π user.key) lp.toNat x mv ∧ ms = acc ++ [mv]
  | .instruction (.flushToInsurance amount) _ => ms = [.flush amount.toNat]
  | .instruction (.returnInsurance amount) _ => ms = [.giveBack amount.toNat]
  | .instruction (.recoverFlushedInsurance amount) _ => ms = [.recover amount.toNat]
  | .instruction .accrueFees _ => Accrual ms
  | .instruction (.adminSetTrancheConfig mult) _ => ms = [.setTranches mult.toNat]
  | .instruction _ _ => ms = []

section

variable {ctx : Context} {π : Pubkey} {w w' : World} {p : StakePool} {t : TokenAccount} {m : Mint}
  {e : Event} {es : List Event} {ms : List (Move Pubkey)} {X : Nat}

theorem Standing.outside {x : Nat} (h : Standing ctx π w p t m) (ho : ctx.Outside π x w w') :
    Simulated ctx π w p t [.inflow x] w' := by
  obtain ⟨amount, hamount, ht⟩ := ho.vault_eq h.pool_eq h.vault_eq
  obtain ⟨supply, -, hm⟩ := ho.mint_eq h.pool_eq h.mint_eq
  have hpos : w'.positions ctx.programId π = w.positions ctx.programId π := by
    funext k
    -- a record of the pool is a record of the pool in both worlds
    have hiff := ho.record_iff k
    unfold World.positions positionOf
    cases h1 : w.record ctx.programId k with
    | none =>
      cases h2 : w'.record ctx.programId k with
      | none => rfl
      | some d =>
        refine if_neg fun hd => ?_
        have := (hiff d hd).mp h2
        rw [h1] at this
        cases this
    | some d =>
      by_cases hd : d.pool = π
      · rw [(hiff d hd).mpr h1]
      · cases h2 : w'.record ctx.programId k with
        | none => exact (if_neg hd).symm
        | some d' =>
          by_cases hd' : d'.pool = π
          · have := (hiff d' hd').mp h2
            rw [h1] at this
            cases this
            exact (hd hd').elim
          · exact (if_neg hd').trans (if_neg hd).symm
  refine ⟨p, { t with amount := amount }, { m with supply := supply },
    ⟨ho.pool_eq.trans h.pool_eq, h.chartered, ht, h.vault_mint, h.vault_owner, h.vault_live, hm,
      h.mint_live, h.mint_authority, ?_⟩, rfl, _, .inflow, ?_⟩
  · intro user d hd
    exact h.record_eq user d ((ho.pda_eq user).symm.trans hd)
  · rw [ledgerOf, ledgerOf, hpos]
    exact congrArg (Ledger.mk p.book · _) hamount.symm

theorem Standing.step (h : Standing ctx π w p t m) (hs : ctx.Step π w e w') :
    ∃ ms, Realizes ctx π e ms ∧ Simulated ctx π w p t ms w' := by
  cases e with
  | outside x => exact ⟨_, rfl, h.outside hs⟩
  | instruction ix accounts =>
    obtain ⟨hpool, hsign, hd⟩ := hs
    have hsame : ∀ p', p' = p → p'.charter = p.charter ∧ p'.book = p.book := by
      rintro p' rfl
      exact ⟨rfl, rfl⟩
    cases ix with
    | initPool slots cap => exact (h.no_init hpool hd).elim
    | initTradingPool slots cap =>
      unfold process processInitTradingPool at hd
      simp only [Result.bind_eq_ok] at hd
      obtain ⟨w₁, hinit, -⟩ := hd
      exact (h.no_init hpool hinit).elim
    | deposit amount =>
      obtain ⟨user, acc, lp, huser, hacc, hsim⟩ := h.deposit hpool hsign hd
      exact ⟨_, ⟨user, acc, lp, huser, hacc, rfl⟩, hsim⟩
    | depositJunior amount =>
      obtain ⟨user, acc, lp, huser, hacc, hsim⟩ := h.depositJunior hpool hsign hd
      exact ⟨_, ⟨user, acc, lp, huser, hacc, rfl⟩, hsim⟩
    | withdraw lp =>
      obtain ⟨user, acc, x, mv, huser, hacc, hmv, hsim⟩ := h.withdraw hpool hd
      exact ⟨_, ⟨user, acc, x, mv, huser, hacc, hmv, rfl⟩, hsim⟩
    | flushToInsurance amount => exact ⟨_, rfl, h.flush hpool hd⟩
    | returnInsurance amount => exact ⟨_, rfl, h.returnInsurance hpool hsign hd⟩
    | recoverFlushedInsurance amount => exact ⟨_, rfl, h.recover hpool hd⟩
    | accrueFees =>
      obtain ⟨acc, hacc, hsim⟩ := h.accrueFees hpool hd
      exact ⟨acc, hacc, hsim⟩
    | adminSetTrancheConfig mult => exact ⟨_, rfl, h.adminSetTrancheConfig hpool hd⟩
    | updateConfig =>
      refine ⟨_, rfl, h.keeps hpool (processUpdateConfig_configured hd) ?_⟩
      rintro p' ⟨-, rfl⟩
      exact ⟨rfl, rfl⟩
    | proposeAdmin =>
      refine ⟨_, rfl, h.keeps hpool (processProposeAdmin_configured hd) ?_⟩
      rintro p' rfl
      exact ⟨rfl, rfl⟩
    | acceptAdmin =>
      refine ⟨_, rfl, h.keeps hpool (processAcceptAdmin_configured hd) ?_⟩
      rintro p' rfl
      exact ⟨rfl, rfl⟩
    | proposeCooldownIncrease =>
      refine ⟨_, rfl, h.keeps hpool (processProposeCooldownIncrease_configured hd) ?_⟩
      rintro p' ⟨c, -, -, -, rfl⟩
      exact ⟨rfl, rfl⟩
    | commitCooldownIncrease =>
      refine ⟨_, rfl, h.keeps hpool (processCommitCooldownIncrease_configured hd) ?_⟩
      rintro p' ⟨c, -, -, -, -, rfl⟩
      exact ⟨rfl, rfl⟩
    | cancelCooldownIncrease =>
      refine ⟨_, rfl, h.keeps hpool (processCancelCooldownIncrease_configured hd) ?_⟩
      rintro p' ⟨-, rfl⟩
      exact ⟨rfl, rfl⟩
    | adminSetHwmConfig =>
      refine ⟨_, rfl, h.keeps hpool (processAdminSetHwmConfig_configured hd) ?_⟩
      rintro p' ⟨-, rfl⟩
      exact applyHwmConfig_book ..
    | setMarketResolved =>
      refine ⟨_, rfl, h.keeps hpool (processSetMarketResolved_configured hd) ?_⟩
      rintro p' ⟨-, -, rfl⟩
      exact ⟨StakePool.charter_setMarketResolved .., StakePool.book_setMarketResolved ..⟩
    | burnAssetAdmin =>
      refine ⟨_, rfl, h.keeps hpool (processBurnAssetAdmin_configured hd) ?_⟩
      rintro p' ⟨-, rfl⟩
      exact ⟨StakePool.charter_setAssetAdminBurned .., StakePool.book_setAssetAdminBurned ..⟩
    | rotateInsuranceOperator | rotateInsuranceAuthority =>
      refine ⟨_, rfl, h.keeps hpool (rotateRole_configured (fun _ _ _ _ => rfl) hd) ?_⟩
      rintro p' ⟨-, rfl⟩
      exact ⟨rfl, rfl⟩
    | adminResolveMarket =>
      exact ⟨_, rfl, h.keeps hpool (processAdminResolveMarket_configured hd) hsame⟩
    | bindInsuranceAuthority =>
      exact ⟨_, rfl, h.keeps hpool (processBindInsuranceAuthority_configured hd) hsame⟩
    | adminUpdateFeeSplit =>
      exact ⟨_, rfl, h.keeps hpool (processAdminUpdateFeeSplit_configured hd) hsame⟩
    | adminUpdateMaintenanceFeePerSlot =>
      exact ⟨_, rfl, h.keeps hpool (processAdminUpdateMaintenanceFeePerSlot_configured hd) hsame⟩
    | adminUpdateBackingFeePolicy =>
      exact ⟨_, rfl, h.keeps hpool (processAdminUpdateBackingFeePolicy_configured hd) hsame⟩
    | adminUpdateTradeFeePolicy =>
      exact ⟨_, rfl, h.keeps hpool (processAdminUpdateTradeFeePolicy_configured hd) hsame⟩

theorem Realizes.inflow (h : Realizes ctx π e ms) : (ms.map Move.inflowOf).sum = e.inflow := by
  cases e with
  | outside x =>
    cases h
    rfl
  | instruction ix accounts =>
    cases ix with
    | deposit | depositJunior =>
      obtain ⟨_, acc, _, -, hacc, rfl⟩ := h
      rw [List.map_append, List.sum_append, hacc.sum_eq_zero fun _ _ => rfl]
      rfl
    | withdraw =>
      obtain ⟨_, acc, _, _, -, hacc, rfl | rfl | rfl, rfl⟩ := h <;>
        rw [List.map_append, List.sum_append, hacc.sum_eq_zero fun _ _ => rfl] <;> rfl
    | accrueFees => exact Accrual.sum_eq_zero h fun _ _ => rfl
    | _ =>
      cases h
      rfl

/-- The moves that an event makes. -/
inductive Event.Moves (ctx : Context) (π : Pubkey) : Event → Move Pubkey → Prop
  | accrue {e : Event} {f j : Nat} : Moves ctx π e (.accrue f j)
  | inflow {x : Nat} : Moves ctx π (.outside x) (.inflow x)
  | deposit {amount : UInt64} {accounts : List AccountInfo} {user : AccountInfo} {lp : Nat}
      (huser : accounts[0]? = some user) :
      Moves ctx π (.instruction (.deposit amount) accounts)
        (.deposit (ctx.depositPda π user.key) amount.toNat lp)
  | depositJunior {amount : UInt64} {accounts : List AccountInfo} {user : AccountInfo} {lp : Nat}
      (huser : accounts[0]? = some user) :
      Moves ctx π (.instruction (.depositJunior amount) accounts)
        (.depositJunior (ctx.depositPda π user.key) amount.toNat lp)
  | withdraw {lp : UInt64} {accounts : List AccountInfo} {user : AccountInfo} {x : Nat}
      {mv : Move Pubkey} (huser : accounts[0]? = some user)
      (hmove : Withdrawal (ctx.depositPda π user.key) lp.toNat x mv) :
      Moves ctx π (.instruction (.withdraw lp) accounts) mv
  | flush {amount : UInt64} {accounts : List AccountInfo} :
      Moves ctx π (.instruction (.flushToInsurance amount) accounts) (.flush amount.toNat)
  | giveBack {amount : UInt64} {accounts : List AccountInfo} :
      Moves ctx π (.instruction (.returnInsurance amount) accounts) (.giveBack amount.toNat)
  | recover {amount : UInt64} {accounts : List AccountInfo} :
      Moves ctx π (.instruction (.recoverFlushedInsurance amount) accounts)
        (.recover amount.toNat)
  | setTranches {mult : UInt16} {accounts : List AccountInfo} :
      Moves ctx π (.instruction (.adminSetTrancheConfig mult) accounts) (.setTranches mult.toNat)

theorem Accrual.moves (h : Accrual ms) : ∀ mv ∈ ms, e.Moves ctx π mv := by
  intro mv hmv
  rcases h with rfl | ⟨f, j, rfl⟩
  · cases hmv
  · rw [List.mem_singleton.mp hmv]
    exact .accrue

theorem Realizes.moves (h : Realizes ctx π e ms) : ∀ mv ∈ ms, e.Moves ctx π mv := by
  intro mv hmv
  cases e with
  | outside =>
    rw [show ms = _ from h] at hmv
    rw [List.mem_singleton.mp hmv]
    exact .inflow
  | instruction ix accounts =>
    cases ix with
    | deposit =>
      obtain ⟨_, acc, _, huser, hacc, rfl⟩ := h
      rcases List.mem_append.mp hmv with hmv | hmv
      · exact hacc.moves mv hmv
      · rw [List.mem_singleton.mp hmv]
        exact .deposit huser
    | depositJunior =>
      obtain ⟨_, acc, _, huser, hacc, rfl⟩ := h
      rcases List.mem_append.mp hmv with hmv | hmv
      · exact hacc.moves mv hmv
      · rw [List.mem_singleton.mp hmv]
        exact .depositJunior huser
    | withdraw =>
      obtain ⟨_, acc, _, _, huser, hacc, hw, rfl⟩ := h
      rcases List.mem_append.mp hmv with hmv | hmv
      · exact hacc.moves mv hmv
      · rw [List.mem_singleton.mp hmv]
        exact .withdraw huser hw
    | accrueFees => exact Accrual.moves h mv hmv
    | flushToInsurance | returnInsurance | recoverFlushedInsurance | adminSetTrancheConfig =>
      rw [show ms = _ from h] at hmv
      rw [List.mem_singleton.mp hmv]
      constructor
    | _ =>
      rw [show ms = _ from h] at hmv
      cases hmv

/-- An event is an accrual, if it makes one, and at most one move after it. -/
theorem Realizes.split (h : Realizes ctx π e ms) :
    ∃ acc rest, Accrual acc ∧ ms = acc ++ rest ∧ (rest = [] ∨ ∃ mv, rest = [mv]) := by
  cases e with
  | outside => exact ⟨[], _, .inl rfl, h, .inr ⟨_, rfl⟩⟩
  | instruction ix accounts =>
    cases ix with
    | deposit | depositJunior =>
      obtain ⟨_, acc, _, -, hacc, rfl⟩ := h
      exact ⟨acc, _, hacc, rfl, .inr ⟨_, rfl⟩⟩
    | withdraw =>
      obtain ⟨_, acc, _, _, -, hacc, -, rfl⟩ := h
      exact ⟨acc, _, hacc, rfl, .inr ⟨_, rfl⟩⟩
    | accrueFees => exact ⟨ms, [], h, (List.append_nil ms).symm, .inl rfl⟩
    | flushToInsurance | returnInsurance | recoverFlushedInsurance | adminSetTrancheConfig =>
      exact ⟨[], _, .inl rfl, h, .inr ⟨_, rfl⟩⟩
    | _ => exact ⟨[], [], .inl rfl, h, .inl rfl⟩

/-- The moves that only one kind of event makes, with that event. -/
def Move.CausedBy (e : Event) : Move Pubkey → Prop
  | .flush x => ∃ amount accounts, e = .instruction (.flushToInsurance amount) accounts ∧
      x = amount.toNat
  | .giveBack x => ∃ amount accounts, e = .instruction (.returnInsurance amount) accounts ∧
      x = amount.toNat
  | .recover x => ∃ amount accounts, e = .instruction (.recoverFlushedInsurance amount) accounts ∧
      x = amount.toNat
  | .setTranches x => ∃ mult accounts, e = .instruction (.adminSetTrancheConfig mult) accounts ∧
      x = mult.toNat
  | .inflow x => e = .outside x
  | _ => True

theorem Realizes.causedBy (h : Realizes ctx π e ms) : ∀ mv ∈ ms, mv.CausedBy e := by
  intro mv hmv
  cases h.moves mv hmv with
  | inflow => rfl
  | accrue | deposit | depositJunior => trivial
  | withdraw _ hw => rcases hw with rfl | rfl | rfl <;> trivial
  | flush | giveBack | recover | setTranches => exact ⟨_, _, rfl, rfl⟩

/-- The moves of a withdrawal. -/
def Move.redeems {K : Type} : Move K → Bool
  | .withdraw .. | .withdrawJunior .. | .exitJunior .. => true
  | _ => false

theorem Accrual.redeems (h : Accrual ms) : ∀ mv ∈ ms, mv.redeems = false := by
  intro mv hmv
  rcases h with rfl | ⟨f, j, rfl⟩
  · cases hmv
  · rw [List.mem_singleton.mp hmv]
    rfl

theorem Realizes.redeems (h : Realizes ctx π e ms)
    (he : ∀ lp accounts, e ≠ .instruction (.withdraw lp) accounts) :
    ∀ mv ∈ ms, mv.redeems = false := by
  intro mv hmv
  cases h.moves mv hmv with
  | withdraw => exact (he _ _ rfl).elim
  | _ => rfl

theorem Realizes.ne_flush (h : Realizes ctx π e ms)
    (he : ∀ amount accounts, e ≠ .instruction (.flushToInsurance amount) accounts) :
    ∀ mv ∈ ms, ∀ x, mv ≠ .flush x := by
  rintro mv hmv x rfl
  obtain ⟨amount, accounts, e, -⟩ := h.causedBy _ hmv
  exact he amount accounts e

/-- An accrual adds to the fees and to the junior balance, to that only where there is
one, and changes nothing else. -/
theorem Accrual.eq_accrued {l l' : Ledger Pubkey} (h : Accrual ms)
    (hrun : Transition.Run Ledger.Step l ms l') :
    ∃ f j, l' = ⟨l.book.accrued f j, l.vault, l.position⟩ ∧ (l.book.juniorBalance = 0 → j = 0) := by
  rcases h.run hrun with rfl | ⟨f, j, hm⟩
  · exact ⟨0, 0, rfl, fun _ => rfl⟩
  · cases hm with
    | accrue hf hv hs hj =>
      refine ⟨f, j, rfl, fun h0 => ?_⟩
      split at hj
      · rw [hj.2.1, Book.juniorShare, h0, Nat.zero_mul, Nat.mul_zero, Nat.zero_div]
      · exact hj

theorem Accrual.position_eq {l l' : Ledger Pubkey} (h : Accrual ms)
    (hrun : Transition.Run Ledger.Step l ms l') : l'.position = l.position := by
  obtain ⟨f, j, rfl, -⟩ := h.eq_accrued hrun
  rfl

/-- Which move a withdrawal is, is decided by the tranche of the position and by what
is left of the junior tranche. -/
theorem Withdrawal.eq_of_step {k : Pubkey} {lp x : Nat} {mv : Move Pubkey} {l l' : Ledger Pubkey}
    (h : Withdrawal k lp x mv) (hm : Ledger.Step l mv l') :
    mv = if l.book.tranches = true ∧ (l.position k).junior = true then
      if lp = l.book.juniorLp then .exitJunior k lp x else .withdrawJunior k lp x
    else .withdraw k lp x := by
  rcases h with rfl | rfl | rfl
  · cases hm with
    | withdraw _ _ _ hflag =>
      have hno : ¬(l.book.tranches = true ∧ (l.position k).junior = true) := by
        intro hj
        rw [hflag hj.1] at hj
        cases hj.2
      rw [if_neg hno]
  · cases hm with
    | withdrawJunior _ _ _ ht hflag _ _ _ hrest =>
      rw [if_pos ⟨ht, hflag⟩, if_neg (Nat.ne_of_lt hrest)]
  · cases hm with
    | exitJunior _ _ _ ht hflag _ _ _ hlast => rw [if_pos ⟨ht, hflag⟩, if_pos hlast]

/-- A withdrawal redeems LP of a record, on the pool an accrual leads to. -/
theorem Standing.withdraw_reads {p : StakePool} {lp : UInt64} {accounts : List AccountInfo}
    (h : Standing ctx π w p t m) (hs : ctx.Step π w (.instruction (.withdraw lp) accounts) w') :
    ∃ user d q, accounts[0]? = some user ∧
      w.record ctx.programId (ctx.depositPda π user.key) = some d ∧
      (w.positions ctx.programId π (ctx.depositPda π user.key)).junior = d.isJuniorDeposit ∧
      accrueFeesInner p t.amount = .ok q := by
  obtain ⟨hpool, -, hd⟩ := hs
  obtain ⟨r⟩ := processWithdraw_eq_ok.mp hd
  obtain ⟨hπ, -, hacc⟩ := r.standing_eq h hpool
  obtain ⟨hpda, hrec⟩ := r.record_eq
  rw [hpda, hπ] at hrec
  have hrec := World.record_eq_some.mpr hrec
  exact ⟨r.a.user, r.deposit, r.accrued, (WithdrawAccounts.next_eq_ok r.next_eq).1, hrec,
    congrArg Position.junior (positions_of_record hrec (h.record_eq _ _ hrec).1), hacc⟩

/-! ## Reachable worlds -/

/-- The pool stands and its ledger is sound, `X` having come in from outside. -/
structure Valid (ctx : Context) (π : Pubkey) (X : Nat) (w : World) (p : StakePool)
    (t : TokenAccount) (m : Mint) : Prop where
  standing : Standing ctx π w p t m
  sound : Ledger.Sound X (ledgerOf ctx π w p t)

/-- The value of a pool whose books are sound fits. -/
theorem Valid.value_lt (h : Valid ctx π X w p t m) : p.book.value < 2 ^ 64 := by
  have hle : p.book.value ≤ t.amount.toNat := h.sound.toBalanced.value_le
  have hlt := t.amount.toNat_lt
  omega

theorem Valid.step (h : Valid ctx π X w p t m) (hs : ctx.Step π w e w') :
    ∃ p' t' m' ms, Valid ctx π (X + e.inflow) w' p' t' m' ∧ Realizes ctx π e ms ∧
      Transition.Run Ledger.Step (ledgerOf ctx π w p t) ms (ledgerOf ctx π w' p' t') := by
  obtain ⟨ms, hms, p', t', m', h', -, hrun⟩ := h.standing.step hs
  refine ⟨p', t', m', ms, ⟨h', ?_⟩, hms, hrun⟩
  rw [← hms.inflow]
  exact h.sound.run hrun

theorem Context.Genesis.valid (h : ctx.Genesis π w) :
    ∃ p t m, Valid ctx π 0 w p t m ∧ ledgerOf ctx π w p t = .empty := by
  obtain ⟨p, t, m, hs, hledger, -⟩ := h.standing
  exact ⟨p, t, m, ⟨hs, hledger ▸ Ledger.sound_empty⟩, hledger⟩

/-- A run whose events all meet the condition `G` in the world they come in. -/
def Context.ReachedBy (ctx : Context) (π : Pubkey) (G : World → Event → Prop) (es : List Event)
    (w : World) : Prop :=
  ∃ w₀, ctx.Genesis π w₀ ∧ Transition.Run (fun w e w' => G w e ∧ ctx.Step π w e w') w₀ es w

theorem Context.Reached.by_all {G : World → Event → Prop} (h : ctx.Reached π es w)
    (hG : ∀ e ∈ es, ∀ w, G w e) : ctx.ReachedBy π G es w := by
  obtain ⟨w₀, hgenesis, hrun⟩ := h
  exact ⟨w₀, hgenesis, hrun.mono fun e he w _ hs => ⟨hG e he w, hs⟩⟩

theorem Context.Reached.by_true (h : ctx.Reached π es w) :
    ctx.ReachedBy π (fun _ _ => True) es w :=
  h.by_all fun _ _ _ => trivial

theorem Context.ReachedBy.snoc {G : World → Event → Prop} (h : ctx.ReachedBy π G es w)
    (hG : G w e) (hs : ctx.Step π w e w') : ctx.ReachedBy π G (es ++ [e]) w' := by
  obtain ⟨w₀, hgenesis, hrun⟩ := h
  exact ⟨w₀, hgenesis, Transition.run_append.mpr ⟨w, hrun, w', ⟨hG, hs⟩, rfl⟩⟩

/-- A property of the world together with the events since the pool was created. -/
theorem Context.Reached.history {P : List Event → World → Prop} (h : ctx.Reached π es w)
    (h0 : ∀ w, ctx.Genesis π w → P [] w)
    (hstep : ∀ es w e w', ctx.Reached π es w → P es w → ctx.Step π w e w' → P (es ++ [e]) w') :
    P es w := by
  obtain ⟨w₀, hgenesis, hrun⟩ := h
  apply hrun.history (h0 w₀ hgenesis)
  intro es w e w' hpre hP hs
  exact hstep es w e w' ⟨w₀, hgenesis, hpre⟩ hP hs

/-- What the moves of an event do to a property of the ledger, a run of events does
to it, with a total that each event advances. -/
theorem Context.ReachedBy.tally {G : World → Event → Prop} {M : Type} [AddMonoid M]
    {I : M → Ledger Pubkey → Prop} (f : Event → M) (h : ctx.ReachedBy π G es w)
    (hstep : ∀ e ∈ es, ∀ {n X w w' p t m p' t' ms}, Valid ctx π X w p t m → G w e →
      ctx.Step π w e w' → Realizes ctx π e ms →
      Transition.Run Ledger.Step (ledgerOf ctx π w p t) ms (ledgerOf ctx π w' p' t') →
      I n (ledgerOf ctx π w p t) → I (n + f e) (ledgerOf ctx π w' p' t'))
    (h0 : I 0 .empty) :
    ∃ p t m, Valid ctx π (es.map Event.inflow).sum w p t m ∧
      I (es.map f).sum (ledgerOf ctx π w p t) := by
  obtain ⟨w₀, hgenesis, hrun⟩ := h
  obtain ⟨p₀, t₀, m₀, hvalid₀, hempty⟩ := hgenesis.valid
  have hall := hrun.tally (fun e => (e.inflow, f e)) (m := ((0 : Nat), (0 : M)))
    (I := fun n w => ∃ p t m, Valid ctx π n.1 w p t m ∧ I n.2 (ledgerOf ctx π w p t))
    (fun e he n w w' ⟨p, t, m, hv, hi⟩ ⟨hG, hs⟩ => by
      obtain ⟨p', t', m', ms, hv', hreal, hrun'⟩ := hv.step hs
      exact ⟨p', t', m', hv', hstep e he hv hG hs hreal hrun' hi⟩)
    ⟨p₀, t₀, m₀, hvalid₀, hempty ▸ h0⟩
  have hsum : ∀ es : List Event, (es.map fun e => (e.inflow, f e)).sum =
      ((es.map Event.inflow).sum, (es.map f).sum) := by
    intro es
    induction es with
    | nil => rfl
    | cons e es ih => rw [List.map_cons, List.sum_cons, ih]; rfl
  rw [hsum, Prod.mk_add_mk, Nat.zero_add, zero_add] at hall
  exact hall

/-- The same for a property without a total. -/
theorem Context.ReachedBy.invariant {G : World → Event → Prop} {I : Ledger Pubkey → Prop}
    (h : ctx.ReachedBy π G es w)
    (hstep : ∀ e ∈ es, ∀ {X w w' p t m p' t' ms}, Valid ctx π X w p t m → G w e →
      ctx.Step π w e w' → Realizes ctx π e ms →
      Transition.Run Ledger.Step (ledgerOf ctx π w p t) ms (ledgerOf ctx π w' p' t') →
      I (ledgerOf ctx π w p t) → I (ledgerOf ctx π w' p' t'))
    (h0 : I .empty) :
    ∃ p t m, Valid ctx π (es.map Event.inflow).sum w p t m ∧ I (ledgerOf ctx π w p t) :=
  h.tally (M := Nat) (fun _ => 0) (I := fun _ => I)
    (fun e he _ _ _ _ _ _ _ _ _ _ hv hG hs hr hrun => hstep e he hv hG hs hr hrun) h0

/-- Some pool stands at `π` with a sound ledger. -/
def Context.Stands (ctx : Context) (π : Pubkey) (X : Nat) (w : World) : Prop :=
  ∃ p t m, Valid ctx π X w p t m

theorem Context.Reached.stands (h : ctx.Reached π es w) :
    ctx.Stands π (es.map Event.inflow).sum w := by
  obtain ⟨p, t, m, hv, -⟩ := h.by_true.invariant (I := fun _ => True)
    (fun _ _ _ _ _ _ _ _ _ _ _ _ _ _ _ _ _ => trivial) trivial
  exact ⟨p, t, m, hv⟩

end

end PercolatorStake
