import PercolatorStake.Effect.Accrual

/-!
# What the token movements do

Collateral into and out of the vault, LP minted and burned.  Each leaves the pool
standing, with the vault or the LP mint changed by exactly the amount.
-/

namespace PercolatorStake

open Result Word

section

variable {ctx : Context} {π : Pubkey} {w w' : World} {p : StakePool} {t : TokenAccount} {m : Mint}

/-- A movement changes tokens only, and no mint. -/
theorem moveTokens_tokensOnly {source dest : Pubkey} {amount : UInt64}
    (h : SplToken.moveTokens w source dest amount = .ok w') :
    World.TokensOnly w w' ∧ ∀ k, w'.mint k = w.mint k := by
  by_cases hne : source = dest
  · unfold SplToken.moveTokens at h
    simp only [if_pos hne, bind_eq_ok, ok_eq_ok] at h
    obtain ⟨_, -, _, -, _, -, _, -, rfl⟩ := h
    exact ⟨World.TokensOnly.refl w, fun _ => rfl⟩
  · obtain ⟨s, d, sA, dA, hs, -, hd, -, -, -, -, rfl⟩ := (SplToken.moveTokens_eq_ok hne).mp h
    have hd' := (SplToken.token_setToken_of_ne (w := w) (t := { s with amount := sA })
      (Ne.symm hne)).trans hd
    refine ⟨(SplToken.setToken_tokensOnly hs).trans (SplToken.setToken_tokensOnly hd'), fun k => ?_⟩
    rw [SplToken.mint_setToken hd', SplToken.mint_setToken hs]

/-! ## The token program changes tokens only -/

/-- A token account and a mint are rewritten where they are. -/
theorem SplToken.setMint_setToken_changes {k k' : Pubkey} {d₀ d : TokenAccount} {m₀ m : Mint}
    (hd : w.token k = some d₀) (hm : w.mint k' = some m₀) :
    World.TokensOnly w (SplToken.setMint (SplToken.setToken w k d) k' m) := by
  have hm' : (SplToken.setToken w k d).mint k' = some m₀ := (SplToken.mint_setToken hd).trans hm
  exact (SplToken.setToken_tokensOnly hd).trans (SplToken.setMint_tokensOnly hm')

theorem SplToken.processTransfer_changes {source dest authority : Pubkey} {amount : UInt64}
    (h : SplToken.processTransfer w source dest authority amount = .ok w') :
    World.TokensOnly w w' :=
  (moveTokens_tokensOnly (SplToken.processTransfer_eq_ok.mp h).2).1

theorem SplToken.processMintTo_changes {mint dest authority : Pubkey} {amount : UInt64}
    (h : SplToken.processMintTo w mint dest authority amount = .ok w') :
    World.TokensOnly w w' := by
  obtain ⟨_, _, _, _, hd, -, hm, -, -, -, -, -, rfl⟩ := SplToken.processMintTo_eq_ok.mp h
  exact SplToken.setMint_setToken_changes hd hm

theorem SplToken.processBurn_changes {account mint authority : Pubkey} {amount : UInt64}
    (h : SplToken.processBurn w account mint authority amount = .ok w') :
    World.TokensOnly w w' := by
  obtain ⟨_, _, _, _, hd, -, -, hm, -, -, -, -, rfl⟩ := SplToken.processBurn_eq_ok.mp h
  exact SplToken.setMint_setToken_changes hd hm

/-! ## Movements at a standing pool -/

theorem Standing.moveIn (h : Standing ctx π w p t m) {source : Pubkey} {amount : UInt64}
    (hne : source ≠ p.vault) (hmove : SplToken.moveTokens w source p.vault amount = .ok w') :
    ∃ v : UInt64, v.toNat = t.amount.toNat + amount.toNat ∧ World.TokensOnly w w' ∧
      Standing ctx π w' p { t with amount := v } m := by
  obtain ⟨hw, hmint⟩ := moveTokens_tokensOnly hmove
  obtain ⟨s, d, sA, dA, -, -, hd, -, -, -, hdA, rfl⟩ := (SplToken.moveTokens_eq_ok hne).mp hmove
  obtain rfl : d = t := Option.some_inj.mp (hd.symm.trans h.vault_eq)
  exact ⟨dA, hdA, hw, h.tokens hw SplToken.token_setToken_self ((hmint _).trans h.mint_eq)⟩

theorem Standing.moveOut (h : Standing ctx π w p t m) {dest : Pubkey} {amount : UInt64}
    (hne : p.vault ≠ dest) (hmove : SplToken.moveTokens w p.vault dest amount = .ok w') :
    ∃ v : UInt64, t.amount.toNat = v.toNat + amount.toNat ∧ World.TokensOnly w w' ∧
      Standing ctx π w' p { t with amount := v } m := by
  obtain ⟨hw, hmint⟩ := moveTokens_tokensOnly hmove
  obtain ⟨s, d, sA, dA, hs, -, -, -, -, hsA, -, rfl⟩ := (SplToken.moveTokens_eq_ok hne).mp hmove
  obtain rfl : s = t := Option.some_inj.mp (hs.symm.trans h.vault_eq)
  refine ⟨sA, hsA, hw, h.tokens hw ?_ ((hmint _).trans h.mint_eq)⟩
  rw [SplToken.token_setToken_of_ne hne, SplToken.token_setToken_self]

/-- The vault is not an LP account. -/
theorem Standing.vault_ne_of_lp (h : Standing ctx π w p t m) {k : Pubkey} {t' : TokenAccount}
    (hk : w.token k = some t') (hm : t'.mint = p.lpMint) : p.vault ≠ k := by
  rintro rfl
  obtain rfl : t = t' := Option.some_inj.mp (h.vault_eq.symm.trans hk)
  exact h.chartered.mints (hm.symm.trans h.vault_mint)

theorem Standing.mintTo (h : Standing ctx π w p t m) {dest authority : Pubkey} {amount : UInt64}
    (hmint : SplToken.processMintTo w p.lpMint dest authority amount = .ok w') :
    ∃ s : UInt64, s.toNat = m.supply.toNat + amount.toNat ∧ World.TokensOnly w w' ∧
      Standing ctx π w' p t { m with supply := s } := by
  obtain ⟨d, m₀, dA, s, hd, -, hm, -, hdm, -, -, hs, rfl⟩ :=
    SplToken.processMintTo_eq_ok.mp hmint
  obtain rfl : m = m₀ := Option.some_inj.mp (h.mint_eq.symm.trans hm)
  have hm' : (SplToken.setToken w dest { d with amount := dA }).mint p.lpMint = some m :=
    (SplToken.mint_setToken hd).trans hm
  have hw := SplToken.setMint_setToken_changes (d := { d with amount := dA })
    (m := { m with supply := s }) hd hm
  refine ⟨s, hs, hw, h.tokens hw ?_ SplToken.mint_setMint_self⟩
  rw [SplToken.token_setMint hm', SplToken.token_setToken_of_ne (h.vault_ne_of_lp hd hdm)]
  exact h.vault_eq

theorem Standing.burn (h : Standing ctx π w p t m) {account authority : Pubkey}
    {amount : UInt64} (hburn : SplToken.processBurn w account p.lpMint authority amount = .ok w') :
    ∃ s : UInt64, m.supply.toNat = s.toNat + amount.toNat ∧ World.TokensOnly w w' ∧
      Standing ctx π w' p t { m with supply := s } := by
  obtain ⟨d, m₀, dA, s, hd, -, -, hm, -, hdm, -, hs, rfl⟩ := SplToken.processBurn_eq_ok.mp hburn
  obtain rfl : m = m₀ := Option.some_inj.mp (h.mint_eq.symm.trans hm)
  have hm' : (SplToken.setToken w account { d with amount := dA }).mint p.lpMint = some m :=
    (SplToken.mint_setToken hd).trans hm
  have hw := SplToken.setMint_setToken_changes (d := { d with amount := dA })
    (m := { m with supply := s }) hd hm
  refine ⟨s, hs, hw, h.tokens hw ?_ SplToken.mint_setMint_self⟩
  rw [SplToken.token_setMint hm', SplToken.token_setToken_of_ne (h.vault_ne_of_lp hd hdm)]
  exact h.vault_eq

/-- A transfer into the vault on somebody else's signature. -/
theorem Standing.transferIn (h : Standing ctx π w p t m) {source authority : Pubkey}
    {amount : UInt64} (hauth : authority ≠ ctx.vaultAuthority π)
    (htransfer : SplToken.processTransfer w source p.vault authority amount = .ok w') :
    ∃ v : UInt64, v.toNat = t.amount.toNat + amount.toNat ∧ World.TokensOnly w w' ∧
      Standing ctx π w' p { t with amount := v } m := by
  obtain ⟨⟨s, hs, -, ho⟩, hmove⟩ := SplToken.processTransfer_eq_ok.mp htransfer
  refine h.moveIn ?_ hmove
  rintro rfl
  obtain rfl : t = s := Option.some_inj.mp (h.vault_eq.symm.trans hs)
  exact hauth (ho.symm.trans h.vault_owner)

end

end PercolatorStake
