import Mathlib

/-!
# Roles and who holds them

Keys hold roles, and one role administers the others.  A role is handed over on the
signature of its holder or of the administrator.  Once nobody administers, a role whose
holder does not sign stays where it is.
-/

namespace Roles

variable {K R : Type}

/-- `signer` may hand over `r`, where `nobody` is the key that cannot sign. -/
def MayHandOver (nobody : K) (admin : R) (h : R → K) (signer : K) (r : R) : Prop :=
  signer ≠ nobody ∧ (signer = h r ∨ signer = h admin)

instance [DecidableEq K] {nobody : K} {admin : R} {h : R → K} {signer : K} {r : R} :
    Decidable (MayHandOver nobody admin h signer r) :=
  inferInstanceAs (Decidable (_ ∧ (_ ∨ _)))

/-- Nobody administers the roles, and `k` holds those of `S`. -/
structure Sealed (nobody : K) (admin : R) (S : Set R) (k : K) (h : R → K) : Prop where
  burned : h admin = nobody
  held : ∀ r ∈ S, h r = k

variable {nobody k signer new : K} {admin r : R} {S : Set R} {h : R → K}

/-- A handover that others sign is of another role. -/
theorem Sealed.role_ne (hs : Sealed nobody admin S k h)
    (hand : MayHandOver nobody admin h signer r) (hne : signer ≠ k) : r ≠ admin ∧ r ∉ S := by
  obtain ⟨hlive, hholder | hadmin⟩ := hand
  · constructor
    · intro hr
      exact hlive (hholder.trans (hr ▸ hs.burned))
    · intro hr
      exact hne (hholder.trans (hs.held r hr))
  · exact (hlive (hadmin.trans hs.burned)).elim

/-- What others sign leaves the seal. -/
theorem Sealed.handOver [DecidableEq R] (hs : Sealed nobody admin S k h)
    (hand : MayHandOver nobody admin h signer r) (hne : signer ≠ k) :
    Sealed nobody admin S k (Function.update h r new) := by
  obtain ⟨hadmin, hmem⟩ := hs.role_ne hand hne
  constructor
  · rw [Function.update_of_ne hadmin.symm]
    exact hs.burned
  · intro r' hr'
    rw [Function.update_of_ne]
    · exact hs.held r' hr'
    · intro he
      exact hmem (he ▸ hr')

/-- To burn the administrator is to seal what `k` holds. -/
theorem Sealed.of_burn [DecidableEq R] (hadmin : admin ∉ S) (hheld : ∀ r ∈ S, h r = k) :
    Sealed nobody admin S k (Function.update h admin nobody) := by
  constructor
  · exact Function.update_self ..
  · intro r hr
    rw [Function.update_of_ne]
    · exact hheld r hr
    · intro he
      exact hadmin (he ▸ hr)

end Roles
