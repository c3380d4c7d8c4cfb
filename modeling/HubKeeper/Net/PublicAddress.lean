import HubKeeper.Error

/-!
A cached public address.

Getting the address looks it up unless an address is cached; a refresh always looks
it up.  A lookup that fails leaves the cache as it was.
-/

namespace HubKeeper

/-- Looks the address up, changing the state of who is asked. -/
abbrev AddressLookup (σ : Type) := σ → Except Error Ipv4 × σ

namespace PublicAddress

/-- The cached address, if there is one, and the state of who is asked. -/
structure Cache (σ : Type) where
  address : Option Ipv4
  source : σ

namespace Cache

def refresh (lookup : AddressLookup σ) (cache : Cache σ) : Except Error Ipv4 × Cache σ :=
  match lookup cache.source with
  | (.error e, source) => (.error e, { cache with source := source })
  | (.ok address, source) => (.ok address, ⟨some address, source⟩)

def get (lookup : AddressLookup σ) (cache : Cache σ) : Except Error Ipv4 × Cache σ :=
  match cache.address with
  | some address => (.ok address, cache)
  | none => cache.refresh lookup

def clear (cache : Cache σ) : Cache σ :=
  { cache with address := none }

end Cache

end PublicAddress

end HubKeeper
