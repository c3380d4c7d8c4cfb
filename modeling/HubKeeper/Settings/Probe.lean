import HubKeeper.Error

/-!
Questions to the host machine, and computations that may ask them.

A probed computation has a result, which may be an error, and tells how many
questions were asked on the way.  The result never depends on that count.
-/

namespace HubKeeper

structure HostProbe where
  hostname : Except Error String
  lanAddress : Except Error Ipv4

namespace HostProbe

/-- A probe with fixed answers; what is not known fails. -/
def fixed (hostname : Option String) (lanAddress : Option Ipv4) : HostProbe where
  hostname := match hostname with
    | some name => .ok name
    | none => .error (.hostProbe "host name unavailable")
  lanAddress := match lanAddress with
    | some address => .ok address
    | none => .error (.hostProbe "LAN address unavailable")

end HostProbe

structure Lookups where
  hostname : Nat
  lanAddress : Nat
deriving DecidableEq, Inhabited

namespace Lookups

def none : Lookups := ⟨0, 0⟩

def plus (a b : Lookups) : Lookups :=
  ⟨a.hostname + b.hostname, a.lanAddress + b.lanAddress⟩

end Lookups

structure Probed (α : Type) where
  result : Except Error α
  lookups : Lookups

namespace Probed

def ok (a : α) : Probed α := ⟨.ok a, .none⟩

def error (e : Error) : Probed α := ⟨.error e, .none⟩

def ofExcept (result : Except Error α) : Probed α := ⟨result, .none⟩

protected def bind (first : Probed α) (next : α → Probed β) : Probed β :=
  match first.result with
  | .error e => ⟨.error e, first.lookups⟩
  | .ok a => ⟨(next a).result, first.lookups.plus (next a).lookups⟩

instance : Monad Probed where
  pure := ok
  bind := Probed.bind

instance : MonadLift (Except Error) Probed where
  monadLift := ofExcept

theorem result_bind (first : Probed α) (next : α → Probed β) :
    (first >>= next).result = first.result >>= fun a => (next a).result := by
  show (Probed.bind first next).result = _
  cases h : first.result <;> simp [Probed.bind, h, bind, Except.bind]

end Probed

namespace HostProbe

def askHostname (probe : HostProbe) : Probed String :=
  ⟨probe.hostname, ⟨1, 0⟩⟩

def askLanAddress (probe : HostProbe) : Probed Ipv4 :=
  ⟨probe.lanAddress, ⟨0, 1⟩⟩

end HostProbe

end HubKeeper
