import HubKeeper.Dns.Dialogue
import HubKeeper.Collections.Dict

/-!
An account kept in memory.
-/

namespace HubKeeper.Dns

structure Placed where
  zone : String
  record : Record
deriving DecidableEq, Inhabited

structure MemoryAccount where
  zones : List Zone
  records : List Placed
  created : Nat
deriving Inhabited

namespace MemoryAccount

def recordsAt (account : MemoryAccount) (zone : Zone) (name : String) : List Record :=
  (account.records.filter fun p => p.zone == zone.id && p.record.name == name).map (·.record)

def recordsOf (account : MemoryAccount) (zone : Zone) : List Record :=
  (account.records.filter fun p => p.zone == zone.id).map (·.record)

/-- Puts records in place of the first one of a zone with an id, if there is one. -/
def replaceFirst? (zone : String) (id : Option String) (replacement : List Placed) :
    List Placed → Option (List Placed)
  | [] => none
  | p :: rest =>
      if p.zone = zone ∧ p.record.id = id then some (replacement ++ rest)
      else (replaceFirst? zone id replacement rest).map (p :: ·)

def createdId (number : Nat) : String :=
  "rec-" ++ Text.natText number

def unknownRecord : Error := .provider "memory" "unknown record"

def applyChange (zone : Zone) (account : MemoryAccount) (change : Change) :
    MemoryAccount × Except Error Unit :=
  let replaced (replacement : List Placed) : MemoryAccount × Except Error Unit :=
    match replaceFirst? zone.id change.record.id replacement account.records with
    | some records => ({ account with records := records }, .ok ())
    | none => (account, .error unknownRecord)
  match change.action with
  | .create =>
      let number := account.created + 1
      let record := { change.record with id := some (createdId number) }
      (⟨account.zones, account.records ++ [⟨zone.id, record⟩], number⟩, .ok ())
  | .upsert => replaced [⟨zone.id, change.record⟩]
  | .delete => replaced []

/-- Makes changes one by one, up to one that fails. -/
def applyAll (zone : Zone) : Batch → MemoryAccount → MemoryAccount × Except Error Unit
  | [], account => (account, .ok ())
  | change :: rest, account =>
      match applyChange zone account change with
      | (account, .error e) => (account, .error e)
      | (account, .ok ()) => applyAll zone rest account

end MemoryAccount

end HubKeeper.Dns
