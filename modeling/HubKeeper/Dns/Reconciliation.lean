import HubKeeper.Dns.Dialogue
import HubKeeper.Dns.Policy
import HubKeeper.Dns.Target

/-!
Bringing the record at a name to the desired one.

The zone is the one with the longest name around the name.  Only address and alias
records count; with two or more of them at the name nothing is done.  At most one
batch is applied, as the last call.
-/

namespace HubKeeper.Dns

/-- The last zone with the longest name. -/
def longest? : List Zone → Option Zone
  | [] => none
  | zone :: rest =>
      match longest? rest with
      | none => some zone
      | some best =>
          if Text.byteLength best.name.toList < Text.byteLength zone.name.toList then some zone
          else some best

/-- The zone in which a name is managed.  The name of a zone itself is not. -/
def chooseZone (zones : List Zone) (fqdn : String) : Except Error Zone :=
  match longest? (zones.filter fun zone => zone.contains fqdn) with
  | none => .error (.zoneNotFound fqdn)
  | some zone =>
      if zone.apex = fqdn then
        .error (.invalidInput ("'" ++ fqdn ++ "' is the apex of zone " ++ zone.name ++
          "; refusing to manage it"))
      else .ok zone

/-- A record name in the spelling of managed names. -/
def comparableName (name : String) : String :=
  qualified (Text.trimEndOf '.' name)

def managedAt (fqdn : String) (records : List Record) : List Record :=
  records.filter fun record => record.type.isManaged && comparableName record.name == fqdn

def soleRecord (fqdn : String) (records : List Record) : Except Error (Option Record) :=
  match managedAt fqdn records with
  | [] => .ok none
  | [record] => .ok (some record)
  | found => .error (.ambiguousRecords fqdn found.length)

namespace Reconciliation

def findZone (fqdn : String) : Dialogue Zone := do
  let zones ← Dialogue.call .listZones
  chooseZone zones fqdn

def findRecord (zone : Zone) (fqdn : String) : Dialogue (Option Record) := do
  let records ← Dialogue.call (.listRecords zone fqdn)
  soleRecord fqdn records

def expectedAddress (policy : Policy) : Dialogue Ipv4 :=
  match policy.expectedAddress with
  | some address => .ok address
  | none => Dialogue.call .publicAddress

def targetAddresses (type : RecordType) (value : String) : Dialogue (List Ipv4) :=
  match type with
  | .address => .ok (Ipv4.parse? value).toList
  | _ => Dialogue.call (.resolve (Text.trimEndOf '.' value))

/-- Requires a target to have exactly the expected address. -/
def verify (policy : Policy) (type : RecordType) (value : String) : Dialogue Unit := do
  let expected ← expectedAddress policy
  let resolved ← targetAddresses type value
  if resolved = [expected] then return ()
  else Dialogue.error (.targetMismatch value resolved expected)

inductive Plan
  | settled (outcome : Outcome)
  | change (batch : Batch) (outcome : Outcome)
deriving DecidableEq

/-- Decides how to get from the present record to the desired one. -/
def planUpdate (policy : Policy) (present : Option Record) (desired : Record) :
    Except Error Plan :=
  match present with
  | none => .ok (.change [⟨.create, desired⟩] (.created desired))
  | some current =>
      if current.agrees desired then
        if policy.allowExisting then .ok (.settled (.unchanged (some current)))
        else .error (.recordExists desired.name current.text)
      else if !policy.allowOverwrite then .error (.recordExists desired.name current.text)
      else if current.type = desired.type then
        .ok (.change [⟨.upsert, { desired with id := current.id }⟩] (.updated current desired))
      else
        -- The type of a record does not change, so the present one has to go.
        .ok (.change [⟨.delete, current⟩, ⟨.create, desired⟩] (.updated current desired))

def planRemoval (policy : Policy) (fqdn : String) (present : Option Record) :
    Except Error Plan :=
  match present with
  | some current => .ok (.change [⟨.delete, current⟩] (.deleted current))
  | none =>
      if policy.allowMissing then .ok (.settled (.unchanged none))
      else .error (.recordNotFound fqdn)

def carryOut (zone : Zone) : Plan → Dialogue Outcome
  | .settled outcome => .ok outcome
  | .change batch outcome => do
      Dialogue.call (.apply zone batch)
      return outcome

def decideUpdate (name target : String) (policy : Policy) : Dialogue (Zone × Plan) := do
  policy.validate
  let fqdn ← normalizeName name
  let zone ← findZone fqdn
  let (type, value) ← classifyTarget zone target
  if type = .canonicalName ∧ value = fqdn then
    Dialogue.error (.invalidInput ("'" ++ fqdn ++ "' cannot be an alias of itself"))
  else
    if policy.verifyTarget then verify policy type value
    let present ← findRecord zone fqdn
    let plan ← planUpdate policy present ⟨fqdn, type, policy.ttl, value, none⟩
    return (zone, plan)

def decideRemoval (name : String) (policy : Policy) : Dialogue (Zone × Plan) := do
  let fqdn ← normalizeName name
  let zone ← findZone fqdn
  let present ← findRecord zone fqdn
  let plan ← planRemoval policy fqdn present
  return (zone, plan)

/-- Makes a name point at a target. -/
def createOrUpdate (name target : String) (policy : Policy) : Dialogue Outcome := do
  let (zone, plan) ← decideUpdate name target policy
  carryOut zone plan

/-- Removes the managed record at a name. -/
def delete (name : String) (policy : Policy) : Dialogue Outcome := do
  let (zone, plan) ← decideRemoval name policy
  carryOut zone plan

end Reconciliation

end HubKeeper.Dns
