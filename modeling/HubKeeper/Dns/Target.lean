import HubKeeper.Dns.Record
import HubKeeper.Error

/-!
Names to manage, and what they are to point at.
-/

namespace HubKeeper.Dns

/-- Fewest labels of a name that is managed. -/
def minLabels : Nat := 3

/-- A text without the point at its end, if it has one. -/
def withoutPoint (s : String) : String :=
  if s.toList.getLast? = some '.' then .ofList s.toList.dropLast else s

def qualified (bare : String) : String :=
  Text.lower bare ++ "."

def normalizeName (name : String) : Except Error String :=
  let bare := Text.lower (withoutPoint (Text.trim name))
  if bare = "" || bare.toList.head? = some '.' then
    .error (.invalidInput ("'" ++ name ++ "' is not a DNS name"))
  else
    let labels := Text.splitOn '.' bare
    match labels.find? fun label => !isLabel label with
    | some label =>
        .error (.invalidInput ("'" ++ name ++ "' has an invalid label '" ++ label ++ "'"))
    | none =>
        if labels.length < minLabels then
          .error (.invalidInput ("'" ++ name ++ "' needs at least " ++ Text.natText minLabels ++
            " labels"))
        else .ok (qualified bare)

/-- Type and value of the record for a target: an address, a label in the zone or a
name. -/
def classifyTarget (zone : Zone) (target : String) : Except Error (RecordType × String) :=
  let target := Text.trim target
  if target = "" || target = "." then .error (.invalidInput "DNS target cannot be empty")
  else
    match Ipv4.parse? target with
    | some address => .ok (.address, address.text)
    | none =>
        -- Only one point is left out, so a second one at the end stays in the name.
        let bare := Text.lower (withoutPoint target)
        if !bare.toList.contains '.' then
          if isLabel bare then .ok (.canonicalName, bare ++ "." ++ zone.apex)
          else .error (.invalidInput ("'" ++ target ++ "' is not a valid DNS label"))
        else if isName bare then .ok (.canonicalName, qualified bare)
        else .error (.invalidInput ("'" ++ target ++ "' is not a valid DNS name"))

end HubKeeper.Dns
