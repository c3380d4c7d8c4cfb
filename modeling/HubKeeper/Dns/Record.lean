import HubKeeper.Dns.Name
import HubKeeper.Text.Ascii
import HubKeeper.Text.Blank

/-!
Zones, records and changes of records.

The name of a record is fully qualified, in lower case with a point at its end; the
name of a zone has no point at its end.
-/

namespace HubKeeper.Dns

structure Zone where
  id : String
  name : String
deriving DecidableEq, Inhabited

namespace Zone

def named (id name : String) : Zone :=
  ⟨id, Text.lower (Text.trimEndOf '.' name)⟩

/-- The name of the zone itself, fully qualified. -/
def apex (zone : Zone) : String :=
  zone.name ++ "."

/-- What stands before an ending, if the text has it. -/
def beforeEnding? (ending cs : List Char) : Option (List Char) :=
  (Text.dropLead ending.reverse cs.reverse).map List.reverse

/-- Whether a name is that of the zone or lies below it. -/
def contains (zone : Zone) (name : String) : Bool :=
  let bare := Text.trimEndOf '.' name
  bare == zone.name ||
    ((beforeEnding? zone.name.toList bare.toList).bind List.getLast?) == some '.'

end Zone

/-- Type of a record; address and alias are managed, all others are left alone. -/
inductive RecordType
  | address
  | canonicalName
  | other (name : String)
deriving DecidableEq, Inhabited

namespace RecordType

def named (name : String) : RecordType :=
  match Text.upper name with
  | "A" => .address
  | "CNAME" => .canonicalName
  | name => .other name

def text : RecordType → String
  | address => "A"
  | canonicalName => "CNAME"
  | other name => name

def isManaged : RecordType → Bool
  | address | canonicalName => true
  | other _ => false

end RecordType

structure Record where
  name : String
  type : RecordType
  ttl : Nat
  value : String
  id : Option String
deriving DecidableEq, Inhabited

namespace Record

/-- Whether two records publish the same, whatever their ids. -/
def agrees (a b : Record) : Bool :=
  a.name == b.name && a.type == b.type && a.ttl == b.ttl && a.value == b.value

def text (record : Record) : String :=
  record.name ++ " " ++ Text.natText record.ttl ++ " " ++ record.type.text ++ " " ++ record.value

end Record

inductive Action
  | create
  | upsert
  | delete
deriving DecidableEq, Inhabited

/-- One change; an upsert replaces the record with the same id. -/
structure Change where
  action : Action
  record : Record
deriving DecidableEq, Inhabited

/-- Changes that are made in one call, in order. -/
abbrev Batch := List Change

inductive Outcome
  | created (record : Record)
  | updated (previous record : Record)
  | deleted (record : Record)
  | unchanged (record : Option Record)
deriving DecidableEq, Inhabited

namespace Outcome

def isNoop : Outcome → Bool
  | unchanged _ => true
  | _ => false

def isApplied (outcome : Outcome) : Bool :=
  !outcome.isNoop

def text : Outcome → String
  | created record => "created " ++ record.text
  | updated previous record => "updated " ++ record.text ++ " (was " ++ previous.text ++ ")"
  | deleted record => "deleted " ++ record.text
  | unchanged (some record) => "unchanged " ++ record.text
  | unchanged none => "unchanged (no record)"

end Outcome

end HubKeeper.Dns
