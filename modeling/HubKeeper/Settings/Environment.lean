import HubKeeper.Json.Reader
import HubKeeper.Settings.Resolution

/-!
Settings from variables.

A variable whose name is a common lead followed by the name of a setting supplies
that setting; for a map, a name that goes on with two underscores and a key
supplies one entry.  Upper and lower case count as the same, except in the key.
All other variables are ignored.
-/

namespace HubKeeper.Environment

inductive Target
  | setting (name : String)
  | entry (name key : String)
  | nothing
deriving DecidableEq

def target (schema : Schema) (lead name : List Char) : Target :=
  match Text.dropLead (lead.map Char.toLower) (name.map Char.toLower) with
  | none => .nothing
  | some rest =>
      match Text.splitOnce ['_', '_'] rest with
      | none => if schema.contains (.ofList rest) then .setting (.ofList rest) else .nothing
      | some (setting, _) =>
          if (schema.get? (.ofList setting)).any fun s => s.kind = .textMap then
            let key := name.drop (lead.length + setting.length + 2)
            if key = [] then .nothing else .entry (.ofList setting) (.ofList key)
          else .nothing

structure Supplied where
  texts : Dict String
  entries : Dict (Dict String)

namespace Supplied

/-- Takes one more variable; a later one replaces an earlier one. -/
def add (schema : Schema) (lead : List Char) (supplied : Supplied)
    (assignment : String × String) : Supplied :=
  match target schema lead assignment.1.toList with
  | .setting name => { supplied with texts := supplied.texts.insert name assignment.2 }
  | .entry name key =>
      let entries := ((supplied.entries.get? name).getD .empty).insert key assignment.2
      { supplied with entries := supplied.entries.insert name entries }
  | .nothing => supplied

end Supplied

/-- The fields of the object that a text writes; none if it writes no object. -/
def objectFields (text : String) : List (String × Json) :=
  match Json.parse? text with
  | some (.obj fields) => fields
  | _ => []

/-- An object text with entries put into it. -/
def withEntries (text : Option String) (entries : Dict String) : Json :=
  let start := match text with
    | some text => objectFields text
    | none => []
  .obj (entries.entries.foldl (fun fields entry => insertEntry entry.1 (.str entry.2) fields) start)

def values (schema : Schema) (lead : String) (vars : List (String × String)) : Dict Json :=
  let supplied := vars.foldl (Supplied.add schema lead.toList) ⟨.empty, .empty⟩
  supplied.entries.entries.foldl
    (fun values entry =>
      values.insert entry.1 (withEntries (supplied.texts.get? entry.1) entry.2))
    (supplied.texts.map fun _ text => .str text)

def layer (schema : Schema) (lead : String) (vars : List (String × String)) : Layer where
  name := "environment"
  values := values schema lead vars

end HubKeeper.Environment
