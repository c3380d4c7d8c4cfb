import HubKeeper.Json.Basic

/-!
Records in JSON.

A record is an object with known fields, in any order, or an array with the values
of its fields in order of declaration.  Fields of an object that are not known do
not count, but a known one may not occur twice; an array may not have more items
than the record has fields.
-/

namespace HubKeeper.Json

def valuesOf (name : String) (fields : List (String × Json)) : List Json :=
  (fields.filter fun field => field.1 == name).map (·.2)

/-- What a record holds for a field; a missing one is missing from an object or
beyond the end of an array. -/
inductive Slot
  | value (json : Json)
  | missing (inArray : Bool)

def record? (names : List String) : Json → Option (List Slot)
  | .obj fields =>
      names.mapM fun name =>
        match valuesOf name fields with
        | [] => some (.missing false)
        | [value] => some (.value value)
        | _ => none
  -- An array gives the fields in order, perhaps without the last ones.
  | .arr items =>
      if names.length < items.length then none
      else
        some ((List.range names.length).map fun i =>
          match items[i]? with
          | some value => .value value
          | none => .missing true)
  | _ => none

def text? : Json → Option String
  | .str s => some s
  | _ => none

def boolean? : Json → Option Bool
  | .bool b => some b
  | _ => none

def array? : Json → Option (List Json)
  | .arr items => some items
  | _ => none

def natBelow? (bound : Nat) : Json → Option Nat
  | .num (.int n) => if 0 ≤ n && n < bound then some n.toNat else none
  | _ => none

/-- An integer of 32 bits without sign. -/
def word? : Json → Option Nat :=
  natBelow? UInt32.size

/-- An integer of 64 bits with sign. -/
def int64? : Json → Option Int
  | .num n => n.int64?
  | _ => none

def listOf? (read : Json → Option α) (json : Json) : Option (List α) :=
  json.array?.bind fun items => items.mapM read

namespace Slot

def required? (read : Json → Option α) : Slot → Option α
  | value json => read json
  | missing _ => none

def withDefault? (default : α) (read : Json → Option α) : Slot → Option α
  | value json => read json
  | missing _ => some default

def nullable? (read : Json → Option α) (json : Json) : Option (Option α) :=
  if json.isNull then some none else (read json).map some

/-- A field that may be null, and may be missing from an object. -/
def optional? (read : Json → Option α) : Slot → Option (Option α)
  | value json => nullable? read json
  | missing inArray => if inArray then none else some none

end Slot

end HubKeeper.Json
