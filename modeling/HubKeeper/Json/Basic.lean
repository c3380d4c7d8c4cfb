import HubKeeper.Collections.Dict
import HubKeeper.Number.Scan

/-!
JSON values.

A number is an integer or a double: a literal without fraction and exponent is an
integer as long as it fits 64 bits, signed or unsigned.  The fields of an object
are kept in the order given; `canonical` sorts them and keeps the last of several
with one key, at every depth, which is the form in which values are compared and
printed.
-/

namespace HubKeeper

inductive JsonNumber
  | int (value : Int)
  | double (value : Binary64)
deriving DecidableEq, Inhabited

namespace JsonNumber

/-- The integer a number is, if it fits 64 bits with sign. -/
def int64? : JsonNumber → Option Int
  | int n => if Number.fitsInt64 n then some n else none
  | double _ => none

def toDouble : JsonNumber → Binary64
  | int n => .ofInt n
  | double x => x

end JsonNumber

inductive Json
  | null
  | bool (value : Bool)
  | num (value : JsonNumber)
  | str (value : String)
  | arr (items : List Json)
  | obj (fields : List (String × Json))
deriving Inhabited

namespace Json

mutual

def decEq : (a b : Json) → Decidable (a = b)
  | .null, .null => isTrue rfl
  | .bool a, .bool b =>
      if h : a = b then isTrue (h ▸ rfl) else isFalse (fun same => h (by cases same; rfl))
  | .num a, .num b =>
      if h : a = b then isTrue (h ▸ rfl) else isFalse (fun same => h (by cases same; rfl))
  | .str a, .str b =>
      if h : a = b then isTrue (h ▸ rfl) else isFalse (fun same => h (by cases same; rfl))
  | .arr a, .arr b =>
      match decEqItems a b with
      | isTrue h => isTrue (h ▸ rfl)
      | isFalse h => isFalse (fun same => h (by cases same; rfl))
  | .obj a, .obj b =>
      match decEqFields a b with
      | isTrue h => isTrue (h ▸ rfl)
      | isFalse h => isFalse (fun same => h (by cases same; rfl))
  | .null, .bool _ | .null, .num _ | .null, .str _ | .null, .arr _ | .null, .obj _
  | .bool _, .null | .bool _, .num _ | .bool _, .str _ | .bool _, .arr _ | .bool _, .obj _
  | .num _, .null | .num _, .bool _ | .num _, .str _ | .num _, .arr _ | .num _, .obj _
  | .str _, .null | .str _, .bool _ | .str _, .num _ | .str _, .arr _ | .str _, .obj _
  | .arr _, .null | .arr _, .bool _ | .arr _, .num _ | .arr _, .str _ | .arr _, .obj _
  | .obj _, .null | .obj _, .bool _ | .obj _, .num _ | .obj _, .str _ | .obj _, .arr _ =>
      isFalse (fun same => by cases same)

def decEqItems : (a b : List Json) → Decidable (a = b)
  | [], [] => isTrue rfl
  | [], _ :: _ => isFalse (fun same => by cases same)
  | _ :: _, [] => isFalse (fun same => by cases same)
  | a :: as, b :: bs =>
      match decEq a b, decEqItems as bs with
      | isTrue h, isTrue hs => isTrue (h ▸ hs ▸ rfl)
      | isFalse h, _ => isFalse (fun same => h (by cases same; rfl))
      | _, isFalse hs => isFalse (fun same => hs (by cases same; rfl))

def decEqFields : (a b : List (String × Json)) → Decidable (a = b)
  | [], [] => isTrue rfl
  | [], _ :: _ => isFalse (fun same => by cases same)
  | _ :: _, [] => isFalse (fun same => by cases same)
  | (k, a) :: as, (l, b) :: bs =>
      if hk : k = l then
        match decEq a b, decEqFields as bs with
        | isTrue h, isTrue hs => isTrue (hk ▸ h ▸ hs ▸ rfl)
        | isFalse h, _ => isFalse (fun same => h (by cases same; rfl))
        | _, isFalse hs => isFalse (fun same => hs (by cases same; rfl))
      else isFalse (fun same => hk (by cases same; rfl))

end

instance : DecidableEq Json := decEq

def isNull : Json → Bool
  | .null => true
  | _ => false

/-- Value of a field; null if the field is missing or the value is no object. -/
def field (value : Json) (key : String) : Json :=
  match value with
  | .obj fields => (lookupEntry key fields).getD .null
  | _ => .null

/-- Fields put in ascending order; of several with one key the last counts. -/
def sortFields (fields : List (String × Json)) : List (String × Json) :=
  fields.foldl (fun sorted field => insertEntry field.1 field.2 sorted) []

mutual

def canonical : Json → Json
  | .arr items => .arr (canonicalItems items)
  | .obj fields => .obj (sortFields (canonicalFields fields))
  | value => value

def canonicalItems : List Json → List Json
  | [] => []
  | item :: rest => item.canonical :: canonicalItems rest

def canonicalFields : List (String × Json) → List (String × Json)
  | [] => []
  | (key, value) :: rest => (key, value.canonical) :: canonicalFields rest

end

def ofDict (dict : Dict Json) : Json :=
  .obj dict.entries

def ofInt (n : Int) : Json :=
  .num (.int n)

/-- A finite double, or null. -/
def ofDouble (x : Binary64) : Json :=
  if x.isFinite then .num (.double x) else .null

def ofOption (f : α → Json) : Option α → Json
  | none => .null
  | some a => f a

end Json

end HubKeeper
