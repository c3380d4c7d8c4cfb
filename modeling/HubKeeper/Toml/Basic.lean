import HubKeeper.Json.Basic
import HubKeeper.Number.Binary64
import HubKeeper.Text.Ascii

/-!
Settings documents as trees that remember how they were written.

A key or value carries its spelling and the blanks and comments around it.  Both
are optional: a part that was made by an edit has none and is printed in the
default layout.  Tables are written under a header, by dotted keys or inline.
-/

namespace HubKeeper.Toml

abbrev Raw := List Char

/-- Blanks and comments before and after a part; without them the default layout
applies. -/
structure Decor where
  before : Option Raw
  after : Option Raw
deriving DecidableEq, Inhabited

namespace Decor

def default : Decor := ⟨none, none⟩

def tight : Decor := ⟨some [], some []⟩

end Decor

/-- A key with its spelling; `leaf` is around the whole dotted key that ends in it,
`dotted` around the key between points. -/
structure Key where
  name : String
  spelling : Option Raw
  leaf : Decor
  dotted : Decor
deriving DecidableEq, Inhabited

namespace Key

def plain (name : String) : Key := ⟨name, none, .default, .default⟩

def reset (key : Key) : Key := plain key.name

end Key

structure Date where
  year : Nat
  month : Nat
  day : Nat
deriving DecidableEq, Inhabited

structure Time where
  hour : Nat
  minute : Nat
  second : Nat
  nanosecond : Nat
deriving DecidableEq, Inhabited

/-- Distance from universal time in minutes. -/
inductive Offset
  | universal
  | minutes (n : Int)
deriving DecidableEq, Inhabited

structure Moment where
  date : Option Date
  time : Option Time
  offset : Option Offset
deriving DecidableEq, Inhabited

inductive Scalar
  | text (s : String)
  | integer (n : Int)
  | float (x : Binary64)
  | boolean (b : Bool)
  | moment (m : Moment)
deriving DecidableEq, Inhabited

structure ArrayLayout where
  trailing : Raw
  comma : Bool
  decor : Decor
deriving DecidableEq, Inhabited

/-- Layout of an inline table.  A dotted one is written by dotted keys of the
table around it. -/
structure InlineLayout where
  opening : Raw
  dotted : Bool
  decor : Decor
deriving DecidableEq, Inhabited

/-- Layout of a table.  An implicit one has no header of its own, a dotted one is
written by dotted keys; the position orders headers. -/
structure TableLayout where
  implicit : Bool
  dotted : Bool
  position : Option Nat
  decor : Decor
deriving DecidableEq, Inhabited

inductive Node
  | scalar (value : Scalar) (spelling : Option Raw) (decor : Decor)
  | array (items : List Node) (layout : ArrayLayout)
  | inline (entries : List (Key × Node)) (layout : InlineLayout)
  | table (entries : List (Key × Node)) (layout : TableLayout)
  | tables (elements : List Node)

instance : Inhabited Node := ⟨.tables []⟩

/-- Entries of a table, in the order written. -/
abbrev Entries := List (Key × Node)

namespace TableLayout

def default : TableLayout := ⟨false, false, none, .default⟩

end TableLayout

namespace InlineLayout

def default : InlineLayout := ⟨[], false, .default⟩

end InlineLayout

namespace ArrayLayout

def default : ArrayLayout := ⟨[], false, .default⟩

end ArrayLayout

namespace Entries

def find? (entries : Entries) (name : String) : Option Node :=
  (List.find? (fun entry => entry.1.name == name) entries).map (·.2)

def erase (entries : Entries) (name : String) : Entries :=
  entries.filter fun entry => entry.1.name != name

def modify (entries : Entries) (name : String) (f : Key × Node → Key × Node) : Entries :=
  entries.map fun entry => if entry.1.name = name then f entry else entry

def names (entries : Entries) : List String :=
  entries.map (·.1.name)

end Entries

namespace Node

def entries? : Node → Option Entries
  | .inline entries _ | .table entries _ => some entries
  | _ => none

def withEntries (node : Node) (entries : Entries) : Node :=
  match node with
  | .inline _ layout => .inline entries layout
  | .table _ layout => .table entries layout
  | other => other

/-- A value, which stands behind an equals sign or in an array. -/
def isValue : Node → Bool
  | .scalar .. | .array .. | .inline .. => true
  | .table .. | .tables .. => false

def decor : Node → Decor
  | .scalar _ _ decor => decor
  | .array _ layout => layout.decor
  | .inline _ layout => layout.decor
  | .table .. | .tables .. => .default

def withDecor (decor : Decor) : Node → Node
  | .scalar value spelling _ => .scalar value spelling decor
  | .array items layout => .array items { layout with decor := decor }
  | .inline entries layout => .inline entries { layout with decor := decor }
  | other => other

/-- A table without entries, to be written under a header. -/
def emptyTable : Node := .table [] .default

def emptyInline : Node := .inline [] .default

def ofText (s : String) : Node := .scalar (.text s) none .default

end Node

namespace Moment

def dateChars (d : Date) : List Char :=
  Text.paddedChars 4 d.year ++ '-' :: Text.paddedChars 2 d.month ++ '-' :: Text.paddedChars 2 d.day

/-- Nanoseconds as a fraction without zeros at its end. -/
def fractionChars (nanosecond : Nat) : List Char :=
  if nanosecond = 0 then []
  else '.' :: ((Text.paddedChars 9 nanosecond).reverse.dropWhile (· == '0')).reverse

def timeChars (t : Time) : List Char :=
  Text.paddedChars 2 t.hour ++ ':' :: Text.paddedChars 2 t.minute ++ ':' ::
    Text.paddedChars 2 t.second ++ fractionChars t.nanosecond

def offsetChars : Offset → List Char
  | .universal => ['Z']
  | .minutes n =>
      (if n < 0 then '-' else '+') :: Text.paddedChars 2 (n.natAbs / 60) ++ ':' ::
        Text.paddedChars 2 (n.natAbs % 60)

def chars (m : Moment) : List Char :=
  (m.date.elim [] dateChars) ++
    (if m.date.isSome && m.time.isSome then ['T'] else []) ++
    (m.time.elim [] timeChars) ++ (m.offset.elim [] offsetChars)

end Moment

namespace Scalar

def toJson : Scalar → Json
  | text s => .str s
  | integer n => .ofInt n
  | float x => .ofDouble x
  | boolean b => .bool b
  | moment m => .str (.ofList m.chars)

end Scalar

namespace Node

mutual

/-- The value as JSON; moments become text, floats that are not finite null. -/
def toJson : Node → Json
  | .scalar value _ _ => value.toJson
  | .array items _ => .arr (itemsToJson items)
  | .inline entries _ => .obj (Json.sortFields (entriesToJson entries))
  | .table entries _ => .obj (Json.sortFields (entriesToJson entries))
  | .tables elements => .arr (itemsToJson elements)

def itemsToJson : List Node → List Json
  | [] => []
  | item :: rest => item.toJson :: itemsToJson rest

def entriesToJson : List (Key × Node) → List (String × Json)
  | [] => []
  | (key, node) :: rest => (key.name, node.toJson) :: entriesToJson rest

end

end Node

structure Document where
  root : Entries
  trailing : Raw

namespace Document

def find? (document : Document) (name : String) : Option Node :=
  document.root.find? name

end Document

end HubKeeper.Toml
