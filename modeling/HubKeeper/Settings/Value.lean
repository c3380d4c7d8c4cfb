import HubKeeper.Collections.TextSet
import HubKeeper.Json.Printer
import HubKeeper.Settings.Kind

/-!
Typed values of settings, their JSON form and their plain text.
-/

namespace HubKeeper

inductive Value
  | text (s : String)
  | integer (n : Int)
  | float (x : Binary64)
  | boolean (b : Bool)
  | textSet (set : TextSet)
  | textList (items : List String)
  | textMap (map : Dict String)
deriving DecidableEq

namespace Value

def kind : Value → Kind
  | text _ => .text
  | integer _ => .integer
  | float _ => .float
  | boolean _ => .boolean
  | textSet _ => .textSet
  | textList _ => .textList
  | textMap _ => .textMap

def asText? : Value → Option String
  | text s => some s
  | _ => none

def asInteger? : Value → Option Int
  | integer n => some n
  | _ => none

def asBoolean? : Value → Option Bool
  | boolean b => some b
  | _ => none

def asSet? : Value → Option TextSet
  | textSet set => some set
  | _ => none

def asMap? : Value → Option (Dict String)
  | textMap map => some map
  | _ => none

/-- JSON form; a float that is not finite has none but null. -/
def toJson : Value → Json
  | text s => .str s
  | integer n => .ofInt n
  | float x => .ofDouble x
  | boolean b => .bool b
  | textSet set => .arr (set.items.map .str)
  | textList items => .arr (items.map .str)
  | textMap map => .ofDict (map.map fun _ s => .str s)

def booleanText (b : Bool) : String :=
  if b then "true" else "false"

/-- Text in environment variables: collections are joined by commas, a map is JSON
text. -/
def plain : Value → String
  | text s => s
  | integer n => Text.intText n
  | float x => x.text .plain
  | boolean b => booleanText b
  | textSet set => ",".intercalate set.items
  | textList items => ",".intercalate items
  | textMap map => (toJson (.textMap map)).compact

end Value

end HubKeeper
