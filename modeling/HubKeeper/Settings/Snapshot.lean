import HubKeeper.Settings.Schema
import HubKeeper.Text.Listing

/-!
Resolved settings: a value for every setting that has one, and the names that are
never shown.  Public renderings put a placeholder for the values of those names.
-/

namespace HubKeeper

def redactedText : String := "<redacted>"

structure Snapshot where
  values : Dict Value
  sensitive : TextSet
deriving DecidableEq

namespace Snapshot

def get? (snapshot : Snapshot) (name : String) : Option Value :=
  snapshot.values.get? name

def text? (snapshot : Snapshot) (name : String) : Option String :=
  (snapshot.get? name).bind Value.asText?

def integer? (snapshot : Snapshot) (name : String) : Option Int :=
  (snapshot.get? name).bind Value.asInteger?

def boolean? (snapshot : Snapshot) (name : String) : Option Bool :=
  (snapshot.get? name).bind Value.asBoolean?

def set? (snapshot : Snapshot) (name : String) : Option TextSet :=
  (snapshot.get? name).bind Value.asSet?

def map? (snapshot : Snapshot) (name : String) : Option (Dict String) :=
  (snapshot.get? name).bind Value.asMap?

def size (snapshot : Snapshot) : Nat :=
  snapshot.values.size

def isSensitive (snapshot : Snapshot) (name : String) : Bool :=
  snapshot.sensitive.items.contains name

def toJson (snapshot : Snapshot) : Json :=
  .ofDict (snapshot.values.map fun _ value => value.toJson)

def toRedactedJson (snapshot : Snapshot) : Json :=
  .ofDict (snapshot.values.map fun name value =>
    if snapshot.isSensitive name then .str redactedText else value.toJson)

end Snapshot

namespace Value

def listing : Value → String
  | text s => "Str(" ++ Text.listed s ++ ")"
  | integer n => "Int(" ++ Text.intText n ++ ")"
  | float x => "Float(" ++ x.text .diagnostic ++ ")"
  | boolean b => "Bool(" ++ booleanText b ++ ")"
  | textSet set => "StrSet(" ++ Text.braced (set.items.map Text.listed) ++ ")"
  | textList items => "StrList(" ++ Text.bracketed (items.map Text.listed) ++ ")"
  | textMap map =>
      "StrMap(" ++ Text.braced (map.entries.map fun (key, s) =>
        Text.listed key ++ ": " ++ Text.listed s) ++ ")"

end Value

namespace Snapshot

/-- Diagnostic listing without the values that are not shown. -/
def listing (snapshot : Snapshot) : String :=
  Text.braced (snapshot.values.entries.map fun (name, value) =>
    Text.listed name ++ ": " ++
      if snapshot.isSensitive name then Text.listed redactedText else value.listing)

end Snapshot

end HubKeeper
