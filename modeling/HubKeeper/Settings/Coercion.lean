import HubKeeper.Error
import HubKeeper.Json.Reader
import HubKeeper.Number.Scan
import HubKeeper.Settings.Value
import HubKeeper.Text.Blank

/-!
Raw values become typed ones.

Raw values come from structured sources, where they are JSON, and from plain text
sources, where everything is a string.  `Kind.coerce?` accepts for each kind the
JSON form of its values and the texts that people write for them.
-/

namespace HubKeeper

namespace Json

/-- Text of a scalar: strings as they are, null as nothing. -/
def scalarText? : Json → Option String
  | .str s => some s
  | .num n => some (.ofList (numberChars n))
  | .bool b => some (Value.booleanText b)
  | .null => some ""
  | .arr _ | .obj _ => none

/-- Text for messages: strings as they are, anything else as JSON, cut to eighty
characters. -/
def shortText (value : Json) : String :=
  let text := match value with
    | .str s => s.toList
    | other => other.compactChars
  if 80 < text.length then .ofList (text.take 77 ++ ['.', '.', '.']) else .ofList text

/-- Text of an item of a collection; null is none. -/
def itemText? (item : Json) : Option String :=
  if item.isNull then none else item.scalarText?

def arrayTexts? : Json → Option (List String)
  | .arr items => items.mapM itemText?
  | _ => none

/-- Items of a collection: an array, the text of one, or texts between commas. -/
def texts? : Json → Option (List String)
  | .arr items => items.mapM itemText?
  | .str s =>
      let trimmed := Text.trim s
      if trimmed.toList.head? = some '[' then (parse? trimmed).bind arrayTexts?
      else some (((Text.splitOn ',' trimmed).map Text.trim).filter (· != ""))
  | _ => none

def objectTexts? : Json → Option (Dict String)
  | .obj fields =>
      (fields.mapM fun (field : String × Json) => field.2.scalarText?.map fun text => (field.1, text)).map Dict.ofList
  | _ => none

/-- Entries of a map: an object or the text of one. -/
def textMap? : Json → Option (Dict String)
  | .str s => (parse? (Text.trim s)).bind objectTexts?
  | value => value.objectTexts?

end Json

namespace Kind

def booleanWord? (s : String) : Option Bool :=
  match Text.lower (Text.trim s) with
  | "true" | "yes" | "on" | "1" => some true
  | "false" | "no" | "off" | "0" => some false
  | _ => none

def coerce? : Kind → Json → Option Value
  | .text, .str s => some (.text s)
  | .text, .num n => some (.text (.ofList (Json.numberChars n)))
  | .text, .bool b => some (.text (Value.booleanText b))
  | .text, _ => none
  | .integer, .num n => n.int64?.map .integer
  | .integer, .str s => (Number.int? (Text.trimChars s.toList)).map .integer
  | .integer, _ => none
  | .float, .num n => some (.float n.toDouble)
  | .float, .str s => (Number.double? (Text.trimChars s.toList)).map .float
  | .float, _ => none
  | .boolean, .bool b => some (.boolean b)
  -- Of the numbers only zero and one stand for truth values.
  | .boolean, .num n =>
      match n.int64? with
      | some 0 => some (.boolean false)
      | some 1 => some (.boolean true)
      | _ => none
  | .boolean, .str s => (booleanWord? s).map .boolean
  | .boolean, _ => none
  | .textSet, raw => raw.texts?.map fun items => .textSet (.ofList items)
  | .textList, raw => raw.texts?.map .textList
  | .textMap, raw => raw.textMap?.map .textMap

def coerce (kind : Kind) (name : String) (raw : Json) : Except Error Value :=
  match kind.coerce? raw with
  | some value => .ok value
  | none => .error (.invalidSetting name raw.shortText ("expected a " ++ kind.title))

end Kind

end HubKeeper
