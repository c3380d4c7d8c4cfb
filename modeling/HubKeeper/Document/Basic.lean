import HubKeeper.Document.Path
import HubKeeper.Toml.Assembly
import HubKeeper.Toml.Edit
import HubKeeper.Toml.Printer

/-!
Settings documents: the `hub` table of a document holds the settings, everything
else in it is kept as it is.
-/

namespace HubKeeper

/-- A document whose `hub` table holds settings. -/
abbrev SettingsDocument := Toml.Document

namespace SettingsDocument

/-- Name of the table with the settings. -/
def hubName : String := "hub"

def nodeOf : Value → Toml.Node
  | .text s => .ofText s
  | .integer n => .scalar (.integer n) none .default
  | .float x => .scalar (.float x) none .default
  | .boolean b => .scalar (.boolean b) none .default
  | .textSet set => .array (set.items.map .ofText) .default
  | .textList items => .array (items.map .ofText) .default
  | .textMap map =>
      .inline (map.entries.map fun (key, s) => (.plain key, .ofText s)) .default

def hasHub (document : SettingsDocument) : Bool :=
  (document.root.find? hubName).isSome

/-- Entries of the `hub` table; nothing if there is none or it is something else. -/
def hub? (document : SettingsDocument) : Option Toml.Entries :=
  (document.root.find? hubName).bind Toml.Node.entries?

def entries (document : SettingsDocument) : Dict Json :=
  .ofList ((document.hub?.getD []).map fun (key, node) => (key.name, node.toJson))

/-- Names in the `hub` table that the schema does not declare, in document order. -/
def unknownKeys (schema : Schema) (document : SettingsDocument) : List String :=
  (Toml.Entries.names (document.hub?.getD [])).filter fun name => !schema.contains name

/-- The raw value at a path. -/
def get? (document : SettingsDocument) (path : SettingPath) : Option Json :=
  match document.hub?.bind fun hub => hub.find? path.setting with
  | none => none
  | some node =>
      match path.key with
      | none => some node.toJson
      | some key => (node.entries?.bind fun inner => inner.find? key).map Toml.Node.toJson

/-- Entries of the `hub` table after putting a node at a path, or removing what is
there. -/
def changeHub (path : SettingPath) (node : Option Toml.Node) (hub : Toml.Entries) :
    Toml.Entries :=
  match path.key, node with
  | none, some node => hub.put path.setting node
  | none, none => hub.erase path.setting
  | some key, some node =>
      (hub.ensureTable path.setting).within path.setting fun inner => inner.put key node
  | some key, none =>
      (hub.ensureTable path.setting).within path.setting fun inner => inner.erase key

def ensureHub (root : Toml.Entries) : Toml.Entries :=
  if (root.find? hubName).isSome then root
  else root ++ [(.plain hubName, .emptyTable)]

def set (document : SettingsDocument) (path : SettingPath) (node : Option Toml.Node) :
    Except Error SettingsDocument :=
  let root := ensureHub document.root
  match (root.find? hubName).bind Toml.Node.entries? with
  | none => .error (.invalidInput ("'" ++ hubName ++ "' is not a table"))
  | some _ => .ok { document with root := root.within hubName (changeHub path node) }

end SettingsDocument

end HubKeeper
