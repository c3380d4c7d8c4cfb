import HubKeeper.Document.Canonical
import HubKeeper.Files.Replacement
import HubKeeper.Settings.Coercion
import HubKeeper.Settings.Resolution

/-!
The store of settings: a document in a file, and a working copy of it in memory.

The first access reads the file, or writes the canonical document if there is no
file.  Changes are made to the working copy, which is written back on request and
may be dropped at any time.  An operation that fails leaves file and working copy
as they were, except that the document may have been read.
-/

namespace HubKeeper

/-- Where a working copy stands relative to its file. -/
inductive Freshness
  | loaded
  | dirty
  | persisted
deriving DecidableEq, Inhabited

structure WorkingCopy where
  document : SettingsDocument
  freshness : Freshness

structure Store where
  path : String
  schema : Schema

namespace Store

/-- The files, and the working copy if the document has been read. -/
structure State where
  files : FileTree
  copy : Option WorkingCopy

namespace State

def fresh (files : FileTree) : State := ⟨files, none⟩

def clear (state : State) : State := { state with copy := none }

end State

def checkNames (store : Store) (document : SettingsDocument) : Except Error Unit :=
  match document.unknownKeys store.schema with
  | [] => .ok ()
  | name :: _ =>
      .error (.unknownSetting name
        ("found in " ++ store.path ++ " but not part of the settings schema"))

def readDocument (store : Store) (text : String) : Except Error SettingsDocument :=
  match Toml.Document.parse? text with
  | none => .error (.document store.path "TOML parse error")
  | some document =>
      match store.checkNames document with
      | .error e => .error e
      | .ok () => .ok document

def seed (store : Store) (files : FileTree) : FileTree × Except Error SettingsDocument :=
  match SettingsDocument.canonical store.schema with
  | .error e => (files, .error e)
  | .ok document =>
      match files.replaceText store.path document.text with
      | (files, .error e) => (files, .error e)
      | (files, .ok ()) => (files, .ok document)

/-- Reads the document, or seeds it if there is no file. -/
def readOrSeed (store : Store) (files : FileTree) : FileTree × Except Error SettingsDocument :=
  match files.readText store.path with
  | .ok text => (files, store.readDocument text)
  | .error .notFound => store.seed files
  | .error fault => (files, .error (.document store.path fault.message))

/-- The working copy, made if there is none. -/
def access (store : Store) (state : State) : State × Except Error WorkingCopy :=
  match state.copy with
  | some copy => (state, .ok copy)
  | none =>
      match store.readOrSeed state.files with
      | (files, .error e) => (⟨files, none⟩, .error e)
      | (files, .ok document) =>
          let copy := ⟨document, .loaded⟩
          (⟨files, some copy⟩, .ok copy)

def observe (store : Store) (state : State) (view : SettingsDocument → α) :
    State × Except Error α :=
  match store.access state with
  | (state, .error e) => (state, .error e)
  | (state, .ok copy) => (state, .ok (view copy.document))

def load (store : Store) (state : State) : State × Except Error SettingsDocument :=
  store.observe state id

def get (store : Store) (state : State) (path : String) : State × Except Error (Option Json) :=
  match SettingPath.parse store.schema path with
  | .error e => (state, .error e)
  | .ok path => store.observe state fun document => document.get? path

def layer (store : Store) (state : State) : State × Except Error Layer :=
  store.observe state fun document => ⟨"settings document " ++ store.path, document.entries⟩

def shownValue (setting : Setting) (value : Json) : String :=
  if setting.sensitive then redactedText else value.compact

/-- What is stored for a raw value at a path: null removes, an entry of a map is
text, and everything else is a typed value. -/
def stored (setting : Setting) (path : SettingPath) (value : Json) :
    Except Error (Option Value) :=
  if value.isNull then .ok none
  else if path.key.isSome then
    match value.scalarText? with
    | some text => .ok (some (.text text))
    | none =>
        .error (.invalidSetting path.text (shownValue setting value) "map entries must be scalars")
  else
    match setting.kind.coerce path.setting value with
    | .ok typed => .ok (some typed)
    -- Coercion quotes the value, which may be secret.
    | .error (.invalidSetting name _ constraint) =>
        .error (.invalidSetting name (shownValue setting value) constraint)
    | .error e => .error e

def checked (store : Store) (path : String) (value : Json) :
    Except Error (SettingPath × Option Value) :=
  match SettingPath.parse store.schema path with
  | .error e => .error e
  | .ok path =>
      match store.schema.get? path.setting with
      | none => .error (.unknownSetting path.text "not part of the settings schema")
      | some setting => (stored setting path value).map fun typed => (path, typed)

/-- Changes one value in the working copy; null removes it. -/
def set (store : Store) (state : State) (path : String) (value : Json) :
    State × Except Error Unit :=
  match store.checked path value with
  | .error e => (state, .error e)
  | .ok (path, typed) =>
      match store.access state with
      | (state, .error e) => (state, .error e)
      | (state, .ok copy) =>
          match copy.document.set path (typed.map SettingsDocument.nodeOf) with
          | .error e => (state, .error e)
          | .ok document => ({ state with copy := some ⟨document, .dirty⟩ }, .ok ())

/-- Writes the working copy to the file if it has changes, and tells whether. -/
def flush (store : Store) (state : State) : State × Except Error Bool :=
  match state.copy with
  | some ⟨document, .dirty⟩ =>
      match state.files.replaceText store.path document.text with
      | (files, .error e) => (⟨files, state.copy⟩, .error e)
      | (files, .ok ()) => (⟨files, some ⟨document, .persisted⟩⟩, .ok true)
  | _ => (state, .ok false)

/-- Writes a whole document to the file and takes it as the working copy. -/
def save (store : Store) (state : State) (document : SettingsDocument) :
    State × Except Error Unit :=
  match store.checkNames document with
  | .error e => (state, .error e)
  | .ok () =>
      match state.files.replaceText store.path document.text with
      | (files, .error e) => (⟨files, state.copy⟩, .error e)
      | (files, .ok ()) => (⟨files, some ⟨document, .persisted⟩⟩, .ok ())

end Store

end HubKeeper
