import HubKeeper.Proofs.Document.Likeness
import HubKeeper.Store.Session

/-!
The store as its users think of it: a document on disk, and perhaps a working document
with changes that are not on disk yet.

What the file system makes of reading and writing is not part of the model; it is told
with each operation.
-/

namespace HubKeeper.Store

inductive Disk
  | missing
  | garbled
  | document (document : SettingsDocument)

/-- A working document; a dirty one has changes that are not on disk. -/
structure Draft where
  document : SettingsDocument
  dirty : Bool

/-- How the file system answers: why there is nothing to be read, if so, and what
writing a text comes to. -/
structure Medium where
  absence : FileFault
  write : String → Except Error Unit

structure Model where
  disk : Disk
  working : Option Draft

namespace Model

/-- Nothing has changed since a document has been read from disk or written to it. -/
def synced (document : SettingsDocument) : Model :=
  ⟨.document document, some ⟨document, false⟩⟩

def dropped (model : Model) : Model :=
  { model with working := none }

def written (medium : Medium) (model : Model) (document : SettingsDocument) (answer : α) :
    Model × Except Error α :=
  match medium.write document.text with
  | .error e => (model, .error e)
  | .ok () => (synced document, .ok answer)

/-- The working document, taken from disk if there is none.  A missing document is
seeded. -/
def access (store : Store) (medium : Medium) (model : Model) :
    Model × Except Error SettingsDocument :=
  match model.working with
  | some draft => (model, .ok draft.document)
  | none =>
      match model.disk with
      | .document document =>
          match store.checkNames document with
          | .error e => (model, .error e)
          | .ok () => (synced document, .ok document)
      | .garbled => (model, .error (.document store.path "TOML parse error"))
      | .missing =>
          match medium.absence with
          | .notFound =>
              match SettingsDocument.canonical store.schema with
              | .error e => (model, .error e)
              | .ok document => written medium model document document
          | fault => (model, .error (.document store.path fault.message))

def observe (store : Store) (medium : Medium) (model : Model) (view : SettingsDocument → Answer) :
    Model × Except Error Answer :=
  match model.access store medium with
  | (model, .error e) => (model, .error e)
  | (model, .ok document) => (model, .ok (view document))

def perform (store : Store) (medium : Medium) (model : Model) :
    Operation → Model × Except Error Answer
  | .load => model.observe store medium .document
  | .get path =>
      match SettingPath.parse store.schema path with
      | .error e => (model, .error e)
      | .ok path => model.observe store medium fun document => .value (document.get? path)
  | .layer =>
      model.observe store medium fun document =>
        .layer ⟨"settings document " ++ store.path, document.entries⟩
  | .set path value =>
      match store.checked path value with
      | .error e => (model, .error e)
      | .ok (path, typed) =>
          match model.access store medium with
          | (model, .error e) => (model, .error e)
          | (model, .ok document) =>
              match document.set path (typed.map SettingsDocument.nodeOf) with
              | .error e => (model, .error e)
              | .ok changed => ({ model with working := some ⟨changed, true⟩ }, .ok .done)
  | .flush =>
      match model.working with
      | some ⟨document, true⟩ => written medium model document (.flushed true)
      | _ => (model, .ok (.flushed false))
  | .save document =>
      match store.checkNames document with
      | .error e => (model, .error e)
      | .ok () => written medium model document .done
  | .clear | .reopen => (model.dropped, .ok .done)

end Model

/-- What the files hold at the path of a store. -/
def disk (store : Store) (files : FileTree) : Disk :=
  match files.readText store.path with
  | .error _ => .missing
  | .ok text =>
      match Toml.Document.parse? text with
      | none => .garbled
      | some document => .document document

/-- How files answer at the path of a store. -/
def medium (store : Store) (files : FileTree) : Medium where
  absence :=
    match files.readText store.path with
    | .error fault => fault
    | .ok _ => .notFound
  write text := (files.replaceText store.path text).2

/-- The model after events that the store goes through from a state. -/
def modelAfter (store : Store) : State → Model → List Event → Model
  | _, model, [] => model
  | state, model, event :: rest =>
      let next := match event with
        | .operation operation => (model.perform store (store.medium state.files) operation).1
        | .elsewhere _ => model
      store.modelAfter (store.step state event) next rest

end HubKeeper.Store
