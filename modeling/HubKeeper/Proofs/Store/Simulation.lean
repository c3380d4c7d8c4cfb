import HubKeeper.Proofs.Store.Changes
import HubKeeper.Proofs.Store.Model
import Mathlib

/-!
A store simulates the model of a document on disk and a working document.

Two things are counted on and not shown here: that a document which is written can be
read back, and that a write which fails leaves no text where there was none.  That it
leaves a text which was there is shown for replacements in general.
-/

namespace HubKeeper.Store

open SettingsDocument (Agree)

/-- What is on disk cannot be told apart. -/
inductive Disk.Alike : Disk → Disk → Prop
  | missing : Disk.Alike .missing .missing
  | garbled : Disk.Alike .garbled .garbled
  | document (alike : SettingsDocument.Alike actual planned) :
      Disk.Alike (.document actual) (.document planned)

theorem Disk.Alike.refl (disk : Disk) : disk.Alike disk := by
  cases disk with
  | missing => exact .missing
  | garbled => exact .garbled
  | document document => exact .document (.refl document)

/-- A working copy is a working document, dirty when that is. -/
inductive SameWorking : Option WorkingCopy → Option Draft → Prop
  | none : SameWorking none none
  | some {copy : WorkingCopy} {draft : Draft} (alike : copy.document.Alike draft.document)
      (dirty : copy.freshness = .dirty ↔ draft.dirty = true) : SameWorking (some copy) (some draft)

/-- The file parses to the document of a working copy. -/
def Holds (store : Store) (files : FileTree) (document : SettingsDocument) : Prop :=
  ∃ text parsed, files.readText store.path = .ok text ∧
    Toml.Document.parse? text = some parsed ∧ SettingsDocument.Alike parsed document

/-- A state is what the model says, and a working copy without changes is on disk. -/
structure Simulates (store : Store) (state : State) (model : Model) : Prop where
  disk : (store.disk state.files).Alike model.disk
  working : SameWorking state.copy model.working
  clean : ∀ copy, state.copy = some copy → copy.freshness ≠ .dirty →
    store.Holds state.files copy.document

structure Simulated (store : Store) (related : α → β → Prop)
    (actual : State × Except Error α) (planned : Model × Except Error β) : Prop where
  state : store.Simulates actual.1 planned.1
  answer : Agree related actual.2 planned.2

/-- Answers are the same; documents in them are alike. -/
inductive SameAnswer : Answer → Answer → Prop
  | document (alike : SettingsDocument.Alike actual planned) :
      SameAnswer (.document actual) (.document planned)
  | same (answer : Answer) : SameAnswer answer answer

/-- What a store counts on when it writes a document into files. -/
structure Writable (store : Store) (files : FileTree) (document : SettingsDocument) : Prop where
  readsBack : document.ReadsBack
  failsCleanly : ∀ {after e fault},
    files.replaceText store.path document.text = (after, .error e) →
    files.readText store.path = .error fault → ∃ fault', after.readText store.path = .error fault'

def Seeds (store : Store) (state : State) (document : SettingsDocument) : Prop :=
  state.copy = none ∧ state.files.readText store.path = .error .notFound ∧
    SettingsDocument.canonical store.schema = .ok document

/-- The document is one that an operation may write. -/
def Writes (store : Store) (state : State) : Operation → SettingsDocument → Prop
  | .load, document | .get _, document | .set _ _, document | .layer, document =>
      store.Seeds state document
  | .flush, document => state.copy = some ⟨document, .dirty⟩
  | .save saved, document => document = saved
  | .clear, _ | .reopen, _ => False

/-- An operation can count on what it writes, and nobody else touches the file. -/
def Undisturbed (store : Store) (state : State) : Event → Prop
  | .operation operation =>
      ∀ document, store.Writes state operation document → store.Writable state.files document
  | .elsewhere files => files.readText store.path = state.files.readText store.path

/-- All events that a store goes through from a state are undisturbed. -/
def UndisturbedRun (store : Store) : State → List Event → Prop
  | _, [] => True
  | state, event :: rest =>
      store.Undisturbed state event ∧ store.UndisturbedRun (store.step state event) rest

/-! ### Writing -/

variable {store : Store} {files after : FileTree} {document planned : SettingsDocument}
variable {state : State} {model : Model} {copy : Option WorkingCopy} {freshness : Freshness}

theorem Holds.disk_eq (holds : store.Holds files document) :
    ∃ parsed, store.disk files = .document parsed ∧ parsed.Alike document := by
  obtain ⟨text, parsed, read, parses, alike⟩ := holds
  exact ⟨parsed, by simp only [disk, read, parses], alike⟩

theorem disk_of_readText (same : after.readText store.path = files.readText store.path) :
    store.disk after = store.disk files := by
  rw [disk, disk, same]

theorem Holds.of_readText (holds : store.Holds files document)
    (same : after.readText store.path = files.readText store.path) : store.Holds after document := by
  rw [Holds, same]
  exact holds

theorem holds_of_written (readsBack : document.ReadsBack)
    (written : files.replaceText store.path document.text = (after, .ok ())) :
    store.Holds after document := by
  obtain ⟨again, parses, alike⟩ := readsBack
  exact ⟨_, again, FileTree.replaceText_ok written, parses, alike⟩

theorem disk_of_failed (writable : store.Writable files document)
    (failed : files.replaceText store.path document.text = (after, .error e)) :
    store.disk after = store.disk files := by
  cases found : files.readText store.path with
  | error fault =>
      -- Directories that were made on the way could lead to a file otherwise.
      obtain ⟨fault', missing⟩ := writable.failsCleanly failed found
      simp only [disk, found, missing]
  | ok text =>
      have extended := FileTree.replace_error failed
      refine disk_of_readText ?_
      rw [FileTree.readText_of_extends extended found, found]

theorem holds_of_failed (holds : store.Holds files document)
    (failed : files.replaceText store.path other = (after, .error e)) :
    store.Holds after document := by
  obtain ⟨text, parsed, read, parses, alike⟩ := holds
  have extended := FileTree.replace_error failed
  exact ⟨text, parsed, FileTree.readText_of_extends extended read, parses, alike⟩

theorem Simulates.failed (simulates : store.Simulates ⟨files, copy⟩ model)
    (writable : store.Writable files document)
    (failed : files.replaceText store.path document.text = (after, .error e)) :
    store.Simulates ⟨after, copy⟩ model where
  disk := by
    rw [disk_of_failed writable failed]
    exact simulates.disk
  working := simulates.working
  clean copy present fresh := holds_of_failed (simulates.clean copy present fresh) failed

theorem Simulates.written (writable : store.Writable files document)
    (written : files.replaceText store.path document.text = (after, .ok ()))
    (alike : document.Alike planned) (fresh : freshness ≠ .dirty) :
    store.Simulates ⟨after, some ⟨document, freshness⟩⟩ (.synced planned) := by
  have holds := holds_of_written writable.readsBack written
  obtain ⟨parsed, onDisk, parsedAlike⟩ := holds.disk_eq
  constructor
  case disk =>
    rw [onDisk]
    exact .document (parsedAlike.trans alike)
  case working =>
    exact .some alike (by simp [fresh])
  case clean =>
    intro copy present _
    cases present
    exact holds

/-- The model is told what comes of the write, for any document that is alike. -/
theorem written_medium (alike : document.Alike planned) (answer : α) :
    Model.written (store.medium files) model planned answer =
      match (files.replaceText store.path document.text).2 with
      | .error e => (model, .error e)
      | .ok () => (.synced planned, .ok answer) := by
  have told : (store.medium files).write planned.text =
      (files.replaceText store.path document.text).2 := by
    simp only [medium, ← alike.readings.text]
  rewrite [Model.written, told]
  cases (files.replaceText store.path document.text).2 with
  | error e => rfl
  | ok _ => rfl

theorem checkNames_eq (alike : document.Alike planned) :
    store.checkNames document = store.checkNames planned := by
  rw [checkNames, checkNames, alike.readings.unknownKeys]

/-! ### Access -/

theorem seed_simulated (simulates : store.Simulates ⟨files, none⟩ ⟨onDisk, none⟩)
    (missing : files.readText store.path = .error .notFound) (unread : onDisk = .missing)
    (writable : ∀ document, store.Seeds ⟨files, none⟩ document → store.Writable files document) :
    store.Simulated (fun copy planned => SettingsDocument.Alike copy.document planned)
      (store.access ⟨files, none⟩) (Model.access store (store.medium files) ⟨onDisk, none⟩) := by
  have absence : (store.medium files).absence = .notFound := by simp only [medium, missing]
  simp only [access, readOrSeed, missing, seed, Model.access, unread, absence]
  cases canonical : SettingsDocument.canonical store.schema with
  | error e => exact ⟨unread ▸ simulates, .error e⟩
  | ok document =>
      have counted := writable document ⟨rfl, missing, canonical⟩
      have same := SettingsDocument.Alike.refl document
      cases replaced : files.replaceText store.path document.text with
      | mk after result =>
          simp only [written_medium same, replaced]
          cases result with
          | error e => exact ⟨unread ▸ simulates.failed counted replaced, .error e⟩
          | ok _ => exact ⟨.written counted replaced same (by decide), .ok same⟩

theorem read_simulated (simulates : store.Simulates ⟨files, none⟩ ⟨onDisk, none⟩)
    (found : files.readText store.path = .ok text) :
    store.Simulated (fun copy planned => SettingsDocument.Alike copy.document planned)
      (store.access ⟨files, none⟩) (Model.access store (store.medium files) ⟨onDisk, none⟩) := by
  have diskAlike := simulates.disk
  simp only [access, readOrSeed, found, readDocument, Model.access]
  simp only [disk, found] at diskAlike
  cases parses : Toml.Document.parse? text with
  | none =>
      simp only [parses] at diskAlike
      cases diskAlike
      exact ⟨simulates, .error _⟩
  | some parsed =>
      simp only [parses] at diskAlike
      cases diskAlike with
      | @document _ planned alike =>
          -- The names are those of the file and of the model alike.
          simp only [checkNames_eq alike]
          cases store.checkNames planned with
          | error e => exact ⟨simulates, .error e⟩
          | ok _ =>
              refine ⟨⟨simulates.disk, .some alike (by simp), ?_⟩, .ok alike⟩
              intro copy present _
              cases present
              exact ⟨text, parsed, found, parses, .refl parsed⟩

/-- The working copy is the working document, wherever it comes from. -/
theorem access_simulated (simulates : store.Simulates state model)
    (writable : ∀ document, store.Seeds state document → store.Writable state.files document) :
    store.Simulated (fun copy planned => SettingsDocument.Alike copy.document planned)
      (store.access state) (model.access store (store.medium state.files)) := by
  obtain ⟨files, copy⟩ := state
  obtain ⟨onDisk, working⟩ := model
  have working := simulates.working
  cases working with
  | some alike dirty => exact ⟨simulates, .ok alike⟩
  | none =>
      cases found : files.readText store.path with
      | ok text => exact read_simulated simulates found
      | error fault =>
          have unread : onDisk = .missing := by
            have diskAlike := simulates.disk
            simp only [disk, found] at diskAlike
            cases diskAlike
            rfl
          by_cases absent : fault = .notFound
          · exact seed_simulated simulates (absent ▸ found) unread writable
          · have absence : (store.medium files).absence = fault := by simp only [medium, found]
            simp only [access, readOrSeed, found, Model.access, unread, absence]
            exact ⟨unread ▸ simulates, .error _⟩

/-! ### Operations -/

theorem observe_simulated {view : SettingsDocument → α} {answer : α → Answer}
    {planned : SettingsDocument → Answer} (simulates : store.Simulates state model)
    (writable : ∀ document, store.Seeds state document → store.Writable state.files document)
    (views : ∀ {first second : SettingsDocument}, first.Alike second →
      SameAnswer (answer (view first)) (planned second)) :
    store.Simulated SameAnswer ((store.observe state view).map id (·.map answer))
      (model.observe store (store.medium state.files) planned) := by
  obtain ⟨accessed, documents⟩ := access_simulated simulates writable
  rw [observe, Model.observe]
  generalize store.access state = actual at accessed documents
  generalize model.access store (store.medium state.files) = expected at accessed documents
  obtain ⟨state, actual⟩ := actual
  obtain ⟨model, expected⟩ := expected
  cases documents with
  | error e => exact ⟨accessed, .error e⟩
  | ok alike => exact ⟨accessed, .ok (views alike)⟩

theorem set_simulated (path : String) (value : Json) (simulates : store.Simulates state model)
    (writable : ∀ document, store.Seeds state document → store.Writable state.files document) :
    store.Simulated SameAnswer (store.perform state (.set path value))
      (model.perform store (store.medium state.files) (.set path value)) := by
  simp only [perform, set, Model.perform]
  cases store.checked path value with
  | error e => exact ⟨simulates, .error e⟩
  | ok edit =>
      obtain ⟨accessed, documents⟩ := access_simulated simulates writable
      generalize store.access state = actual at accessed documents
      generalize model.access store (store.medium state.files) = expected at accessed documents
      obtain ⟨state, actual⟩ := actual
      obtain ⟨model, expected⟩ := expected
      cases documents with
      | error e => exact ⟨accessed, .error e⟩
      | @ok copy planned alike =>
          have changed := alike.set edit.1 edit.2
          simp only
          generalize copy.document.set edit.1 (edit.2.map SettingsDocument.nodeOf) = first at changed
          generalize planned.set edit.1 (edit.2.map SettingsDocument.nodeOf) = second at changed
          cases changed with
          | error e => exact ⟨accessed, .error e⟩
          | ok changed =>
              refine ⟨⟨accessed.disk, .some changed (by simp), ?_⟩, .ok (.same _)⟩
              intro copy present fresh
              cases present
              exact absurd rfl fresh

theorem flush_simulated (simulates : store.Simulates state model)
    (writable : ∀ document, state.copy = some ⟨document, .dirty⟩ →
      store.Writable state.files document) :
    store.Simulated SameAnswer (store.perform state .flush)
      (model.perform store (store.medium state.files) .flush) := by
  obtain ⟨files, copy⟩ := state
  obtain ⟨onDisk, working⟩ := model
  have working := simulates.working
  cases working with
  | none => exact ⟨simulates, .ok (.same _)⟩
  | @some copy draft alike dirty =>
      obtain ⟨document, freshness⟩ := copy
      obtain ⟨planned, changed⟩ := draft
      cases changed with
      | false =>
          have clean : freshness ≠ .dirty := by simpa using dirty
          cases freshness with
          | dirty => exact absurd rfl clean
          | loaded => exact ⟨simulates, .ok (.same _)⟩
          | persisted => exact ⟨simulates, .ok (.same _)⟩
      | true =>
          obtain rfl : freshness = .dirty := by simpa using dirty
          have counted := writable document rfl
          simp only [perform, flush, Model.perform, written_medium alike]
          cases replaced : files.replaceText store.path document.text with
          | mk after result =>
              cases result with
              | error e => exact ⟨simulates.failed counted replaced, .error e⟩
              | ok _ => exact ⟨.written counted replaced alike (by decide), .ok (.same _)⟩

theorem save_simulated (simulates : store.Simulates state model)
    (writable : store.Writable state.files document) :
    store.Simulated SameAnswer (store.perform state (.save document))
      (model.perform store (store.medium state.files) (.save document)) := by
  have same := SettingsDocument.Alike.refl document
  obtain ⟨files, copy⟩ := state
  simp only [perform, save, Model.perform, written_medium same]
  cases store.checkNames document with
  | error e => exact ⟨simulates, .error e⟩
  | ok _ =>
      cases replaced : files.replaceText store.path document.text with
      | mk after result =>
          cases result with
          | error e => exact ⟨simulates.failed writable replaced, .error e⟩
          | ok _ => exact ⟨.written writable replaced same (by decide), .ok (.same _)⟩

/-- Without its working copy, a store is what the model says without its working document. -/
theorem Simulates.dropped (simulates : store.Simulates state model) :
    store.Simulates ⟨state.files, none⟩ model.dropped where
  disk := simulates.disk
  working := .none
  clean _ present := nomatch present

theorem perform_simulated (simulates : store.Simulates state model)
    (undisturbed : store.Undisturbed state (.operation operation)) :
    store.Simulated SameAnswer (store.perform state operation)
      (model.perform store (store.medium state.files) operation) := by
  cases operation with
  | load => exact observe_simulated simulates undisturbed fun alike => .document alike
  | get path =>
      simp only [perform, get, Model.perform]
      cases SettingPath.parse store.schema path with
      | error e => exact ⟨simulates, .error e⟩
      | ok path =>
          refine observe_simulated simulates undisturbed fun alike => ?_
          rw [alike.readings.get?]
          exact .same _
  | set path value => exact set_simulated path value simulates undisturbed
  | flush => exact flush_simulated simulates undisturbed
  | save document => exact save_simulated simulates (undisturbed document rfl)
  | layer =>
      simp only [perform, Store.layer, Model.perform]
      refine observe_simulated simulates undisturbed fun alike => ?_
      rw [alike.readings.entries]
      exact .same _
  | clear => exact ⟨simulates.dropped, .ok (.same _)⟩
  | reopen => exact ⟨simulates.dropped, .ok (.same _)⟩

/-- Files that read the same at the path of a store make no difference to it. -/
theorem Simulates.elsewhere (simulates : store.Simulates state model)
    (same : files.readText store.path = state.files.readText store.path) :
    store.Simulates { state with files := files } model where
  disk := by
    rw [disk_of_readText same]
    exact simulates.disk
  working := simulates.working
  clean copy present fresh := (simulates.clean copy present fresh).of_readText same

theorem after_simulates (past : List Event) (simulates : store.Simulates state model)
    (undisturbed : store.UndisturbedRun state past) :
    store.Simulates (store.after state past) (store.modelAfter state model past) := by
  induction past generalizing state model with
  | nil => exact simulates
  | cons event rest ih =>
      -- The medium of the first operation is that of the files it starts from.
      obtain ⟨now, later⟩ := undisturbed
      refine ih ?_ later
      cases event with
      | operation operation => exact (perform_simulated simulates now).state
      | elsewhere files => exact simulates.elsewhere now

/-- From files on which nothing has been read, any undisturbed run goes as in the model,
and so does the next operation.  Changes are only made by sets, and are kept until they
are written or given up. -/
theorem simulates_model (store : Store) (files : FileTree) (past : List Event)
    (undisturbed : store.UndisturbedRun (.fresh files) past) :
    let state := store.after (.fresh files) past
    let model := store.modelAfter (.fresh files) ⟨store.disk files, none⟩ past
    store.Simulates state model ∧
      (∀ operation, store.Undisturbed state (.operation operation) →
        store.Simulated SameAnswer (store.perform state operation)
          (model.perform store (store.medium state.files) operation)) ∧
      (∀ operation document,
        (store.perform state operation).1.copy = some ⟨document, .dirty⟩ →
        state.copy = some ⟨document, .dirty⟩ ∨ (∃ path value, operation = .set path value) ∧
          (store.perform state operation).2 = .ok .done) ∧
      (∀ operation document, state.copy = some ⟨document, .dirty⟩ →
        Fate store document operation (store.perform state operation)) ∧
      (∀ later copy, (∀ event ∈ later, event.Keeps) → state.copy = some copy →
        ∃ changed freshness,
          SettingsDocument.edited (store.acceptedEdits state later) copy.document = .ok changed ∧
          (store.after state later).copy = some ⟨changed, freshness⟩) := by
  have started : store.Simulates (.fresh files) ⟨store.disk files, none⟩ :=
    ⟨.refl _, .none, fun _ present => nomatch present⟩
  have simulates := after_simulates past started undisturbed
  refine ⟨simulates, fun _ next => perform_simulated simulates next, fun _ _ => perform_dirty,
    ?_, fun later _ => after_edited store later⟩
  intro operation document dirty
  generalize store.after (.fresh files) past = state at dirty
  obtain ⟨files, _⟩ := state
  cases dirty
  exact perform_fate store files document operation

def urlStore : Store where
  path := "hub"
  schema := ⟨[.declare "url" .text], [.declare "url" .text]⟩

def urlFiles : FileTree :=
  FileTree.empty.place "hub" (.file "[hub]\nurl = \"a\"\n".toUTF8 FileTree.ownerOnly)

/-- The setting is removed, the removal is written, and another value is set. -/
def urlRun : List Event :=
  [.operation (.set "url" .null), .operation .flush, .operation (.set "url" (.str "b"))]

def withoutUrl : SettingsDocument := (Toml.Document.parse? "[hub]\n").getD ⟨[], []⟩

theorem urlFiles_readText : urlFiles.readText urlStore.path = .ok "[hub]\nurl = \"a\"\n" := by
  have located : urlFiles.locate urlStore.path = .ok ["hub"] := by cbv
  have found : urlFiles.node? ["hub"] =
      some (.file "[hub]\nurl = \"a\"\n".toUTF8 FileTree.ownerOnly) := by
    decide +kernel
  simp only [FileTree.readText, FileTree.read, located, found, FileTree.fromUTF8?_toUTF8]

theorem withoutUrl_readsBack : withoutUrl.ReadsBack :=
  ⟨withoutUrl, by cbv, .refl withoutUrl⟩

theorem urlStore_unset :
    urlStore.step (.fresh urlFiles) (.operation (.set "url" .null)) =
      ⟨urlFiles, some ⟨withoutUrl, .dirty⟩⟩ := by
  have checked : urlStore.checked "url" .null = .ok (⟨"url", none⟩, none) := by cbv
  have read : urlStore.readDocument "[hub]\nurl = \"a\"\n" =
      .ok ((Toml.Document.parse? "[hub]\nurl = \"a\"\n").getD ⟨[], []⟩) := by
    cbv
  have removed : SettingsDocument.set ((Toml.Document.parse? "[hub]\nurl = \"a\"\n").getD ⟨[], []⟩)
      ⟨"url", none⟩ none = .ok withoutUrl := by
    cbv
  simp only [step, perform, set, checked, access, State.fresh, readOrSeed, urlFiles_readText, read,
    Option.map, removed]
  rfl

theorem urlRun_simulated :
    urlStore.UndisturbedRun (.fresh urlFiles) urlRun ∧
      urlStore.Simulates (urlStore.after (.fresh urlFiles) urlRun)
        (urlStore.modelAfter (.fresh urlFiles) ⟨urlStore.disk urlFiles, none⟩ urlRun) := by
  have undisturbed : urlStore.UndisturbedRun (.fresh urlFiles) urlRun := by
    simp only [urlRun, UndisturbedRun, urlStore_unset]
    refine ⟨?unset, ?flush, ?set, trivial⟩
    case unset =>
      -- The file is there, so nothing is seeded.
      rintro document ⟨_, missing, _⟩
      cases urlFiles_readText.symm.trans missing
    case flush =>
      intro document dirty
      cases dirty
      refine ⟨withoutUrl_readsBack, fun _ missing => ?_⟩
      cases urlFiles_readText.symm.trans missing
    case set =>
      rintro document ⟨absent, _⟩
      obtain ⟨_, _, _, present⟩ :=
        step_edited urlStore urlFiles ⟨withoutUrl, .dirty⟩ (.operation .flush) trivial
      cases present.symm.trans absent
  exact ⟨undisturbed, (simulates_model urlStore urlFiles urlRun undisturbed).1⟩

end HubKeeper.Store
