import HubKeeper.Proofs.Files.Names
import HubKeeper.Proofs.Json.Compact
import HubKeeper.Proofs.Store.Changes
import HubKeeper.Store.Provider
import Mathlib

/-!
Snapshots that a provider remembers.

A remembered snapshot stands for resolving again.  Its overrides are known by their text,
and with unchanged sources nothing but a set changes what they resolve to.  A set forgets
all snapshots, but only once the document is written: after one that edits the working
copy and cannot write it, the snapshots remembered before do not know of the edit.
-/

namespace HubKeeper.Provider

open SettingsDocument (SettingEdit edited edited_append nodeOf)

/-- Overrides as callers can give them: JSON has no numbers that are not finite. -/
structure Overrides where
  values : Dict Json
  finite : (Json.ofDict values).isFinite = true
deriving DecidableEq

/-- What a provider is asked to do, or a change of files elsewhere. -/
inductive Event
  | get (overrides : Overrides)
  | refresh (overrides : Overrides)
  | clear
  | set (path : String) (value : Json)
  | elsewhere (files : FileTree)

def step (provider : Provider) (state : State) : Event → State
  | .get overrides => (provider.get state overrides.values).1
  | .refresh overrides => (provider.refresh state overrides.values).1
  | .clear => state.clear
  | .set path value => (provider.set state path value).1
  | .elsewhere files => { state with store := { state.store with files := files } }

def after (provider : Provider) (state : State) : List Event → State
  | [] => state
  | event :: rest => provider.after (provider.step state event) rest

/-- The dotenv file and the secrets directory read the same. -/
structure SourcesKept (provider : Provider) (before later : FileTree) : Prop where
  dotenv : ∀ path, provider.dotenvFile = some path → later.readText path = before.readText path
  secrets : ∀ path, provider.secretsDir = some path → later.list path = before.list path

/-- No event of a run changes the dotenv file or the secrets directory. -/
def Undisturbed (provider : Provider) : State → List Event → Prop
  | _, [] => True
  | state, event :: rest =>
      provider.SourcesKept state.store.files (provider.step state event).store.files ∧
        provider.Undisturbed (provider.step state event) rest

/-- What overrides resolve to with a document as the lowest ranked layer. -/
def resolution (provider : Provider) (files : FileTree) (overrides : Overrides)
    (document : SettingsDocument) : Probed Snapshot :=
  match provider.readLayers files overrides.values with
  | .error e => .error e
  | .ok layers =>
      provider.store.schema.resolve provider.probe
        (layers ++ [⟨"settings document " ++ provider.store.path, document.entries⟩])

def remembered? (state : State) (overrides : Overrides) : Option Snapshot :=
  state.memory.get? (memoryKey overrides.values)

/-- Edits that the snapshot remembered for overrides does not know of, after an event. -/
def unseenAfter (provider : Provider) (overrides : Overrides) (state : State)
    (edits : List SettingEdit) : Event → List SettingEdit
  | .get _ | .elsewhere _ => edits
  | .clear => []
  | .refresh other =>
      match (provider.refresh state other.values).2.result with
      | .ok _ => if other = overrides then [] else edits
      | .error _ => edits
  | .set path value =>
      match (provider.set state path value).2, remembered? state overrides with
      | .error _, some _ =>
          edits ++
            (provider.store.acceptedEdit? state.store (.operation (.set path value))).toList
      | _, _ => []

def unseen (provider : Provider) (overrides : Overrides) :
    State → List SettingEdit → List Event → List SettingEdit
  | _, edits, [] => edits
  | state, edits, event :: rest =>
      provider.unseen overrides (provider.step state event)
        (provider.unseenAfter overrides state edits event) rest

/-- What is remembered for overrides was resolved with a document to which, until now, only
the unseen edits have been made, and these are not written. -/
inductive Recalls (provider : Provider) (overrides : Overrides) (state : State) :
    List SettingEdit → Prop
  | nothing (forgotten : remembered? state overrides = none) :
      Recalls provider overrides state []
  | snapshot {edits : List SettingEdit} {copy : WorkingCopy}
      (remembered : remembered? state overrides = some snapshot)
      (resolved : (provider.resolution state.store.files overrides document).result =
        .ok snapshot)
      (present : state.store.copy = some copy) (made : edited edits document = .ok copy.document)
      (unwritten : edits ≠ [] → copy.freshness = .dirty) :
      Recalls provider overrides state edits

variable {provider : Provider} {overrides other : Overrides} {state : State}
variable {edits : List SettingEdit} {copy : WorkingCopy} {path : String} {value : Json}

theorem memoryKey_injective (same : memoryKey overrides.values = memoryKey other.values) :
    overrides = other := by
  obtain ⟨values, finite⟩ := overrides
  obtain ⟨otherValues, otherFinite⟩ := other
  have entries := Json.compact_injective finite otherFinite same
  simp only [Json.ofDict, Json.obj.injEq] at entries
  obtain rfl : values = otherValues := Dict.ext entries
  rfl

theorem SourcesKept.resolution_eq (kept : provider.SourcesKept before later)
    (overrides : Overrides) (document : SettingsDocument) :
    provider.resolution later overrides document =
      provider.resolution before overrides document := by
  have layers : provider.readLayers later overrides.values =
      provider.readLayers before overrides.values := by
    have dotenv : ∀ path, provider.dotenvFile = some path →
        FileSources.dotenv later provider.surrounding path provider.dotenvLead =
          FileSources.dotenv before provider.surrounding path provider.dotenvLead := by
      intro path named
      funext schema
      rw [FileSources.dotenv, FileSources.dotenv, kept.dotenv path named]
    have secrets : ∀ path, provider.secretsDir = some path →
        FileSources.secrets later path = FileSources.secrets before path := by
      intro path named
      funext schema
      rw [FileSources.secrets, FileSources.secrets, kept.secrets path named]
    unfold readLayers
    cases file : provider.dotenvFile <;> cases directory : provider.secretsDir <;>
      simp_all only [forall_eq', Option.some.injEq, reduceCtorEq]
  rw [resolution, resolution, layers]

theorem get_of_remembered (provider : Provider)
    (found : remembered? state overrides = some snapshot) :
    provider.get state overrides.values = (state, .ok snapshot) := by
  rw [remembered?] at found
  simp only [get, found]

theorem get_of_forgotten (provider : Provider) (missing : remembered? state overrides = none) :
    provider.get state overrides.values = provider.refresh state overrides.values := by
  rw [remembered?] at missing
  simp only [get, missing]

/-! ### Refreshing -/

/-- With a working copy, refreshing resolves with its document and leaves the store alone. -/
theorem refresh_of_copy (provider : Provider) (present : state.store.copy = some copy)
    (overrides : Overrides) :
    (provider.refresh state overrides.values).1.store = state.store ∧
      (provider.refresh state overrides.values).2 =
        provider.resolution state.store.files overrides copy.document := by
  have layer : provider.store.layer state.store =
      (state.store,
        .ok ⟨"settings document " ++ provider.store.path, copy.document.entries⟩) := by
    simp only [Store.layer, Store.observe, Store.access, present]
  unfold refresh layers resolution
  cases provider.readLayers state.store.files overrides.values with
  | error e => exact ⟨rfl, rfl⟩
  | ok layers =>
      simp only [layer]
      split <;> exact ⟨rfl, rfl⟩

theorem refresh_ok (resolved : (provider.refresh state overrides.values).2.result = .ok snapshot) :
    ∃ copy, (provider.refresh state overrides.values).1.store.copy = some copy ∧
      (provider.refresh state overrides.values).2 =
        provider.resolution state.store.files overrides copy.document := by
  unfold refresh layers resolution at *
  cases found : provider.readLayers state.store.files overrides.values with
  | error e =>
      rw [found] at resolved
      cases resolved
  | ok layers =>
      simp only [found] at resolved ⊢
      simp only [Store.layer, Store.observe] at resolved ⊢
      cases accessed : provider.store.access state.store with
      | mk store result =>
          cases result with
          | error e =>
              rw [accessed] at resolved
              cases resolved
          | ok copy =>
              have present := Store.access_ok accessed
              simp only
              split <;> exact ⟨copy, present, rfl⟩

theorem remembered?_refresh (provider : Provider) (state : State) (other overrides : Overrides) :
    remembered? (provider.refresh state other.values).1 overrides =
      match (provider.refresh state other.values).2.result with
      | .error _ => remembered? state overrides
      | .ok snapshot =>
          if other = overrides then some snapshot else remembered? state overrides := by
  have inserted : ∀ snapshot,
      (state.memory.insert (memoryKey other.values) snapshot).get? (memoryKey overrides.values) =
        if other = overrides then some snapshot else remembered? state overrides := by
    intro snapshot
    by_cases same : other = overrides
    · rw [if_pos same, same, Dict.get?_insert_self]
    · rw [if_neg same]
      exact Dict.get?_insert_of_ne fun keys => same (memoryKey_injective keys.symm)
  unfold refresh layers
  cases provider.readLayers state.store.files other.values with
  | error e => rfl
  | ok layers =>
      cases provider.store.layer state.store with
      | mk store result =>
          cases result with
          | error e => rfl
          | ok document =>
              simp only
              split
              · rename_i failed
                rw [failed]
                rfl
              · rename_i snapshot resolved
                rw [resolved]
                exact inserted snapshot

/-! ### Setting -/

/-- A set that fails keeps the memory.  Its edit may have been made, and is not written then. -/
theorem set_error (failed : (provider.set state path value).2 = .error e) :
    (provider.set state path value).1.memory = state.memory ∧
      (provider.set state path value).1.store.copy =
        (provider.store.set state.store path value).1.copy := by
  unfold set at *
  cases stored : provider.store.set state.store path value with
  | mk store result =>
      rw [stored] at failed
      cases result with
      | error e => exact ⟨rfl, rfl⟩
      | ok _ =>
          simp only at failed ⊢
          cases flushed : provider.store.flush store with
          | mk after result =>
              rw [flushed] at failed
              cases result with
              | error e =>
                  have kept : (provider.store.flush store).1.copy = store.copy :=
                    Store.flush_error (by rw [flushed])
                  rw [flushed] at kept
                  exact ⟨rfl, kept⟩
              | ok _ => cases failed

theorem forgotten_of_set (done : (provider.set state path value).2 = .ok ()) :
    (provider.set state path value).1.memory = .empty := by
  unfold set at *
  cases stored : provider.store.set state.store path value with
  | mk store result =>
      rw [stored] at done
      cases result with
      | error e => cases done
      | ok _ =>
          simp only at done ⊢
          cases flushed : provider.store.flush store with
          | mk store result =>
              rw [flushed] at done
              cases result with
              | error e => cases done
              | ok _ => rfl

/-! ### Runs -/

theorem Recalls.carried {later : State} (recalls : provider.Recalls overrides state edits)
    (kept : provider.SourcesKept state.store.files later.store.files)
    (memory : remembered? later overrides = remembered? state overrides)
    (copies : ∀ copy, state.store.copy = some copy → later.store.copy = some copy) :
    provider.Recalls overrides later edits := by
  cases recalls with
  | nothing forgotten => exact .nothing (memory.trans forgotten)
  | @snapshot _ document _ copy remembered resolved present made unwritten =>
      refine .snapshot (memory.trans remembered) ?_ (copies copy present) made unwritten
      rw [kept.resolution_eq]
      exact resolved

theorem unseenAfter_refresh
    (resolved : (provider.refresh state overrides.values).2.result = .ok snapshot) :
    provider.unseenAfter overrides state edits (.refresh overrides) = [] := by
  simp only [unseenAfter, resolved, if_true]

theorem refresh_recalls (other : Overrides) (recalls : provider.Recalls overrides state edits)
    (kept : provider.SourcesKept state.store.files
      (provider.refresh state other.values).1.store.files) :
    provider.Recalls overrides (provider.refresh state other.values).1
      (provider.unseenAfter overrides state edits (.refresh other)) := by
  have memory := remembered?_refresh provider state other overrides
  have copies : ∀ copy, state.store.copy = some copy →
      (provider.refresh state other.values).1.store.copy = some copy := by
    intro copy present
    rw [(refresh_of_copy provider present other).1, present]
  simp only [unseenAfter]
  cases resolved : (provider.refresh state other.values).2.result with
  | error e =>
      rw [resolved] at memory
      exact recalls.carried kept memory copies
  | ok snapshot =>
      rw [resolved] at memory
      by_cases same : other = overrides
      · subst same
        obtain ⟨copy, present, resolution⟩ := refresh_ok resolved
        simp only [if_true] at memory ⊢
        refine .snapshot memory ?_ present rfl (fun unseen => absurd rfl unseen)
        rw [kept.resolution_eq, ← resolution, resolved]
      · simp only [if_neg same] at memory ⊢
        exact recalls.carried kept memory copies

theorem get_recalls (other : Overrides) (recalls : provider.Recalls overrides state edits)
    (kept : provider.SourcesKept state.store.files
      (provider.get state other.values).1.store.files) :
    provider.Recalls overrides (provider.get state other.values).1 edits := by
  cases found : remembered? state other with
  | some snapshot =>
      rw [get_of_remembered provider found]
      exact recalls
  | none =>
      rw [get_of_forgotten provider found] at *
      have refreshed := refresh_recalls other recalls kept
      -- The miss is for other overrides, or nothing is remembered and all edits are seen.
      suffices same : provider.unseenAfter overrides state edits (.refresh other) = edits by
        rwa [same] at refreshed
      simp only [unseenAfter]
      split
      · split
        · rename_i same
          subst same
          cases recalls with
          | nothing _ => rfl
          | snapshot remembered => cases found.symm.trans remembered
        · rfl
      · rfl

theorem set_recalls (path : String) (value : Json)
    (recalls : provider.Recalls overrides state edits)
    (kept : provider.SourcesKept state.store.files
      (provider.set state path value).1.store.files) :
    provider.Recalls overrides (provider.set state path value).1
      (provider.unseenAfter overrides state edits (.set path value)) := by
  simp only [unseenAfter]
  cases done : (provider.set state path value).2 with
  | ok _ =>
      refine .nothing ?_
      rw [remembered?, forgotten_of_set done, Dict.get?_empty]
  -- A set that fails may still have edited the document, and this edit is unseen now.
  | error e =>
      obtain ⟨memory, store⟩ := set_error done
      cases recalls with
      | nothing forgotten =>
          simp only [forgotten]
          refine .nothing ?_
          rw [remembered?, memory]
          exact forgotten
      | @snapshot snapshot document _ copy remembered resolved present made unwritten =>
          simp only [remembered]
          obtain ⟨changed, stored, edit, dirty⟩ :=
            Store.set_edited provider.store state.store present path value
          have remembers : remembered? (provider.set state path value).1 overrides =
              some snapshot := by
            rw [remembered?, memory]
            exact remembered
          rw [← kept.resolution_eq] at resolved
          refine .snapshot remembers resolved (store.trans stored) ?_ fun unseen => dirty ?_
          · rw [edited_append, made]
            exact edit
          · by_cases seen : edits = []
            · right
              simpa [seen] using unseen
            · exact .inl (unwritten seen)

theorem after_append (first second : List Event) :
    provider.after state (first ++ second) =
      provider.after (provider.after state first) second := by
  induction first generalizing state with
  | nil => rfl
  | cons event rest ih => exact ih

theorem unseen_append (first second : List Event) :
    provider.unseen overrides state edits (first ++ second) =
      provider.unseen overrides (provider.after state first)
        (provider.unseen overrides state edits first) second := by
  induction first generalizing state edits with
  | nil => rfl
  | cons event rest ih => exact ih

theorem step_recalls (event : Event) (recalls : provider.Recalls overrides state edits)
    (kept : provider.SourcesKept state.store.files (provider.step state event).store.files) :
    provider.Recalls overrides (provider.step state event)
      (provider.unseenAfter overrides state edits event) := by
  cases event with
  | get other => exact get_recalls other recalls kept
  | refresh other => exact refresh_recalls other recalls kept
  | clear => exact .nothing rfl
  | set path value => exact set_recalls path value recalls kept
  | elsewhere files => exact recalls.carried kept rfl fun _ present => present

theorem after_recalls (events : List Event) (recalls : provider.Recalls overrides state edits)
    (kept : provider.Undisturbed state events) :
    provider.Recalls overrides (provider.after state events)
      (provider.unseen overrides state edits events) := by
  induction events generalizing state edits with
  | nil => exact recalls
  | cons event rest ih => exact ih (step_recalls event recalls kept.1) kept.2

/-- In any run from an empty memory, a snapshot that is got is the one that refreshing gives,
unless a set since it was resolved made an edit that it could not write.  With such edits, the
snapshot is that of the document without them, and refreshing resolves the document with them. -/
theorem get_eq_refresh (provider : Provider) (start : State) (events : List Event)
    (overrides : Overrides) (empty : start.memory = .empty)
    (kept : provider.Undisturbed start events) :
    let state := provider.after start events
    let edits := provider.unseen overrides start [] events
    ∀ snapshot, (provider.get state overrides.values).2.result = .ok snapshot →
      (edits = [] → (provider.refresh state overrides.values).2.result = .ok snapshot) ∧
      (edits ≠ [] → ∃ document current,
        state.store.copy = some ⟨current, .dirty⟩ ∧ edited edits document = .ok current ∧
        (provider.resolution state.store.files overrides document).result = .ok snapshot ∧
        (provider.refresh state overrides.values).2 =
          provider.resolution state.store.files overrides current) := by
  intro state edits snapshot found
  have forgotten : remembered? start overrides = none := by
    rw [remembered?, empty, Dict.get?_empty]
  have recalls : provider.Recalls overrides state edits :=
    after_recalls events (.nothing forgotten) kept
  -- From here on only what is remembered counts, not the run that led to it.
  generalize state = state, edits = edits at recalls found ⊢
  cases recalls with
  | nothing forgotten =>
      rw [get_of_forgotten provider forgotten] at found
      exact ⟨fun _ => found, fun unseen => absurd rfl unseen⟩
  | @snapshot remembered document _ copy remembers resolved present made unwritten =>
      rw [get_of_remembered provider remembers] at found
      cases found
      have again := (refresh_of_copy provider present overrides).2
      constructor
      case left =>
        rintro rfl
        cases made
        rw [again]
        exact resolved
      case right =>
        intro unseen
        obtain ⟨current, freshness⟩ := copy
        cases unwritten unseen
        exact ⟨document, current, present, made, resolved, again⟩

/-! ### A document that cannot be written -/

/-- A provider of one setting, without sources other than the document. -/
def soleSetting (path : String) : Provider where
  store := ⟨path, ⟨[.declare "a" .text], [.declare "a" .text]⟩⟩
  probe := .fixed none none
  vars := []
  lead := "HUB_"
  dotenvFile := none
  dotenvLead := "HUB_"
  secretsDir := none
  surrounding := .empty

def noOverrides : Overrides := ⟨.empty, rfl⟩

def snapshotOf (a : String) : Snapshot := ⟨.insert .empty "a" (.text a), .empty⟩

def oldDocument : SettingsDocument := (Toml.Document.parse? "[hub]\na = \"old\"\n").getD ⟨[], []⟩

def newDocument : SettingsDocument :=
  (oldDocument.set ⟨"a", none⟩ (some (nodeOf (.text "new")))).toOption.getD ⟨[], []⟩

/-- A name that leaves no room for the name of a temporary file. -/
def longName : String := .ofList (List.replicate 250 'h')

def longNamed : Provider := soleSetting longName

def longNamedFiles : FileTree :=
  FileTree.empty.place longName (.file "[hub]\na = \"old\"\n".toUTF8 FileTree.ownerOnly)

/-- The setting is read, and then changed in a way that cannot be written. -/
def unwrittenRun : List Event := [.get noOverrides, .set "a" (.str "new")]

def refreshedRun : List Event := unwrittenRun ++ [.refresh noOverrides]

def unwrittenState : State :=
  ⟨⟨longNamedFiles, some ⟨newDocument, .dirty⟩⟩,
    .insert .empty (memoryKey noOverrides.values) (snapshotOf "old")⟩

theorem toList_longName : longName.toList = List.replicate 250 'h' :=
  String.toList_ofList

theorem byteLength_longName : Text.byteLength longName.toList = 250 := by
  rw [toList_longName, Text.byteLength_replicate]
  rfl

theorem longName_isName : Path.IsName longName := by
  have starts : ∀ other : String, other.toList.head? ≠ some 'h' → longName ≠ other := by
    rintro _ different rfl
    exact different (by rw [toList_longName, List.head?_replicate]; rfl)
  constructor
  case noSlash =>
    rw [toList_longName, List.mem_replicate]
    simp
  case nonempty => exact starts _ (by decide)
  case notHere => exact starts _ (by decide)
  case notAbove => exact starts _ (by decide)

theorem longNamedFiles_readText :
    longNamedFiles.readText longName = .ok "[hub]\na = \"old\"\n" := by
  refine FileTree.readText_place longName_isName ?_ _ _
  rw [byteLength_longName]
  decide

theorem longNamedFiles_replaceText (text : String) :
    longNamedFiles.replaceText longName text =
      (longNamedFiles, .error (FileTree.temporaryError longName "." .nameTooLong)) := by
  refine FileTree.replace_longName longName_isName ?_ _
  rw [byteLength_longName]
  decide

theorem soleSetting_undisturbed (path : String) (state : State) (events : List Event) :
    (soleSetting path).Undisturbed state events := by
  induction events generalizing state with
  | nil => trivial
  | cons event rest ih => exact ⟨⟨nofun, nofun⟩, ih _⟩

theorem soleSetting_path (path : String) : (soleSetting path).store.path = path := rfl

theorem soleSetting_readLayers (path : String) (files : FileTree) :
    (soleSetting path).readLayers files noOverrides.values =
      .ok [⟨"call-time overrides", .empty⟩, ⟨"environment", .empty⟩] :=
  rfl

theorem soleSetting_readDocument (path : String) :
    (soleSetting path).store.readDocument "[hub]\na = \"old\"\n" = .ok oldDocument := by
  cbv

theorem soleSetting_checked (path : String) :
    (soleSetting path).store.checked "a" (.str "new") =
      .ok (⟨"a", none⟩, some (.text "new")) := by
  cbv

theorem oldDocument_set :
    oldDocument.set ⟨"a", none⟩ (some (nodeOf (.text "new"))) = .ok newDocument := by
  cbv

theorem oldDocument_resolved (path name : String) :
    (soleSetting path).store.schema.resolve (soleSetting path).probe
        [⟨"call-time overrides", .empty⟩, ⟨"environment", .empty⟩, ⟨name, oldDocument.entries⟩] =
      .ok (snapshotOf "old") := by
  cbv

theorem newDocument_resolved (path name : String) :
    (soleSetting path).store.schema.resolve (soleSetting path).probe
        [⟨"call-time overrides", .empty⟩, ⟨"environment", .empty⟩, ⟨name, newDocument.entries⟩] =
      .ok (snapshotOf "new") := by
  cbv

theorem soleSetting_get {files : FileTree}
    (found : files.readText path = .ok "[hub]\na = \"old\"\n") :
    (soleSetting path).step (.fresh files) (.get noOverrides) =
      ⟨⟨files, some ⟨oldDocument, .loaded⟩⟩,
        .insert .empty (memoryKey noOverrides.values) (snapshotOf "old")⟩ := by
  have accessed : (soleSetting path).store.access (.fresh files) =
      (⟨files, some ⟨oldDocument, .loaded⟩⟩, .ok ⟨oldDocument, .loaded⟩) := by
    simp only [Store.access, Store.State.fresh, Store.readOrSeed, soleSetting_path, found,
      soleSetting_readDocument]
  have resolved := oldDocument_resolved path ("settings document " ++ path)
  simp only [step, get, refresh, State.fresh, Dict.get?_empty, layers, Store.layer, Store.observe,
    accessed, soleSetting_readLayers]
  simp only [List.cons_append, List.nil_append, soleSetting_path, resolved, Probed.ok]

theorem soleSetting_set {files : FileTree}
    (refused : files.replaceText path newDocument.text = (files, .error e))
    (memory : Dict Snapshot) :
    (soleSetting path).step ⟨⟨files, some ⟨oldDocument, .loaded⟩⟩, memory⟩
        (.set "a" (.str "new")) =
      ⟨⟨files, some ⟨newDocument, .dirty⟩⟩, memory⟩ := by
  simp only [step, set, Store.set, soleSetting_checked, Store.access, Option.map_some,
    oldDocument_set, Store.flush, soleSetting_path, refused]

theorem unwrittenRun_after :
    longNamed.after (.fresh longNamedFiles) unwrittenRun = unwrittenState := by
  simp only [longNamed, unwrittenRun, after, soleSetting_get longNamedFiles_readText,
    soleSetting_set (longNamedFiles_replaceText _), unwrittenState]

theorem unwrittenState_remembered? :
    remembered? unwrittenState noOverrides = some (snapshotOf "old") :=
  Dict.get?_insert_self

theorem unwrittenState_refresh :
    (longNamed.refresh unwrittenState noOverrides.values).2 = .ok (snapshotOf "new") := by
  have present : unwrittenState.store.copy = some ⟨newDocument, .dirty⟩ := rfl
  have resolved := newDocument_resolved longName ("settings document " ++ longName)
  rw [(refresh_of_copy _ present noOverrides).2, resolution, longNamed, soleSetting_readLayers]
  simp only [List.cons_append, List.nil_append, soleSetting_path, resolved]

theorem refreshedRun_after :
    longNamed.after (.fresh longNamedFiles) refreshedRun =
      (longNamed.refresh unwrittenState noOverrides.values).1 := by
  rw [refreshedRun, after_append, unwrittenRun_after, after, after, step]

theorem refreshed_remembered? :
    remembered? (longNamed.refresh unwrittenState noOverrides.values).1 noOverrides =
      some (snapshotOf "new") := by
  rw [remembered?_refresh, unwrittenState_refresh]
  simp only [Probed.ok, if_true]

/-- Once refreshed, the edit is known. -/
theorem refreshedRun_get_eq_refresh :
    longNamed.Undisturbed (.fresh longNamedFiles) refreshedRun ∧
      (longNamed.get (longNamed.after (.fresh longNamedFiles) refreshedRun)
        noOverrides.values).2.result = .ok (snapshotOf "new") ∧
      longNamed.unseen noOverrides (.fresh longNamedFiles) [] refreshedRun = [] ∧
      (longNamed.refresh (longNamed.after (.fresh longNamedFiles) refreshedRun)
        noOverrides.values).2.result = .ok (snapshotOf "new") := by
  have kept : longNamed.Undisturbed (.fresh longNamedFiles) refreshedRun :=
    soleSetting_undisturbed longName _ _
  have found : (longNamed.get (longNamed.after (.fresh longNamedFiles) refreshedRun)
      noOverrides.values).2.result = .ok (snapshotOf "new") := by
    rw [refreshedRun_after, get_of_remembered longNamed refreshed_remembered?]
    rfl
  have known : longNamed.unseen noOverrides (.fresh longNamedFiles) [] refreshedRun = [] := by
    rw [refreshedRun, unseen_append, unwrittenRun_after, unseen, unseen]
    exact unseenAfter_refresh (congrArg Probed.result unwrittenState_refresh)
  exact ⟨kept, found, known,
    (get_eq_refresh longNamed _ refreshedRun noOverrides rfl kept _ found).1 known⟩

/-- The snapshot without the edit is given again; refreshing knows of it. -/
theorem unwrittenRun_get_ne_refresh :
    longNamed.Undisturbed (.fresh longNamedFiles) unwrittenRun ∧
      (longNamed.get (longNamed.after (.fresh longNamedFiles) unwrittenRun)
        noOverrides.values).2.result = .ok (snapshotOf "old") ∧
      (longNamed.refresh (longNamed.after (.fresh longNamedFiles) unwrittenRun)
        noOverrides.values).2.result ≠ .ok (snapshotOf "old") := by
  refine ⟨soleSetting_undisturbed longName _ _, ?_, ?_⟩
  · rw [unwrittenRun_after, get_of_remembered longNamed unwrittenState_remembered?]
    rfl
  · rw [unwrittenRun_after, unwrittenState_refresh]
    decide

end HubKeeper.Provider
