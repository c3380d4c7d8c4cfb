import HubKeeper.Proofs.Document.Canonical
import HubKeeper.Proofs.Files.Retrying
import HubKeeper.Store.Session

/-!
Operations of a store that fail.

A failed operation has changed nothing, has read the document and kept it, or has made
directories for a file that it then could not write.  Directories can only be noticed
where a path leads out of one again that was missing before; but for that, the store goes
on as if the operation had been a load or had never been.
-/

namespace HubKeeper.Store

variable {store : Store} {state : State}

/-! ### States that behave alike -/

/-- What is seen of an operation: its answer, where the working copy stands after it,
and the text in the file. -/
structure Observation where
  answer : Except Error Answer
  freshness : Option Freshness
  text : Except FileFault String

def observation (store : Store) (outcome : State × Except Error Answer) : Observation where
  answer := outcome.2
  freshness := outcome.1.copy.map (·.freshness)
  text := outcome.1.files.readText store.path

/-- What is seen of a store in a run. -/
def observations (store : Store) (state : State) : List Event → List Observation
  | [] => []
  | .operation operation :: rest =>
      store.observation (store.perform state operation) ::
        store.observations (store.step state (.operation operation)) rest
  | .elsewhere files :: rest => store.observations (store.step state (.elsewhere files)) rest

/-- The second state has at most the directories that a write makes, and the same can be
read at the path. -/
inductive Unnoticed (store : Store) (first second : State) : Prop
  | same (equal : first = second)
  | directories (added : second = ⟨first.files.prepared store.path, first.copy⟩)
      (readings : (first.files.prepared store.path).readText store.path =
        first.files.readText store.path)

/-- Directories stay unnoticed when the working copy changes. -/
theorem Unnoticed.withCopy {first second : State} (unnoticed : store.Unnoticed first second)
    (copy : Option WorkingCopy) :
    store.Unnoticed { first with copy := copy } { second with copy := copy } := by
  cases unnoticed with
  | same equal => exact .same (by rw [equal])
  | directories added readings => exact .directories (by rw [added]) readings

/-- An operation goes the same from two states. -/
structure Matches (store : Store) (first second : State × Except Error α) : Prop where
  states : store.Unnoticed first.1 second.1
  answer : first.2 = second.2

theorem Matches.same (outcome : State × Except Error α) : store.Matches outcome outcome :=
  ⟨.same rfl, rfl⟩

theorem replaceText_prepared (store : Store) (files : FileTree) (text : String) :
    (files.prepared store.path).replaceText store.path text = files.replaceText store.path text :=
  files.replace_prepared store.path text.toUTF8

/-- A document is read, or seeded, the same from both trees. -/
theorem readOrSeed_prepared {files : FileTree}
    (readings : (files.prepared store.path).readText store.path = files.readText store.path) :
    store.readOrSeed (files.prepared store.path) = store.readOrSeed files ∨
      ∃ result, store.readOrSeed files = (files, result) ∧
        store.readOrSeed (files.prepared store.path) = (files.prepared store.path, result) := by
  simp only [readOrSeed, readings]
  cases files.readText store.path with
  | ok text => exact .inr ⟨_, rfl, rfl⟩
  | error fault =>
      cases fault with
      | notFound =>
          simp only [seed, replaceText_prepared]
          cases SettingsDocument.canonical store.schema with
          | error e => exact .inr ⟨_, rfl, rfl⟩
          | ok document => exact .inl rfl
      | busy | alreadyThere | notDirectory | isDirectory | nameTooLong | noSpace | invalidText =>
          exact .inr ⟨_, rfl, rfl⟩

section Alike

variable {first second : State} (unnoticed : store.Unnoticed first second)

include unnoticed

theorem access_matches : store.Matches (store.access first) (store.access second) := by
  cases unnoticed with
  | same equal => exact equal ▸ .same _
  | directories added readings =>
      obtain ⟨files, copy⟩ := first
      subst added
      cases copy with
      | some copy => exact ⟨.directories rfl readings, rfl⟩
      | none =>
          rcases readOrSeed_prepared readings with same | ⟨result, before, after⟩
          · simp only [access, same]
            exact .same _
          · simp only [access, before, after]
            cases result with
            | error e => exact ⟨.directories rfl readings, rfl⟩
            | ok document => exact ⟨.directories rfl readings, rfl⟩

theorem observe_matches (view : SettingsDocument → α) :
    store.Matches (store.observe first view) (store.observe second view) := by
  have accessed := access_matches unnoticed
  simp only [observe]
  generalize store.access first = before at accessed ⊢
  generalize store.access second = after at accessed ⊢
  obtain ⟨before, answer⟩ := before
  obtain ⟨after, answer'⟩ := after
  obtain ⟨states, rfl⟩ := accessed
  cases answer with
  | error e => exact ⟨states, rfl⟩
  | ok copy => exact ⟨states, rfl⟩

theorem set_matches (path : String) (value : Json) :
    store.Matches (store.set first path value) (store.set second path value) := by
  simp only [set]
  cases store.checked path value with
  | error e => exact ⟨unnoticed, rfl⟩
  | ok edit =>
      have accessed := access_matches unnoticed
      simp only
      generalize store.access first = before at accessed ⊢
      generalize store.access second = after at accessed ⊢
      obtain ⟨before, answer⟩ := before
      obtain ⟨after, answer'⟩ := after
      obtain ⟨states, rfl⟩ := accessed
      cases answer with
      | error e => exact ⟨states, rfl⟩
      | ok copy =>
          simp only
          cases copy.document.set edit.1 (edit.2.map SettingsDocument.nodeOf) with
          | error e => exact ⟨states, rfl⟩
          | ok document => exact ⟨states.withCopy _, rfl⟩

theorem flush_matches : store.Matches (store.flush first) (store.flush second) := by
  cases unnoticed with
  | same equal => exact equal ▸ .same _
  | directories added readings =>
      subst added
      simp only [flush]
      split
      · simp only [replaceText_prepared]
        exact .same _
      · exact ⟨.directories rfl readings, rfl⟩

theorem save_matches (document : SettingsDocument) :
    store.Matches (store.save first document) (store.save second document) := by
  cases unnoticed with
  | same equal => exact equal ▸ .same _
  | directories added readings =>
      subst added
      simp only [save]
      cases store.checkNames document with
      | error e => exact ⟨.directories rfl readings, rfl⟩
      | ok _ =>
          simp only [replaceText_prepared]
          exact .same _

/-- Every operation goes the same where only directories have been added unnoticed. -/
theorem perform_matches (operation : Operation) :
    store.Matches (store.perform first operation) (store.perform second operation) := by
  have mapped {α : Type} {before after : State × Except Error α} {answer : α → Answer}
      (matching : store.Matches before after) :
      store.Matches (before.map id (·.map answer)) (after.map id (·.map answer)) :=
    ⟨matching.states, congrArg (·.map answer) matching.answer⟩
  cases operation with
  | load =>
      simp only [perform, load]
      exact mapped (observe_matches unnoticed id)
  | get path =>
      simp only [perform, get]
      cases SettingPath.parse store.schema path with
      | error e => exact ⟨unnoticed, rfl⟩
      | ok path => exact mapped (observe_matches unnoticed _)
  | set path value =>
      simp only [perform]
      exact mapped (set_matches unnoticed path value)
  | flush =>
      simp only [perform]
      exact mapped (flush_matches unnoticed)
  | save document =>
      simp only [perform]
      exact mapped (save_matches unnoticed document)
  | layer =>
      simp only [perform, layer]
      exact mapped (observe_matches unnoticed _)
  | clear => exact ⟨unnoticed.withCopy none, rfl⟩
  | reopen => exact ⟨unnoticed.withCopy none, rfl⟩

end Alike

theorem observation_eq {first second : State × Except Error Answer}
    (matching : store.Matches first second) :
    store.observation first = store.observation second := by
  obtain ⟨first, answer⟩ := first
  obtain ⟨second, answer'⟩ := second
  obtain ⟨states, rfl⟩ := matching
  cases states with
  | same equal => exact congrArg (fun state => store.observation (state, answer)) equal
  | directories added readings =>
      rw [show second = _ from added]
      simp only [observation, readings]

/-- The same is seen in every run from states that differ in unnoticed directories. -/
theorem observations_eq {first second : State} (unnoticed : store.Unnoticed first second)
    (events : List Event) : store.observations first events = store.observations second events := by
  induction events generalizing first second with
  | nil => rfl
  | cons event rest ih =>
      cases event with
      | operation operation =>
          have matching := perform_matches unnoticed operation
          rw [observations, observations, observation_eq matching]
          exact congrArg _ (ih matching.states)
      | elsewhere files =>
          have copies : first.copy = second.copy := by
            cases unnoticed with
            | same equal => rw [equal]
            | directories added _ => rw [added]
          exact ih (.same (by simp only [step, copies]))

/-! ### What failures leave -/

/-- What a failed operation leaves of a state. -/
inductive Leaves (store : Store) (state after : State) : Prop
  | untouched (same : after = state)
  | directories {text : String} {e : Error}
      (refused : state.files.replaceText store.path text =
        (state.files.prepared store.path, .error e))
      (made : after = ⟨state.files.prepared store.path, state.copy⟩)
  | loaded {document : SettingsDocument} (absent : state.copy = none)
      (loaded : store.load state = (after, .ok document))
      (kept : after = ⟨state.files, some ⟨document, .loaded⟩⟩)

variable {after : State} {e : Error} {document : SettingsDocument}

theorem replaceText_failed {files : FileTree} {text : String}
    (refused : state.files.replaceText store.path text = (files, .error e)) :
    store.Leaves state ⟨files, state.copy⟩ := by
  have made := FileTree.replace_failed refused
  rw [made] at refused
  exact .directories refused (by rw [made])

/-- A document that could not be read or seeded is not kept. -/
theorem access_failed (failed : store.access state = (after, .error e)) :
    store.Leaves state after := by
  obtain ⟨files, copy⟩ := state
  cases copy with
  | some copy => cases failed
  | none =>
      simp only [access] at failed
      split at failed
      · rename_i unread
        cases failed
        simp only [readOrSeed] at unread
        split at unread
        · obtain ⟨rfl, _⟩ := Prod.mk.inj unread
          exact .untouched rfl
        · simp only [seed] at unread
          split at unread
          · cases unread
            exact .untouched rfl
          · split at unread
            · rename_i refused
              cases unread
              exact replaceText_failed refused
            · cases unread
        · cases unread
          exact .untouched rfl
      · cases failed

theorem observe_failed {view : SettingsDocument → α}
    (failed : store.observe state view = (after, .error e)) : store.Leaves state after := by
  simp only [observe] at failed
  split at failed
  · rename_i unread
    cases failed
    exact access_failed unread
  · cases failed

theorem set_canonical (generated : SettingsDocument.canonical store.schema = .ok document)
    (path : SettingPath) (node : Option Toml.Node) : ∃ changed, document.set path node = .ok changed := by
  obtain ⟨inner, layout, found, _⟩ := SettingsDocument.hasHeader_canonical generated
  have present : SettingsDocument.ensureHub document.root = document.root := by
    simp only [SettingsDocument.ensureHub, found, Option.isSome_some, if_true]
  refine ⟨⟨document.root.within SettingsDocument.hubName (SettingsDocument.changeHub path node),
    document.trailing⟩, ?_⟩
  simp only [SettingsDocument.set, present, found, Option.bind_some, Toml.Node.entries?]

/-- A document that refuses an edit was there, or has been read. -/
theorem edit_failed {copy : WorkingCopy} {path : SettingPath} {node : Option Toml.Node}
    (accessed : store.access state = (after, .ok copy))
    (refused : copy.document.set path node = .error e) : store.Leaves state after := by
  obtain ⟨files, present⟩ := state
  cases present with
  | some present =>
      cases accessed
      exact .untouched rfl
  | none =>
      have loaded : store.load ⟨files, none⟩ = (after, .ok copy.document) := by
        simp only [load, observe, accessed, id]
      simp only [access] at accessed
      split at accessed
      · cases accessed
      · rename_i read
        cases accessed
        simp only [readOrSeed] at read
        split at read
        · obtain ⟨rfl, _⟩ := Prod.mk.inj read
          exact .loaded rfl loaded rfl
        · simp only [seed] at read
          split at read
          · cases read
          · rename_i generated
            split at read
            · cases read
            · cases read
              obtain ⟨changed, accepted⟩ := set_canonical generated path node
              cases accepted.symm.trans refused
        · cases read

theorem get_failed {path : String} (failed : store.get state path = (after, .error e)) :
    store.Leaves state after := by
  simp only [get] at failed
  split at failed
  · cases failed
    exact .untouched rfl
  · exact observe_failed failed

theorem set_leaves {path : String} {value : Json}
    (failed : store.set state path value = (after, .error e)) : store.Leaves state after := by
  simp only [set] at failed
  split at failed
  · cases failed
    exact .untouched rfl
  · split at failed
    · rename_i unread
      cases failed
      exact access_failed unread
    · rename_i accessed
      split at failed
      · rename_i uneditable
        cases failed
        exact edit_failed accessed uneditable
      · cases failed

theorem flush_failed (failed : store.flush state = (after, .error e)) :
    store.Leaves state after := by
  simp only [flush] at failed
  split at failed
  · split at failed
    · rename_i unwritten
      cases failed
      exact replaceText_failed unwritten
    · cases failed
  · cases failed

theorem save_failed (failed : store.save state document = (after, .error e)) :
    store.Leaves state after := by
  simp only [save] at failed
  split at failed
  · cases failed
    exact .untouched rfl
  · split at failed
    · rename_i unwritten
      cases failed
      exact replaceText_failed unwritten
    · cases failed

theorem Leaves.of_answered {outcome : State × Except Error α} {answer : α → Answer}
    (failed : (outcome.map id (·.map answer)).2 = .error e)
    (leaves : ∀ {after e}, outcome = (after, .error e) → store.Leaves state after) :
    store.Leaves state (outcome.map id (·.map answer)).1 := by
  obtain ⟨after, result⟩ := outcome
  cases result with
  | error e => exact leaves rfl
  | ok _ => cases failed

theorem perform_failed {operation : Operation}
    (failed : (store.perform state operation).2 = .error e) :
    store.Leaves state (store.perform state operation).1 := by
  cases operation with
  | clear | reopen => cases failed
  | load =>
      simp only [perform] at failed ⊢
      exact .of_answered failed observe_failed
  | get path =>
      simp only [perform] at failed ⊢
      exact .of_answered failed get_failed
  | set path value =>
      simp only [perform] at failed ⊢
      exact .of_answered failed set_leaves
  | flush =>
      simp only [perform] at failed ⊢
      exact .of_answered failed flush_failed
  | save document =>
      simp only [perform] at failed ⊢
      exact .of_answered failed save_failed
  | layer =>
      simp only [perform] at failed ⊢
      exact .of_answered failed observe_failed

/-! ### Failures change nothing -/

namespace Leaves

theorem file (leaves : store.Leaves state after) (location : Location) (contents : ByteArray)
    (mode : Nat) :
    after.files.node? location = some (.file contents mode) ↔
      state.files.node? location = some (.file contents mode) := by
  cases leaves with
  | untouched same => rw [same]
  | directories _ made =>
      rw [made]
      exact FileTree.prepared_file location
  | loaded _ _ kept => rw [kept]

theorem read {contents : ByteArray} (leaves : store.Leaves state after)
    (found : state.files.read store.path = .ok contents) :
    after.files.read store.path = .ok contents := by
  cases leaves with
  | untouched same => rwa [same]
  | directories _ made =>
      rw [made]
      exact FileTree.read_of_extends (state.files.prepared_extends store.path) found
  | loaded _ _ kept => rwa [kept]

theorem copy (leaves : store.Leaves state after) :
    after.copy = state.copy ∨ state.copy = none ∧ ∃ document,
      store.load state = (after, .ok document) ∧ after.copy = some ⟨document, .loaded⟩ := by
  cases leaves with
  | untouched same => exact .inl (by rw [same])
  | directories _ made => exact .inl (by rw [made])
  | loaded absent loaded kept => exact .inr ⟨absent, _, loaded, by rw [kept]⟩

/-- Where one document could not be written, seeding fails as well. -/
theorem load_of_directories {text : String} (absent : state.copy = none)
    (missing : state.files.readText store.path = .error .notFound)
    (generated : SettingsDocument.canonical store.schema = .ok document)
    (refused : state.files.replaceText store.path text =
      (state.files.prepared store.path, .error e)) :
    (store.load state).1 = ⟨state.files.prepared store.path, none⟩ := by
  obtain ⟨files, copy⟩ := state
  cases absent
  have nonempty : document.text.toUTF8.size ≠ 0 := by
    have printed := Toml.Document.text_ne_empty (SettingsDocument.hasHeader_canonical generated)
    rw [String.toUTF8, String.size_toByteArray]
    exact fun empty => printed (String.utf8ByteSize_eq_zero_iff.mp empty)
  obtain ⟨e', seeding⟩ := FileTree.replace_fails document.text.toUTF8 refused nonempty
  have replaced : files.replaceText store.path document.text =
      (files.prepared store.path, .error e') := seeding
  simp only [load, observe, access, readOrSeed, missing, seed, generated, replaced]

theorem later (leaves : store.Leaves state after)
    (unnoticed : after.files.readText store.path = state.files.readText store.path ∨
      state.copy = none ∧ ∃ document, SettingsDocument.canonical store.schema = .ok document) :
    (∀ events, store.observations after events = store.observations state events) ∨
      ∀ events, store.observations after events = store.observations (store.load state).1 events := by
  cases leaves with
  | untouched same => exact .inl fun _ => by rw [same]
  | loaded absent loaded kept => exact .inr fun _ => by rw [loaded]
  | directories refused made =>
      rw [made] at unnoticed ⊢
      by_cases readings : (state.files.prepared store.path).readText store.path =
          state.files.readText store.path
      · exact .inl fun events => (observations_eq (.directories rfl readings) events).symm
      · obtain ⟨absent, document, generated⟩ := unnoticed.resolve_left readings
        have missing := (FileTree.readText_of_extends_or
          (state.files.prepared_extends store.path) store.path).resolve_right readings
        right
        rw [load_of_directories absent missing generated refused, absent]
        exact fun _ => rfl

end Leaves

/-- An operation that fails changes no file and no working copy; the most it does is read
the document.  Later operations therefore see what they would have seen without it, or
after a load in its place, if the directories that it may have made lead to no other file
or if a document can be seeded. -/
theorem failed_operation_atomic (store : Store) (state : State) (operation : Operation) (e : Error)
    (failed : (store.perform state operation).2 = .error e) :
    let after := (store.perform state operation).1
    (∀ location contents mode, after.files.node? location = some (.file contents mode) ↔
      state.files.node? location = some (.file contents mode)) ∧
    (∀ contents, state.files.read store.path = .ok contents →
      after.files.read store.path = .ok contents) ∧
    (after.copy = state.copy ∨ state.copy = none ∧ ∃ document,
      store.load state = (after, .ok document) ∧ after.copy = some ⟨document, .loaded⟩) ∧
    (after.files.readText store.path = state.files.readText store.path ∨
        state.copy = none ∧ (∃ document, SettingsDocument.canonical store.schema = .ok document) →
      (∀ events, store.observations after events = store.observations state events) ∨
        ∀ events, store.observations after events =
          store.observations (store.load state).1 events) := by
  have leaves := perform_failed failed
  exact ⟨leaves.file, fun _ => leaves.read, leaves.copy, leaves.later⟩

/-- A store at a directory, behind one that is missing. -/
def aroundStore (setting : Setting) : Store where
  path := "new/../d"
  schema := ⟨[setting], [setting]⟩

def directoryFiles : FileTree :=
  FileTree.empty.place "d/x" (.file .empty FileTree.ordinaryMode)

def withoutSettings : SettingsDocument := (Toml.Document.parse? "[hub]\n").getD ⟨[], []⟩

def directoryError : Error := .persist "new/../d" "Is a directory (os error 21)"

theorem aroundStore_save (setting : Setting) :
    (aroundStore setting).perform (.fresh directoryFiles) (.save withoutSettings) =
      (⟨directoryFiles.prepared "new/../d", none⟩, .error directoryError) := by
  have refused : directoryFiles.replaceText "new/../d" withoutSettings.text =
      (directoryFiles.prepared "new/../d", .error directoryError) := by
    cases replaced : directoryFiles.replaceText "new/../d" withoutSettings.text with
    | mk files result =>
        have result : result = .error directoryError := congrArg Prod.snd replaced.symm
        subst result
        rw [FileTree.replace_failed replaced]
  have known : (aroundStore setting).checkNames withoutSettings = .ok () := by
    have none : withoutSettings.unknownKeys (aroundStore setting).schema = [] := by cbv
    rw [checkNames, none]
  simp only [perform, save, known, State.fresh, show (aroundStore setting).path = "new/../d" from rfl,
    refused]
  rfl

theorem directoryFiles_readText : directoryFiles.readText "new/../d" = .error .notFound := rfl

theorem preparedFiles_readText :
    (directoryFiles.prepared "new/../d").readText "new/../d" = .error .isDirectory := by
  rw [FileTree.prepared]
  rfl

/-- A default document can be generated here, so the failed save is no more than a load. -/
theorem aroundStore_save_atomic :
    let store := aroundStore (.declare "url" .text)
    let after : State := ⟨directoryFiles.prepared "new/../d", none⟩
    (store.perform (.fresh directoryFiles) (.save withoutSettings)).2 = .error directoryError ∧
      after.files.readText store.path = .error .isDirectory ∧
      ((∀ events, store.observations after events = store.observations (.fresh directoryFiles) events) ∨
        ∀ events, store.observations after events =
          store.observations (store.load (.fresh directoryFiles)).1 events) := by
  have failed := congrArg Prod.snd (aroundStore_save (.declare "url" .text))
  have documentable : SettingsDocument.Documentable (.declare "url" .text) :=
    ⟨by decide, nofun, nofun, nofun⟩
  obtain ⟨document, generated, _⟩ := SettingsDocument.canonical_spec
    (aroundStore (.declare "url" .text)).schema (by simpa [aroundStore] using documentable)
    (List.nodup_singleton _)
  have atomic := failed_operation_atomic _ _ _ _ failed
  rw [aroundStore_save] at atomic
  exact ⟨failed, preparedFiles_readText, atomic.2.2.2 (.inr ⟨rfl, document, generated⟩)⟩

/-- No document can be generated for a setting with this name. -/
def spacedSetting : Setting := (Setting.declare "a b" .text).default (.text "x")

theorem canonical_spacedSetting :
    SettingsDocument.canonical (aroundStore spacedSetting).schema =
      .error (.schema "generated settings document does not parse: TOML parse error") := by
  obtain ⟨version, key, decor, fuel, _, _, enough, parsed⟩ :=
    SettingsDocument.parse?_canonicalText (aroundStore spacedSetting).schema
  obtain ⟨fuel, rfl⟩ := Nat.exists_eq_add_one_of_ne_zero (show fuel ≠ 0 by omega)
  have lines : Toml.linesChars (((aroundStore spacedSetting).schema.settings.flatMap
      SettingsDocument.settingLines).map String.toList) = "\n# (string)\na b = \"x\"\n".toList := by
    cbv
  have unread : Toml.Statement.readAll? (fuel + 1) "\n# (string)\na b = \"x\"\n".toList = none := rfl
  rw [SettingsDocument.canonical, parsed, lines, unread]
  rfl

/-- Where no document can be generated either, a load in place of the failed save would
have told that, and so would the load after it; now that load finds the directory. -/
theorem aroundStore_save_noticed :
    let store := aroundStore spacedSetting
    let after := (store.perform (.fresh directoryFiles) (.save withoutSettings)).1
    (store.perform (.fresh directoryFiles) (.save withoutSettings)).2 = .error directoryError ∧
      ¬((∀ events, store.observations after events = store.observations (.fresh directoryFiles) events) ∨
        ∀ events, store.observations after events =
          store.observations (store.load (.fresh directoryFiles)).1 events) := by
  have unchanged : (aroundStore spacedSetting).load (.fresh directoryFiles) =
      (.fresh directoryFiles,
        .error (.schema "generated settings document does not parse: TOML parse error")) := by
    have missing : directoryFiles.readText (aroundStore spacedSetting).path = .error .notFound :=
      directoryFiles_readText
    simp only [load, observe, access, State.fresh, readOrSeed, missing, seed, canonical_spacedSetting]
  have found : ((aroundStore spacedSetting).load ⟨directoryFiles.prepared "new/../d", none⟩).2 =
      .error (.document "new/../d" "Is a directory (os error 21)") := by
    have found : (directoryFiles.prepared "new/../d").readText (aroundStore spacedSetting).path =
        .error .isDirectory := preparedFiles_readText
    simp only [load, observe, access, readOrSeed, found]
    rfl
  have different : (aroundStore spacedSetting).observations ⟨directoryFiles.prepared "new/../d", none⟩
      [.operation .load] ≠ (aroundStore spacedSetting).observations (.fresh directoryFiles)
        [.operation .load] := by
    intro same
    have answers := congrArg Observation.answer (List.cons.inj same).1
    simp only [observation, perform, unchanged, Prod.map, found, Except.map] at answers
    cases answers
  dsimp only
  rw [aroundStore_save, unchanged]
  exact ⟨rfl, fun unnoticed => unnoticed.elim (fun same => different (same _)) fun same => different (same _)⟩

end HubKeeper.Store
