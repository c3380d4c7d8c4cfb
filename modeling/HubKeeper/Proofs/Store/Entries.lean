import HubKeeper.Proofs.Document.MapEntries
import HubKeeper.Proofs.Store.Storing

/-!
Entries of a map that are set through a store.

Whatever was done to a store, its document has no name twice in a table.  An entry that is set
is then found beside the other entries of a map that is a table.  Of a map that is a text, it is
the only entry left.
-/

namespace HubKeeper.Store

open SettingsDocument (editMap editMap_editable editable nodeOf)

variable {store : Store} {state : State} {setting key : String} {raw : Json}
variable {map : Dict String}

theorem lasts_distinct (store : Store) : store.Lasts fun document => document.root.Distinct where
  seeded document generated := by
    unfold SettingsDocument.canonical at generated
    split at generated
    · cases generated
      exact Toml.Document.parse?_distinct ‹_›
    · cases generated
  read _ _ read := Toml.Document.parse?_distinct (readDocument_ok.mp read).1
  edited _ _ _ _ _ _ _ edited distinct := by
    refine SettingsDocument.distinct_set edited distinct fun node same => ?_
    obtain ⟨value, _, rfl⟩ := Option.map_eq_some_iff.mp same
    exact SettingsDocument.distinct_nodeOf value

/-- What is stored at a key of a map is the text of a scalar, and nothing for null. -/
theorem stored_entry {declared : Setting} {typed : Option Value}
    (typedFor : stored declared ⟨setting, some key⟩ raw = .ok typed) :
    typed = raw.itemText?.map .text := by
  cases null : raw.isNull with
  | true =>
      rw [stored, if_pos null] at typedFor
      cases typedFor
      simp [Json.itemText?, null]
  | false =>
      obtain ⟨content, scalar, rfl⟩ := stored_ok null typedFor
      simp [Json.itemText?, null, scalar]

/-- The entry of a setting in the document is a raw value that is coerced to a map. -/
def ReadsMap (store : Store) (state : State) (setting : String) (raw : Json)
    (map : Dict String) : Prop :=
  ∃ layer, (store.layer state).2 = .ok layer ∧ layer.values.get? setting = some raw ∧
    Kind.textMap.coerce? raw = some (.textMap map)

theorem readsMap_iff {accessed : State} {document : SettingsDocument} {freshness : Freshness}
    (found : store.access state = (accessed, .ok ⟨document, freshness⟩)) :
    store.ReadsMap state setting raw map ↔
      document.entries.get? setting = some raw ∧ raw.textMap? = some map := by
  have values : (store.layer state).2 =
      .ok ⟨"settings document " ++ store.path, document.entries⟩ := by
    rw [layer, observe, found]
  simp [ReadsMap, values, Kind.coerce?]

/-- After an entry of a map was set, the setting is read as what was editable of the map, with
the entry.  That is the map with the entry exactly if the map was no text, or held nothing
else. -/
theorem set_entry (store : Store) (files : FileTree) (past : List Event) (text : String)
    (setting key : String) (value found : Json) (map : Dict String) (after : State)
    (saved : ∀ document, .operation (.save document) ∈ past → document.root.Distinct)
    (named : SettingPath.parse store.schema text = .ok ⟨setting, some key⟩)
    (reads : store.ReadsMap (store.after (.fresh files) past) setting found map)
    (accepted : store.set (store.after (.fresh files) past) text value = (after, .ok ())) :
    (∃ changed, store.ReadsMap after setting changed
      (editMap key value.itemText? (editable found map))) ∧
      (editMap key value.itemText? (editable found map) = editMap key value.itemText? map ↔
        ∀ written, found = .str written → map.erase key = .empty) := by
  refine ⟨?_, editMap_editable⟩
  obtain ⟨path, typed, accessed, copy, document, checked, inUse, edited, rfl⟩ := set_ok accepted
  obtain ⟨parsed, declared, _, typedFor⟩ := checked_ok checked
  obtain rfl : path = ⟨setting, some key⟩ := Except.ok.inj (parsed.symm.trans named)
  have distinct : copy.document.root.Distinct := by
    have held : Holding (fun document => document.root.Distinct)
        (store.after (.fresh files) past) :=
      (lasts_distinct store).after past (fun document member _ => saved document member) nofun
    have reached := (lasts_distinct store).access held
    rw [inUse] at reached
    exact reached copy (access_ok inUse)
  obtain ⟨present, read⟩ := (readsMap_iff inUse).mp reads
  have nodes : typed.map nodeOf = value.itemText?.map Toml.Node.ofText := by
    rw [stored_entry typedFor, Option.map_map]
    rfl
  rw [nodes] at edited
  obtain ⟨changed, there, again⟩ := SettingsDocument.textMap?_set edited distinct present read
  exact ⟨changed, (readsMap_iff rfl).mpr ⟨there, again⟩⟩

def labelStore : Store where
  path := "hub"
  schema := ⟨[.declare "labels" .textMap], [.declare "labels" .textMap]⟩

def labelFiles (text : String) : FileTree :=
  FileTree.empty.place "hub" (.file text.toUTF8 FileTree.ownerOnly)

theorem labelFiles_readText (text : String) :
    (labelFiles text).readText labelStore.path = .ok text := by
  have located : (labelFiles text).locate "hub" = .ok ["hub"] := rfl
  have found : (labelFiles text).node? ["hub"] = some (.file text.toUTF8 FileTree.ownerOnly) := rfl
  simp only [labelStore, FileTree.readText, FileTree.read, located, found,
    FileTree.fromUTF8?_toUTF8]

def loadedLabels (text : String) : State :=
  labelStore.after (.fresh (labelFiles text)) [.operation .load]

theorem loadedLabels_access {text : String} {document : SettingsDocument}
    (read : labelStore.readDocument text = .ok document) :
    labelStore.access (loadedLabels text) =
      (⟨labelFiles text, some ⟨document, .loaded⟩⟩, .ok ⟨document, .loaded⟩) := by
  simp only [loadedLabels, Store.after, step, perform, load, observe, access, State.fresh,
    readOrSeed, labelFiles_readText, read, Prod.map, id]

theorem labelStore_parse :
    SettingPath.parse labelStore.schema "labels.b" = .ok ⟨"labels", some "b"⟩ := by
  have split : Text.splitOn '.' "labels.b" = ["labels", "b"] := by cbv
  have known : labelStore.schema.get? "labels" = some (.declare "labels" .textMap) := by cbv
  simp only [SettingPath.parse, split, List.headD_cons, known]
  rfl

theorem labelStore_checked : labelStore.checked "labels.b" (.str "y") =
    .ok (⟨"labels", some "b"⟩, some (.text "y")) := by
  have known : labelStore.schema.get? "labels" = some (.declare "labels" .textMap) := by cbv
  simp only [checked, labelStore_parse, known]
  rfl

theorem loadedLabels_set {text : String} {document changed : SettingsDocument}
    (read : labelStore.readDocument text = .ok document)
    (edited : document.set ⟨"labels", some "b"⟩ (some (nodeOf (.text "y"))) = .ok changed) :
    labelStore.set (loadedLabels text) "labels.b" (.str "y") =
      (⟨labelFiles text, some ⟨changed, .dirty⟩⟩, .ok ()) := by
  simp only [set, labelStore_checked, loadedLabels_access read, Option.map_some, edited]

/-- A map with one entry, and with another one. -/
def oneLabel : Dict String := Dict.empty.insert "a" "x"

def twoLabels : Dict String := oneLabel.insert "b" "y"

def tableText : String := "[hub]\n[hub.labels]\na = \"x\"\n"

def tableDocument : SettingsDocument := (Toml.Document.parse? tableText).getD ⟨[], []⟩

/-- The document with the other entry. -/
def widerDocument : SettingsDocument :=
  (tableDocument.set ⟨"labels", some "b"⟩ (some (nodeOf (.text "y")))).toOption.getD ⟨[], []⟩

/-- An entry is put into a table. -/
theorem tableText_keeps :
    ∃ after, labelStore.set (loadedLabels tableText) "labels.b" (.str "y") = (after, .ok ()) ∧
      ∃ changed, labelStore.ReadsMap after "labels" changed twoLabels := by
  have loaded : labelStore.readDocument tableText = .ok tableDocument := by cbv
  have present : tableDocument.entries.get? "labels" = some (.obj [("a", .str "x")]) := by cbv
  have read : (Json.obj [("a", .str "x")]).textMap? = some oneLabel := by cbv
  have reads := (readsMap_iff (loadedLabels_access loaded)).mpr ⟨present, read⟩
  have edited : tableDocument.set ⟨"labels", some "b"⟩ (some (nodeOf (.text "y"))) =
      .ok widerDocument := by
    cbv
  have accepted := loadedLabels_set loaded edited
  have unsaved : ∀ document : SettingsDocument,
      Event.operation (.save document) ∈ [Event.operation .load] → document.root.Distinct := by
    simp
  have whole : editMap "b" (Json.str "y").itemText?
      (editable (.obj [("a", .str "x")]) oneLabel) = twoLabels := rfl
  obtain ⟨changed, kept⟩ := (set_entry labelStore (labelFiles tableText) [.operation .load]
    "labels.b" "labels" "b" (.str "y") _ oneLabel _ unsaved labelStore_parse reads accepted).1
  rw [whole] at kept
  exact ⟨_, accepted, changed, kept⟩

def writtenText : String := "[hub]\nlabels = '\x7b\"a\":\"x\"\x7d'\n"

def writtenDocument : SettingsDocument := (Toml.Document.parse? writtenText).getD ⟨[], []⟩

def relabelledDocument : SettingsDocument :=
  (writtenDocument.set ⟨"labels", some "b"⟩ (some (nodeOf (.text "y")))).toOption.getD ⟨[], []⟩

/-- An entry takes the place of a text. -/
theorem writtenLabels_lost :
    SettingPath.parse labelStore.schema "labels.b" = .ok ⟨"labels", some "b"⟩ ∧
      labelStore.ReadsMap (loadedLabels writtenText) "labels" (.str "\x7b\"a\":\"x\"\x7d") oneLabel ∧
      ∃ after, labelStore.set (loadedLabels writtenText) "labels.b" (.str "y") = (after, .ok ()) ∧
        ¬ ∃ changed, labelStore.ReadsMap after "labels" changed twoLabels := by
  have loaded : labelStore.readDocument writtenText = .ok writtenDocument := by cbv
  have present : writtenDocument.entries.get? "labels" =
      some (.str "\x7b\"a\":\"x\"\x7d") := by
    cbv
  have read : (Json.str "\x7b\"a\":\"x\"\x7d").textMap? = some oneLabel := by cbv
  have edited : writtenDocument.set ⟨"labels", some "b"⟩ (some (nodeOf (.text "y"))) =
      .ok relabelledDocument := by
    cbv
  have there : relabelledDocument.entries.get? "labels" = some (.obj [("b", .str "y")]) := by cbv
  have single : (Json.obj [("b", .str "y")]).textMap? = some (Dict.empty.insert "b" "y") := by cbv
  refine ⟨labelStore_parse, (readsMap_iff (loadedLabels_access loaded)).mpr ⟨present, read⟩, _,
    loadedLabels_set loaded edited, ?_⟩
  intro kept
  obtain ⟨changed, reads⟩ := kept
  obtain ⟨found, again⟩ := (readsMap_iff rfl).mp reads
  obtain rfl := Option.some.inj (there.symm.trans found)
  have same := Option.some.inj (single.symm.trans again)
  have lost := congrArg (Dict.get? · "a") same
  revert lost
  decide

end HubKeeper.Store
