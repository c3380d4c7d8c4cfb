import HubKeeper.Proofs.Document.MapEntries

/-!
Edits of a document as edits of its raw values.

What is read of the settings is a dictionary of raw values.  In a document that has no name
twice in a table, an edit changes this dictionary as it would change a dictionary alone, and
what is read at a path is read off it.  So the laws of reading and editing are laws of
dictionaries.  What stands outside the `hub` table stays as it was written.
-/

namespace HubKeeper

namespace Dict

variable {α : Type} {dict : Dict α} {key other : String} {value earlier : Option α}

/-- A dictionary with a value under a key, or with nothing there. -/
def alter (dict : Dict α) (key : String) : Option α → Dict α
  | some value => dict.insert key value
  | none => dict.erase key

theorem get?_alter :
    (dict.alter key value).get? other = if other = key then value else dict.get? other := by
  cases value with
  | none => exact get?_erase
  | some value => exact get?_insert

theorem alter_alter : (dict.alter key earlier).alter key value = dict.alter key value := by
  refine ext_get? fun other => ?_
  rw [get?_alter, get?_alter, get?_alter]
  split <;> rfl

theorem alter_get? : dict.alter key (dict.get? key) = dict := by
  refine ext_get? fun other => ?_
  rw [get?_alter]
  split
  · rename_i same
    rw [same]
  · rfl

end Dict

/-- Fields of an object; nothing else has any. -/
def Json.members : Json → Dict Json
  | .obj fields => .ofList fields
  | _ => .empty

theorem Json.members_ofDict (dict : Dict Json) : (ofDict dict).members = dict :=
  Dict.ofList_of_ascending dict.ascending

/-! ### Dictionaries of raw values -/

namespace SettingPath

variable {path other : SettingPath} {raw : Dict Json} {value earlier : Option Json}

def fields (path : SettingPath) (raw : Dict Json) : Dict Json :=
  ((raw.get? path.setting).map Json.members).getD .empty

def read? (path : SettingPath) (raw : Dict Json) : Option Json :=
  match path.key with
  | none => raw.get? path.setting
  | some key => (path.fields raw).get? key

/-- Raw values with a value at a path, or with nothing there.  A key needs an object, which
takes the place of what is none. -/
def edit (path : SettingPath) (value : Option Json) (raw : Dict Json) : Dict Json :=
  match path.key with
  | none => raw.alter path.setting value
  | some key => raw.insert path.setting (.ofDict ((path.fields raw).alter key value))

/-- Paths to different settings, or to different keys of one setting. -/
def Apart (path other : SettingPath) : Prop :=
  other.setting ≠ path.setting ∨
    ∃ key another, path.key = some key ∧ other.key = some another ∧ another ≠ key

theorem get?_edit_of_ne {name : String} (different : name ≠ path.setting) :
    (path.edit value raw).get? name = raw.get? name := by
  unfold edit
  split
  · rw [Dict.get?_alter, if_neg different]
  · rw [Dict.get?_insert_of_ne different]

theorem fields_edit {key : String} (keyed : path.key = some key) :
    path.fields (path.edit value raw) = (path.fields raw).alter key value := by
  simp only [edit, keyed]
  rw [fields, Dict.get?_insert_self, Option.map_some, Option.getD_some, Json.members_ofDict]

theorem read?_edit : path.read? (path.edit value raw) = value := by
  cases keyed : path.key with
  | none => simp only [read?, edit, keyed, Dict.get?_alter, if_true]
  | some key =>
      simp only [read?, keyed]
      rw [fields_edit keyed, Dict.get?_alter, if_pos rfl]

theorem read?_edit_of_apart (apart : path.Apart other) :
    other.read? (path.edit value raw) = other.read? raw := by
  rcases apart with different | ⟨key, another, keyed, otherKeyed, different⟩
  · have same := @get?_edit_of_ne path raw value other.setting different
    unfold read? fields
    rw [same]
  · by_cases here : other.setting = path.setting
    · have shared (raw : Dict Json) : other.fields raw = path.fields raw := by
        rw [fields, fields, here]
      simp only [read?, otherKeyed]
      rw [shared, shared, fields_edit keyed, Dict.get?_alter, if_neg different]
    · have same := @get?_edit_of_ne path raw value other.setting here
      unfold read? fields
      rw [same]

theorem edit_edit : path.edit value (path.edit earlier raw) = path.edit value raw := by
  cases keyed : path.key with
  | none =>
      simp only [edit, keyed]
      exact Dict.alter_alter
  | some key =>
      have changed := @fields_edit path raw earlier key keyed
      simp only [edit, keyed] at changed ⊢
      rw [changed, Dict.alter_alter]
      exact @Dict.alter_alter _ raw path.setting (some _) (some _)

end SettingPath

/-! ### Tables -/

namespace Toml

namespace Entries

variable {entries : Entries} {name other : String} {node : Option Node}

/-- Entries with a node under a name, or with nothing there. -/
def alter (entries : Entries) (name : String) : Option Node → Entries
  | some node => entries.put name node
  | none => entries.erase name

theorem find?_alter : ((entries.alter name node).find? other).map Node.toJson =
    if other = name then node.map Node.toJson else (entries.find? other).map Node.toJson := by
  cases node with
  | none =>
      rw [alter, find?_erase]
      split <;> rfl
  | some node =>
      obtain ⟨stored, json, put⟩ := find?_put entries name node
      rw [alter, put]
      split
      · rw [Option.map_some, Option.map_some, json]
      · rfl

theorem Distinct.alter (distinct : entries.Distinct)
    (each : ∀ value, node = some value → value.Distinct) : (entries.alter name node).Distinct := by
  cases node with
  | none => exact distinct.erase name
  | some node => exact distinct.put (each node rfl) name

theorem erase_within {change : Entries → Entries} :
    (entries.within name change).erase name = entries.erase name := by
  induction entries with
  | nil => rfl
  | cons entry rest ih =>
      simp only [Entries.erase, within, Entries.modify, List.map_cons, List.filter_cons] at ih ⊢
      by_cases here : entry.1.name = name
      · simp [here, ih]
      · simp [here, ih]

end Entries

namespace Node

variable {node : Node}

theorem toJson_of_isSome (table : node.entries?.isSome = true) :
    node.toJson = .ofDict node.toJson.members := by
  obtain ⟨inner, held⟩ := Option.isSome_iff_exists.mp table
  rw [toJson_of_entries? held, Json.members_ofDict]

theorem Distinct.get?_members (distinct : node.Distinct) (name : String) :
    node.toJson.members.get? name =
      (node.entries?.bind fun inner => inner.find? name).map Node.toJson := by
  cases held : node.entries? with
  | some inner =>
      rw [toJson_of_entries? held, Json.members_ofDict, (distinct.entries? held).get?_ofList,
        Option.bind_some]
  | none =>
      have empty : node.toJson.members = .empty := by
        unfold Json.members
        split
        · rename_i same
          have table := isSome_entries? same
          rw [held] at table
          cases table
        · rfl
      rw [empty]
      rfl

theorem Distinct.toJson_inside (distinct : node.Distinct) (table : node.entries?.isSome = true)
    {key : String} {value : Option Node} (each : ∀ node, value = some node → node.Distinct) :
    (Entries.inside (Entries.alter · key value) node).toJson =
      .ofDict (node.toJson.members.alter key (value.map Node.toJson)) := by
  obtain ⟨inner, held⟩ := Option.isSome_iff_exists.mp table
  have changed : (Entries.inside (Entries.alter · key value) node).entries? =
      some (inner.alter key value) := by
    rw [Entries.entries?_inside, held, Option.map_some]
  have before := distinct.entries? held
  rw [toJson_of_entries? changed]
  congr 1
  refine Dict.ext_get? fun name => ?_
  rw [(before.alter each).get?_ofList, Entries.find?_alter, Dict.get?_alter,
    distinct.get?_members, held, Option.bind_some]

end Node

/-- A table that is made has the members of what stood there, which are none of what was no
table. -/
theorem Entries.Distinct.ensured {entries : Entries} (distinct : entries.Distinct) (name : String) :
    ∃ node, (entries.ensureTable name).find? name = some node ∧ node.Distinct ∧
      node.entries?.isSome = true ∧
      node.toJson.members =
        (((entries.find? name).map Node.toJson).map Json.members).getD .empty := by
  cases table : (entries.find? name).bind Node.entries? with
  | some inner =>
      obtain ⟨node, found, held⟩ := Option.bind_eq_some_iff.mp table
      refine ⟨node, ?_, distinct.find? found, by rw [held, Option.isSome_some], by rw [found]; rfl⟩
      simp only [Entries.ensureTable, found, Option.bind_some, held]
  | none =>
      have made : (entries.ensureTable name).find? name = some .emptyInline := by
        simp only [Entries.ensureTable, table]
        rw [Entries.find?_place, if_pos rfl]
      refine ⟨.emptyInline, made, Node.distinct_inline.mpr Entries.distinct_nil, rfl, ?_⟩
      cases found : entries.find? name with
      | none => rfl
      | some node =>
          rw [found, Option.bind_some] at table
          refine Dict.ext_get? fun other => ?_
          rw [Option.map_some, Option.map_some, Option.getD_some,
            (distinct.find? found).get?_members, table]
          rfl

end Toml

open Toml (Entries Node)

/-! ### Documents -/

namespace SettingsDocument

variable {document changed : SettingsDocument} {path : SettingPath} {node : Option Node}

/-- What stands under the name `hub`, if anything, is a table. -/
def HubIsTable (document : SettingsDocument) : Prop :=
  ∀ node, document.root.find? hubName = some node → node.entries?.isSome = true

/-- Settings can be edited just when nothing but a table bars the way to them. -/
theorem exists_set_iff :
    (∃ changed, document.set path node = .ok changed) ↔ document.HubIsTable := by
  simp only [set, find?_ensureHub, Option.bind_some, HubIsTable]
  cases found : document.root.find? hubName with
  | none => simp [Node.emptyTable, Node.entries?]
  | some hub => cases held : hub.entries? <;> simp [held]

theorem hubIsTable_of_hub? (present : document.hub?.isSome = true) : document.HubIsTable := by
  intro hub found
  rwa [hub?, found, Option.bind_some] at present

theorem hubIsTable_set (edited : document.set path node = .ok changed) : changed.HubIsTable :=
  hubIsTable_of_hub? (by rw [hub?_set edited, Option.isSome_some])

theorem erase_hub_set (edited : document.set path node = .ok changed) :
    changed.root.erase hubName = document.root.erase hubName ∧
      changed.trailing = document.trailing := by
  have made : (ensureHub document.root).erase hubName = document.root.erase hubName := by
    unfold ensureHub
    split
    · rfl
    · rw [Entries.erase, List.filter_append]
      simp [Entries.erase, Toml.Key.plain]
  simp only [set] at edited
  split at edited
  · cases edited
  · cases edited
    exact ⟨Entries.erase_within.trans made, rfl⟩

theorem get?_eq_read? (distinct : document.root.Distinct) :
    document.get? path = path.read? document.entries := by
  have raw := get?_entries distinct path.setting
  cases found : document.hub?.bind fun hub => hub.find? path.setting with
  | none =>
      rw [found, Option.map_none] at raw
      cases keyed : path.key <;>
        simp [get?, SettingPath.read?, SettingPath.fields, found, keyed, raw]
  | some node =>
      rw [found, Option.map_some] at raw
      cases keyed : path.key with
      | none => simp [get?, SettingPath.read?, found, keyed, raw]
      | some key =>
          have inside : node.Distinct := by
            obtain ⟨hub, held, there⟩ := Option.bind_eq_some_iff.mp found
            exact (distinct_hub? distinct held).find? there
          simp only [get?, SettingPath.read?, SettingPath.fields, found, keyed, raw,
            Option.map_some, Option.getD_some]
          exact (inside.get?_members key).symm

theorem changeHub_eq (path : SettingPath) (node : Option Node) (hub : Entries) :
    changeHub path node hub =
      match path.key with
      | none => hub.alter path.setting node
      | some key =>
          (hub.ensureTable path.setting).within path.setting (Entries.alter · key node) := by
  unfold changeHub
  cases path.key <;> cases node <;> rfl

/-- An edit of a document edits its raw values. -/
theorem entries_of_set (edited : document.set path node = .ok changed)
    (distinct : document.root.Distinct) (each : ∀ value, node = some value → value.Distinct) :
    changed.entries = path.edit (node.map Node.toJson) document.entries := by
  have hubDistinct : (document.hub?.getD []).Distinct := by
    cases held : document.hub? with
    | none => exact Entries.distinct_nil
    | some hub => exact distinct_hub? distinct held
  have before (name : String) : document.entries.get? name =
      ((document.hub?.getD []).find? name).map Node.toJson := by
    rw [get?_entries distinct]
    cases document.hub? <;> rfl
  have after (name : String) : changed.entries.get? name =
      ((changeHub path node (document.hub?.getD [])).find? name).map Node.toJson := by
    rw [get?_entries (distinct_set edited distinct each), hub?_set edited, Option.bind_some]
  refine Dict.ext_get? fun name => ?_
  by_cases here : name = path.setting
  · subst here
    rw [after, changeHub_eq]
    cases keyed : path.key with
    | none =>
        simp only [SettingPath.edit, keyed]
        rw [Entries.find?_alter, Dict.get?_alter]
        simp only [if_true]
    | some key =>
        obtain ⟨table, found, tableDistinct, isTable, members⟩ := hubDistinct.ensured path.setting
        simp only [SettingPath.edit, SettingPath.fields, keyed]
        rw [Entries.find?_within, if_pos rfl, found, Dict.get?_insert_self, before, ← members]
        exact congrArg some (tableDistinct.toJson_inside isTable each)
  · rw [after, find?_changeHub_of_ne here, SettingPath.get?_edit_of_ne here, before]

/-- Reading and editing: what was put at a path is read there, nothing else in the `hub` table
reads differently, the last edit at a path counts, and all that stands outside the table is as it
was. -/
theorem set_laws (document : SettingsDocument) (path : SettingPath) (value : Option Value)
    (table : document.HubIsTable) (distinct : document.root.Distinct) :
    ∃ changed, document.set path (value.map nodeOf) = .ok changed ∧
      changed.get? path = value.map Value.toJson ∧
      (∀ other, path.Apart other → changed.get? other = document.get? other) ∧
      (∀ later : Option Value, ∃ again direct, changed.set path (later.map nodeOf) = .ok again ∧
        document.set path (later.map nodeOf) = .ok direct ∧ again.entries = direct.entries) ∧
      changed.root.erase hubName = document.root.erase hubName ∧
      changed.trailing = document.trailing ∧ changed.root.Distinct := by
  have each (value : Option Value) : ∀ node, value.map nodeOf = some node → node.Distinct := by
    intro node same
    obtain ⟨value, _, rfl⟩ := Option.map_eq_some_iff.mp same
    exact distinct_nodeOf value
  have raw (value : Option Value) :
      (value.map nodeOf).map Node.toJson = value.map Value.toJson := by
    rw [Option.map_map]
    exact congrArg (value.map ·) (funext toJson_nodeOf)
  obtain ⟨changed, edited⟩ := exists_set_iff.mpr table
  have kept := distinct_set edited distinct (each value)
  have entries := entries_of_set edited distinct (each value)
  rw [raw] at entries
  refine ⟨changed, edited, ?_, fun other apart => ?_, fun later => ?_, (erase_hub_set edited).1,
    (erase_hub_set edited).2, kept⟩
  · rw [get?_eq_read? kept, entries, SettingPath.read?_edit]
  · rw [get?_eq_read? kept, get?_eq_read? distinct, entries,
      SettingPath.read?_edit_of_apart apart]
  · obtain ⟨again, editedAgain⟩ := exists_set_iff.mpr (hubIsTable_set edited)
    obtain ⟨direct, editedOnce⟩ := exists_set_iff.mpr table
    refine ⟨again, direct, editedAgain, editedOnce, ?_⟩
    rw [entries_of_set editedAgain kept (each later), entries,
      entries_of_set editedOnce distinct (each later), SettingPath.edit_edit]

def mixedText : String :=
  "top = 1 # kept\n[hub]\nport = 80\nlabels = \x7b a = \"x\", b = \"y\" \x7d\n[other]\nk = true\n"

def mixedDocument : SettingsDocument := (Toml.Document.parse? mixedText).getD ⟨[], []⟩

theorem mixedDocument_set :
    Toml.Document.parse? mixedText = some mixedDocument ∧ mixedDocument.HubIsTable ∧
      mixedDocument.root.Distinct ∧ ∃ changed,
        mixedDocument.set ⟨"labels", some "a"⟩ (some (nodeOf (.text "new"))) = .ok changed ∧
        changed.get? ⟨"labels", some "a"⟩ = some (.str "new") ∧
        changed.get? ⟨"labels", some "b"⟩ = some (.str "y") ∧
        changed.get? ⟨"port", none⟩ = some (.num (.int 80)) ∧
        (∃ again direct, changed.set ⟨"labels", some "a"⟩ none = .ok again ∧
          mixedDocument.set ⟨"labels", some "a"⟩ none = .ok direct ∧
          again.entries = direct.entries) ∧
        changed.root.erase hubName = mixedDocument.root.erase hubName := by
  have parsed : Toml.Document.parse? mixedText = some mixedDocument := by cbv
  have table : mixedDocument.HubIsTable := hubIsTable_of_hub? (by cbv)
  have distinct := Toml.Document.parse?_distinct parsed
  obtain ⟨changed, edited, read, others, last, outside, _⟩ := set_laws mixedDocument
    ⟨"labels", some "a"⟩ (some (.text "new")) table distinct
  have sibling : mixedDocument.get? ⟨"labels", some "b"⟩ = some (.str "y") := by cbv
  have port : mixedDocument.get? ⟨"port", none⟩ = some (.num (.int 80)) := by cbv
  refine ⟨parsed, table, distinct, changed, edited, read, ?_, ?_, last none, outside⟩
  · exact (others _ (.inr ⟨"a", "b", rfl, rfl, by decide⟩)).trans sibling
  · exact (others _ (.inl (by decide))).trans port

end SettingsDocument

end HubKeeper
