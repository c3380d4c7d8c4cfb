import HubKeeper.Proofs.Document.Editing
import HubKeeper.Proofs.Settings.Coercion
import HubKeeper.Proofs.Toml.Distinct

/-!
Entries of a setting that is a map.

A map is read off a table of scalars, however the table is written, or off a text.  An edit of
one entry leaves the other entries of a table as they are.  A text has no entries to edit: a
table takes its place, and what the text held is gone.
-/

namespace HubKeeper

/-! ### Maps of scalars -/

namespace Json

/-- The text of a scalar that stands under a name. -/
def textField (field : String × Json) : Option (String × String) :=
  field.2.scalarText?.map fun text => (field.1, text)

theorem textField_eq_some {field : String × Json} {name text : String} :
    textField field = some (name, text) ↔ field.1 = name ∧ field.2.scalarText? = some text := by
  cases scalar : field.2.scalarText? <;> simp [textField, scalar]

theorem get?_ofList_filterMap (dict : Dict Json) (name : String) :
    (Dict.ofList (dict.entries.filterMap textField)).get? name =
      (dict.get? name).bind scalarText? := by
  have ascending : AscendingKeys (dict.entries.filterMap textField) := by
    refine List.pairwise_filterMap.mpr (dict.ascending.imp ?_)
    intro field later less entry read entry' read'
    rwa [← (textField_eq_some.mp read).1, ← (textField_eq_some.mp read').1]
  apply Option.ext
  intro text
  rw [Dict.get?_ofList ascending.nodup_keys, List.mem_filterMap, Option.bind_eq_some_iff]
  constructor
  · intro found
    obtain ⟨⟨key, value⟩, member, read⟩ := found
    obtain ⟨rfl, scalar⟩ := textField_eq_some.mp read
    exact ⟨value, Dict.mem_entries.mp member, scalar⟩
  · intro found
    obtain ⟨value, there, read⟩ := found
    exact ⟨(name, value), Dict.mem_entries.mpr there, textField_eq_some.mpr ⟨rfl, read⟩⟩

/-- A dictionary read as a map has the same keys, and the texts of the scalars. -/
theorem objectTexts?_ofDict_iff {dict : Dict Json} {map : Dict String} :
    (ofDict dict).objectTexts? = some map ↔
      ∀ name, (dict.get? name).map scalarText? = (map.get? name).map some := by
  have scalars : (∀ field ∈ dict.entries, (textField field).isSome = true) ↔
      ∀ name value, dict.get? name = some value → value.scalarText?.isSome = true := by
    simp [← Dict.mem_entries, textField]
  -- Reading goes entry by entry and fails with the first one that is no scalar.
  show (dict.entries.mapM textField).map Dict.ofList = some map ↔ _
  simp only [Option.map_eq_some_iff, mapM_eq_some_iff, scalars]
  constructor
  · intro read name
    obtain ⟨_, ⟨each, rfl⟩, rfl⟩ := read
    rw [get?_ofList_filterMap]
    cases found : dict.get? name with
    | none => rfl
    | some value =>
        obtain ⟨text, scalar⟩ := Option.isSome_iff_exists.mp (each name value found)
        simp [scalar]
  · intro same
    refine ⟨_, ⟨fun name value found => ?_, rfl⟩, Dict.ext_get? fun name => ?_⟩
    · have text := same name
      rw [found, Option.map_some, eq_comm, Option.map_eq_some_iff] at text
      obtain ⟨text, _, scalar⟩ := text
      rw [← scalar]
      rfl
    · rw [get?_ofList_filterMap]
      have text := same name
      cases found : dict.get? name with
      | none =>
          rw [found, Option.map_none, eq_comm, Option.map_eq_none_iff] at text
          exact text.symm
      | some value =>
          rw [found, Option.map_some, eq_comm, Option.map_eq_some_iff] at text
          obtain ⟨text, held, scalar⟩ := text
          rw [held, Option.bind_some, scalar]

end Json

namespace Toml

/-! ### Tables -/

theorem Node.toJson_of_entries? {node : Node} {inner : Entries} (held : node.entries? = some inner) :
    node.toJson = Json.ofDict (.ofList (entriesToJson inner)) := by
  cases node with
  | inline entries layout | table entries layout =>
      cases held
      rw [Node.toJson, Json.ofDict, Dict.entries_ofList, Json.sortFields]
  | scalar | array | tables => cases held

theorem Node.isSome_entries? {node : Node} {fields : List (String × Json)}
    (same : node.toJson = .obj fields) : node.entries?.isSome = true := by
  cases node with
  | inline | table => rfl
  | array | tables => cases same
  | scalar value =>
      cases value with
      | float x =>
          simp only [Node.toJson, Scalar.toJson, Json.ofDouble] at same
          split at same <;> cases same
      | text | integer | boolean | moment => cases same

/-- A table as JSON has at a name what stands there. -/
theorem Entries.Distinct.get?_ofList {entries : Entries} (distinct : entries.Distinct) (name : String) :
    (Dict.ofList (Node.entriesToJson entries)).get? name = (entries.find? name).map Node.toJson := by
  rw [entriesToJson_eq_map]
  cases found : entries.find? name with
  | none =>
      rw [Option.map_none, ← Option.not_isSome_iff_eq_none, Dict.isSome_get?_ofList, List.map_map]
      exact Entries.find?_eq_none_iff.mp found
  | some node =>
      have once : ((entries.map fun entry => (entry.1.name, entry.2.toJson)).map (·.1)).Nodup := by
        rw [List.map_map]
        exact distinct.once
      obtain ⟨⟨key, _⟩, there, rfl⟩ := Option.map_eq_some_iff.mp found
      obtain rfl : key.name = name := by simpa using List.find?_some there
      exact (Dict.get?_ofList once).mpr (List.mem_map_of_mem (List.mem_of_find?_eq_some there))

namespace Entries

variable {entries : Entries} {name : String} {value : Node}

/-! ### Edits -/

theorem Distinct.put (distinct : entries.Distinct) (valueDistinct : value.Distinct) (name : String) :
    (entries.put name value).Distinct := by
  unfold Entries.put
  split
  · rename_i old found
    refine distinct.modify (fun _ => rfl) fun _ _ _ => ?_
    dsimp only
    split
    · exact valueDistinct.withDecor _
    · exact valueDistinct
  · exact distinct.append ‹_› valueDistinct

theorem Distinct.place (distinct : entries.Distinct) (valueDistinct : value.Distinct)
    (name : String) : (entries.place name value).Distinct := by
  unfold Entries.place
  split
  · exact distinct.modify (fun _ => rfl) fun _ _ _ => valueDistinct
  · exact distinct.append ‹_› valueDistinct

theorem Distinct.ensureTable (distinct : entries.Distinct) (name : String) :
    (entries.ensureTable name).Distinct := by
  unfold Entries.ensureTable
  split
  · exact distinct
  · exact distinct.place (Node.distinct_inline.mpr distinct_nil) name

theorem Distinct.within (distinct : entries.Distinct) {change : Entries → Entries}
    (kept : ∀ {inner}, Distinct inner → (change inner).Distinct) (name : String) :
    (entries.within name change).Distinct := by
  refine distinct.modify (fun _ => rfl) fun entry member _ => ?_
  have before := distinct.each entry member
  dsimp only
  split
  · rename_i held
    exact before.withEntries (kept (before.entries? held))
  · exact before

end Entries

end Toml

open Toml (Entries Node)

namespace SettingsDocument

variable {document changed : SettingsDocument} {path : SettingPath}

theorem distinct_nodeOf (value : Value) : (nodeOf value).Distinct := by
  have texts (items : List String) : ∀ item ∈ items.map Node.ofText, item.Distinct :=
    List.forall_mem_map.mpr fun _ _ => .scalar
  cases value with
  | text | integer | float | boolean => exact .scalar
  | textSet | textList => exact .array (texts _)
  | textMap map =>
      refine .inline ?_ (List.forall_mem_map.mpr fun _ _ => .scalar)
      rw [Entries.names, List.map_map]
      exact map.ascending.nodup_keys

theorem distinct_changeHub {hub : Entries} {node : Option Node} (distinct : hub.Distinct)
    (each : ∀ value, node = some value → value.Distinct) :
    (changeHub path node hub).Distinct := by
  unfold changeHub
  split
  · exact distinct.put (each _ rfl) _
  · exact distinct.erase _
  · exact (distinct.ensureTable _).within (fun inner => inner.put (each _ rfl) _) _
  · exact (distinct.ensureTable _).within (fun inner => inner.erase _) _

theorem distinct_set {node : Option Node} (edited : document.set path node = .ok changed)
    (distinct : document.root.Distinct) (each : ∀ value, node = some value → value.Distinct) :
    changed.root.Distinct := by
  have made : (ensureHub document.root).Distinct := by
    unfold ensureHub
    split
    · exact distinct
    · rename_i absent
      refine distinct.append ?_ (Node.distinct_table.mpr Entries.distinct_nil)
      exact Option.not_isSome_iff_eq_none.mp absent
  simp only [set] at edited
  split at edited
  · cases edited
  · cases edited
    exact made.within (fun hub => distinct_changeHub hub each) _

theorem distinct_hub? {hub : Entries} (distinct : document.root.Distinct)
    (held : document.hub? = some hub) : hub.Distinct := by
  obtain ⟨node, found, held⟩ := Option.bind_eq_some_iff.mp held
  exact (distinct.find? found).entries? held

theorem get?_entries (distinct : document.root.Distinct) (name : String) :
    document.entries.get? name =
      (document.hub?.bind fun hub => hub.find? name).map Node.toJson := by
  rw [entries, ← Toml.entriesToJson_eq_map]
  cases held : document.hub? with
  | none => rfl
  | some hub => exact (distinct_hub? distinct held).get?_ofList name

/-! ### Maps -/

/-- A map with a text under a key, or with nothing there. -/
def editMap (key : String) (text : Option String) (map : Dict String) : Dict String :=
  text.elim (map.erase key) (map.insert key)

/-- What is left of a map when one of its entries is edited: all of a table, and nothing of a
text. -/
def editable (raw : Json) (map : Dict String) : Dict String :=
  match raw with
  | .str _ => .empty
  | _ => map

theorem get?_editMap {key : String} {text : Option String} {map : Dict String} {name : String} :
    (editMap key text map).get? name = if name = key then text else map.get? name := by
  cases text with
  | none => exact Dict.get?_erase
  | some text => exact Dict.get?_insert

/-- Maps are the same after an edit when they were the same but for the entry. -/
theorem editMap_inj {key : String} {text : Option String} {left right : Dict String} :
    editMap key text left = editMap key text right ↔ left.erase key = right.erase key := by
  have same_iff (first second : Dict String) :
      first = second ↔ ∀ name, first.get? name = second.get? name :=
    ⟨fun same name => by rw [same], Dict.ext_get?⟩
  rw [same_iff, same_iff]
  refine forall_congr' fun name => ?_
  rw [get?_editMap, get?_editMap, Dict.get?_erase, Dict.get?_erase]
  split <;> simp

/-- What could not be edited is missed after an edit, unless it was the entry alone. -/
theorem editMap_editable {key : String} {text : Option String} {raw : Json} {map : Dict String} :
    editMap key text (editable raw map) = editMap key text map ↔
      ∀ written, raw = .str written → map.erase key = .empty := by
  rw [editMap_inj]
  cases raw with
  | str written =>
      have nothing : Dict.empty.erase key = (.empty : Dict String) := Dict.erase_of_get?_eq_none rfl
      simp [editable, nothing, eq_comm]
  | null | bool | num | arr | obj => simp [editable]

/-- Changes an entry of a table as an edit does. -/
def editEntries (key : String) (text : Option String) (inner : Entries) : Entries :=
  text.elim (inner.erase key) fun text => inner.put key (.ofText text)

theorem changeHub_entry (setting key : String) (text : Option String) (hub : Entries) :
    changeHub ⟨setting, some key⟩ (text.map .ofText) hub =
      (hub.ensureTable setting).within setting (editEntries key text) := by
  cases text <;> rfl

section Table

variable {node : Node} {inner : Entries} {map : Dict String}

theorem textMap?_table_iff (held : node.entries? = some inner) (distinct : inner.Distinct) :
    node.toJson.textMap? = some map ↔
      ∀ name, (inner.find? name).map (fun node => node.toJson.scalarText?) =
        (map.get? name).map some := by
  rw [Node.toJson_of_entries? held]
  refine Json.objectTexts?_ofDict_iff.trans (forall_congr' fun name => ?_)
  rw [distinct.get?_ofList, Option.map_map]
  rfl

/-- A table with one entry changed is read as the map with this entry changed. -/
theorem textMap?_inside (distinct : node.Distinct) (held : node.entries? = some inner)
    (read : node.toJson.textMap? = some map) (key : String) (text : Option String) :
    (Entries.inside (editEntries key text) node).toJson.textMap? = some (editMap key text map) := by
  have before := distinct.entries? held
  have changed : (Entries.inside (editEntries key text) node).entries? =
      some (editEntries key text inner) := by
    rw [Entries.entries?_inside, held, Option.map_some]
  rw [textMap?_table_iff held before] at read
  cases text with
  | none =>
      rw [textMap?_table_iff changed (before.erase key)]
      intro name
      simp only [editEntries, Option.elim_none, Entries.find?_erase, get?_editMap]
      split
      · rfl
      · exact read name
  | some text =>
      obtain ⟨stored, json, put⟩ := Entries.find?_put inner key (.ofText text)
      rw [textMap?_table_iff changed (before.put .scalar key)]
      intro name
      simp only [editEntries, Option.elim_some, put, get?_editMap]
      split
      · rw [Option.map_some, json]
        rfl
      · exact read name

/-- A map is read off a table or off a text. -/
theorem textMap?_cases {raw : Json} (read : raw.textMap? = some map) :
    (∃ fields, raw = .obj fields) ∨ ∃ text, raw = .str text := by
  cases raw with
  | obj fields => exact .inl ⟨fields, rfl⟩
  | str text => exact .inr ⟨text, rfl⟩
  | null | bool | num | arr => cases read

end Table

/-- Where an entry of a map was edited, the setting is read as the map that could be edited, with
this entry changed. -/
theorem textMap?_set {setting key : String} {text : Option String} {found : Json}
    {map : Dict String} (edited : document.set ⟨setting, some key⟩ (text.map .ofText) = .ok changed)
    (distinct : document.root.Distinct) (present : document.entries.get? setting = some found)
    (read : found.textMap? = some map) :
    ∃ raw, changed.entries.get? setting = some raw ∧
      raw.textMap? = some (editMap key text (editable found map)) := by
  have each : ∀ value, text.map Node.ofText = some value → value.Distinct := by
    intro value same
    obtain ⟨_, _, rfl⟩ := Option.map_eq_some_iff.mp same
    exact .scalar
  rw [get?_entries distinct] at present
  obtain ⟨node, there, rfl⟩ := Option.map_eq_some_iff.mp present
  obtain ⟨hub, held, there⟩ := Option.bind_eq_some_iff.mp there
  have hubDistinct := distinct_hub? distinct held
  rw [get?_entries (distinct_set edited distinct each), hub?_set edited, held, Option.getD_some,
    Option.bind_some, changeHub_entry, Entries.find?_within, if_pos rfl]
  -- The entry goes into the table that stands there, or into a new one in place of all else.
  cases table : node.entries? with
  | some inner =>
      have same : hub.ensureTable setting = hub := by
        simp [Entries.ensureTable, there, table]
      have kept : editable node.toJson map = map := by
        rw [Node.toJson_of_entries? table]
        rfl
      rw [same, there, kept]
      exact ⟨_, rfl, textMap?_inside (hubDistinct.find? there) table read key text⟩
  | none =>
      have made : (hub.ensureTable setting).find? setting = some .emptyInline := by
        simp [Entries.ensureTable, there, table, Entries.find?_place]
      have nothing : editable node.toJson map = .empty := by
        obtain ⟨fields, same⟩ | ⟨text, same⟩ := textMap?_cases read
        · have object := Node.isSome_entries? same
          rw [table] at object
          cases object
        · rw [same]
          rfl
      have empty : Node.emptyInline.toJson.textMap? = some .empty := rfl
      rw [made, nothing]
      exact ⟨_, rfl, textMap?_inside (Node.distinct_inline.mpr Entries.distinct_nil) rfl empty key
        text⟩

end SettingsDocument

end HubKeeper
