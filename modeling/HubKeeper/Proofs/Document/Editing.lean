import HubKeeper.Proofs.Collections.Lookup
import HubKeeper.Proofs.Document.Canonical
import HubKeeper.Proofs.Toml.Entries
import HubKeeper.Proofs.Toml.Values

/-!
What an edit leaves in a document.

Whatever stood under the name of a setting before, the value that was put there reads
as it was put, and no other setting is touched.  All that is read off a document is
determined by its values, so it is the same for a document with the same values.
-/

namespace HubKeeper

open Toml (Entries Key Node)

namespace Toml.Entries

variable {entries : Entries} {name other : String} {value : Node}

theorem find?_replace {rename : Key → Key} (kept : ∀ key, (rename key).name = key.name)
    (present : (entries.find? name).isSome = true) (node : Node) (other : String) :
    (entries.modify name fun entry => (rename entry.1, node)).find? other =
      if other = name then some node else entries.find? other := by
  obtain ⟨old, found⟩ := Option.isSome_iff_exists.mp present
  refine (@find?_modify entries name other rename (fun _ => node) kept).trans ?_
  rw [found, Option.map_some]

theorem find?_append_plain (absent : ¬ (entries.find? name).isSome = true) (node : Node)
    (other : String) :
    find? (entries ++ [(.plain name, node)]) other =
      if other = name then some node else entries.find? other := by
  rw [Option.not_isSome_iff_eq_none] at absent
  rw [find?_append_single, show (Key.plain name).name = name from rfl]
  by_cases here : other = name
  · rw [if_pos here, here, absent, Option.none_or, if_pos rfl]
  · rw [if_neg here, if_neg (Ne.symm here), Option.or_none]

/-- A value that is put under a name takes the place of all that stood there, or comes
last; it may get decor. -/
theorem put_eq (entries : Entries) (name : String) (value : Node) :
    ∃ stored, stored.toJson = value.toJson ∧
      entries.put name value =
        if (entries.find? name).isSome then entries.modify name fun entry => (entry.1, stored)
        else entries ++ [(.plain name, stored)] := by
  unfold put
  cases found : entries.find? name with
  | some old =>
      refine ⟨if old.isValue then value.withDecor old.decor else value, by split <;> simp, rfl⟩
  | none => exact ⟨value, rfl, rfl⟩

theorem find?_put (entries : Entries) (name : String) (value : Node) :
    ∃ stored, stored.toJson = value.toJson ∧
      ∀ other, (entries.put name value).find? other =
        if other = name then some stored else entries.find? other := by
  obtain ⟨stored, json, put⟩ := put_eq entries name value
  refine ⟨stored, json, fun other => ?_⟩
  rw [put]
  split
  · exact find?_replace (fun _ => rfl) ‹_› stored other
  · exact find?_append_plain ‹_› stored other

theorem toJson_of_mem_put {entry : Key × Node} (member : entry ∈ entries.put name value)
    (named : entry.1.name = name) : entry.2.toJson = value.toJson := by
  obtain ⟨stored, json, put⟩ := put_eq entries name value
  rw [put] at member
  split at member
  · obtain ⟨before, _, rfl⟩ := List.mem_map.mp member
    split at named
    · rw [if_pos ‹_›, json]
    · exact absurd named ‹_›
  · rename_i absent
    rcases List.mem_append.mp member with member | member
    · rw [← mem_names] at absent
      exact absurd (named ▸ List.mem_map_of_mem member) absent
    · rw [List.mem_singleton.mp member, json]

theorem find?_place (entries : Entries) (name : String) (node : Node) (other : String) :
    (entries.place name node).find? other =
      if other = name then some node else entries.find? other := by
  unfold place
  split
  · rename_i found
    exact @find?_replace entries name Key.reset (fun _ => rfl) (by rw [found]; rfl) node other
  · rename_i absent
    exact find?_append_plain (by rw [absent]; exact Bool.false_ne_true) node other

theorem find?_ensureTable (entries : Entries) (name : String) :
    (∃ node inner, (entries.ensureTable name).find? name = some node ∧ node.entries? = some inner) ∧
      ∀ other, other ≠ name → (entries.ensureTable name).find? other = entries.find? other := by
  unfold ensureTable
  split
  · rename_i inner table
    obtain ⟨node, found, held⟩ := Option.bind_eq_some_iff.mp table
    exact ⟨⟨node, inner, found, held⟩, fun _ _ => rfl⟩
  · refine ⟨⟨.emptyInline, [], ?_, rfl⟩, fun other different => ?_⟩
    · rw [find?_place, if_pos rfl]
    · rw [find?_place, if_neg different]

/-- A change of the entries of a table, which leaves everything else. -/
def inside (change : Entries → Entries) (node : Node) : Node :=
  match node.entries? with
  | some inner => node.withEntries (change inner)
  | none => node

theorem find?_within {change : Entries → Entries} :
    (entries.within name change).find? other =
      if other = name then (entries.find? name).map (inside change) else entries.find? other :=
  @find?_modify_node entries name other (inside change)

theorem entries?_inside {change : Entries → Entries} {node : Node} :
    (inside change node).entries? = node.entries?.map change := by
  cases node <;> rfl

end Toml.Entries

namespace SettingsDocument

variable {document changed : SettingsDocument} {path : SettingPath} {node : Option Node}

theorem find?_ensureHub (root : Entries) :
    (ensureHub root).find? hubName = some ((root.find? hubName).getD .emptyTable) := by
  unfold ensureHub
  split
  · rename_i present
    obtain ⟨hub, found⟩ := Option.isSome_iff_exists.mp present
    rw [found, Option.getD_some]
  · rename_i absent
    rw [Entries.find?_append_plain absent, if_pos rfl, Option.not_isSome_iff_eq_none.mp absent,
      Option.getD_none]

/-- An edit changes the `hub` table, which is made if there is none. -/
theorem hub?_set (edited : document.set path node = .ok changed) :
    changed.hub? = some (changeHub path node (document.hub?.getD [])) := by
  simp only [set, find?_ensureHub, Option.bind_some] at edited
  split at edited
  · cases edited
  · rename_i inner held
    cases edited
    rw [hub?, Entries.find?_within, if_pos rfl, find?_ensureHub, Option.map_some, Option.bind_some,
      Entries.entries?_inside, held, Option.map_some, hub?]
    cases found : document.root.find? hubName with
    | some hub =>
        rw [found] at held
        rw [Option.bind_some, show hub.entries? = some inner from held, Option.getD_some]
    | none =>
        rw [found] at held
        cases held
        rfl

theorem find?_changeHub_of_ne {hub : Entries} {name : String} (different : name ≠ path.setting) :
    (changeHub path node hub).find? name = hub.find? name := by
  unfold changeHub
  have table := (Entries.find?_ensureTable hub path.setting).2 name different
  split
  · obtain ⟨stored, _, found⟩ := Entries.find?_put hub path.setting ‹_›
    rw [found, if_neg different]
  · rw [Entries.find?_erase, if_neg different]
  · rw [Entries.find?_within, if_neg different, table]
  · rw [Entries.find?_within, if_neg different, table]

theorem unknownKeys_eq_nil {schema : Schema} :
    document.unknownKeys schema = [] ↔
      ∀ name, (document.hub?.bind fun hub => hub.find? name).isSome →
        schema.contains name = true := by
  rw [unknownKeys, List.filter_eq_nil_iff]
  cases document.hub? with
  | none => simp [Entries.names]
  | some hub => simp [Entries.mem_names]

/-- The names in the `hub` table are those that the document supplies values for. -/
theorem unknownKeys_eq_nil_iff_entries {schema : Schema} :
    document.unknownKeys schema = [] ↔
      ∀ name, (document.entries.get? name).isSome = true → schema.contains name = true := by
  rw [unknownKeys, List.filter_eq_nil_iff, entries]
  simp only [Dict.isSome_get?_ofList, List.map_map, Bool.not_eq_true, Bool.not_eq_false']
  rfl

/-- An edit of a declared setting adds no undeclared one. -/
theorem unknownKeys_set {schema : Schema} (edited : document.set path node = .ok changed)
    (declared : schema.contains path.setting = true) (known : document.unknownKeys schema = []) :
    changed.unknownKeys schema = [] := by
  rw [unknownKeys_eq_nil, hub?_set edited]
  rw [unknownKeys_eq_nil] at known
  intro name present
  by_cases here : name = path.setting
  · exact here ▸ declared
  · rw [Option.bind_some, find?_changeHub_of_ne here] at present
    refine known name ?_
    cases hub : document.hub? with
    | some entries => simpa [hub] using present
    | none => simp [hub, Entries.find?_nil] at present

variable {setting key : String} {value : Node}

theorem entries_set (edited : document.set ⟨setting, none⟩ (some value) = .ok changed) :
    changed.entries.get? setting = some value.toJson := by
  obtain ⟨stored, _, put⟩ := Entries.find?_put (document.hub?.getD []) setting value
  have present : setting ∈ ((document.hub?.getD []).put setting value).names := by
    rw [Entries.mem_names, put, if_pos rfl, Option.isSome_some]
  rw [entries, hub?_set edited, Option.getD_some]
  refine Dict.get?_ofList_of_agree (fun json member => ?_) ?_
  · obtain ⟨entry, inside, same⟩ := List.mem_map.mp member
    obtain ⟨named, rfl⟩ := Prod.mk.inj same
    exact Entries.toJson_of_mem_put inside named
  · rw [List.map_map]
    exact present

theorem get?_set (edited : document.set ⟨setting, some key⟩ (some value) = .ok changed) :
    changed.get? ⟨setting, some key⟩ = some value.toJson := by
  obtain ⟨⟨node, inner, found, held⟩, _⟩ :=
    Entries.find?_ensureTable (document.hub?.getD []) setting
  obtain ⟨stored, json, put⟩ := Entries.find?_put inner key value
  have changes :
      (changeHub ⟨setting, some key⟩ (some value) (document.hub?.getD [])).find? setting =
        some (Entries.inside (fun inner => inner.put key value) node) := by
    refine Entries.find?_within.trans ?_
    rw [if_pos rfl, found, Option.map_some]
  rw [get?, hub?_set edited, Option.bind_some, changes]
  simp only [Entries.entries?_inside, held, Option.map_some, Option.bind_some, put, if_pos, json]

theorem toJson_nodeOf (value : Value) : (nodeOf value).toJson = value.toJson := by
  have texts (items : List String) :
      Node.itemsToJson (items.map .ofText) = items.map .str := by
    induction items with
    | nil => rfl
    | cons s items ih => rw [List.map_cons, Node.itemsToJson, ih]; rfl
  cases value with
  | text | integer | float | boolean => rfl
  | textSet set => rw [nodeOf, Node.toJson, texts, Value.toJson]
  | textList items => rw [nodeOf, Node.toJson, texts, Value.toJson]
  | textMap map =>
      have inOrder : AscendingKeys (map.entries.map fun entry => (entry.1, Json.str entry.2)) :=
        List.pairwise_map.mpr map.ascending
      have sorted := @foldl_insertEntry _ _ [] inOrder
      rw [nodeOf, Node.toJson, Toml.entriesToJson_eq_map, List.map_map, Json.sortFields]
      exact congrArg Json.obj sorted

end SettingsDocument

/-! ### Values of a document -/

namespace Toml

/-- The value at a path of names below a node. -/
def Node.value? (node : Node) : List String → Option Json
  | [] => some node.toJson
  | name :: path =>
      (node.entries?.bind fun inner => inner.find? name).bind fun inner => inner.value? path

/-- Tables whose entries have the same values have the same values. -/
theorem Node.value?_table {entries again : Entries} {layout layout' : TableLayout}
    (same : List.Forall₂ (fun entry entry' => entry.1.name = entry'.1.name ∧
      ∀ path, entry.2.value? path = entry'.2.value? path) again entries) (path : List String) :
    (Node.table again layout).value? path = (Node.table entries layout').value? path := by
  cases path with
  | nil =>
      have fields : Node.entriesToJson again = Node.entriesToJson entries := by
        induction same with
        | nil => rfl
        | cons first _ ih =>
            simp only [entriesToJson_eq_map, List.map_cons] at ih ⊢
            rw [ih, first.1, Option.some.inj (first.2 [])]
      simp only [Node.value?, Node.toJson, fields]
  | cons name path =>
      simp only [Node.value?, Node.entries?, Option.bind_some]
      induction same with
      | nil => rfl
      | @cons entry entry' _ _ first _ ih =>
          obtain ⟨key, node⟩ := entry
          obtain ⟨key', node'⟩ := entry'
          rw [Entries.find?_cons, Entries.find?_cons, first.1]
          by_cases here : key'.name = name
          · rw [if_pos here, if_pos here]
            exact first.2 path
          · rw [if_neg here, if_neg here]
            exact ih

namespace Document

def value? (document : Document) (path : List String) : Option Json :=
  (Node.table document.root .default).value? path

/-- Printed and parsed again, the document has the values it had. -/
def KeepsValues (document : Document) : Prop :=
  ∃ again, parse? document.text = some again ∧ ∀ path, again.value? path = document.value? path

end Document

end Toml

namespace SettingsDocument

variable {document again : SettingsDocument}

theorem value?_hub (document : SettingsDocument) (path : List String) :
    document.value? (hubName :: path) =
      (document.root.find? hubName).bind fun hub => hub.value? path := rfl

theorem value?_setting (document : SettingsDocument) (name : String) (path : List String) :
    document.value? (hubName :: name :: path) =
      (document.hub?.bind fun hub => hub.find? name).bind fun node => node.value? path := by
  rw [value?_hub, hub?]
  cases document.root.find? hubName with
  | none => rfl
  | some hub => rfl

theorem get?_eq (document : SettingsDocument) (path : SettingPath) :
    document.get? path = document.value? (hubName :: path.setting :: path.key.toList) := by
  rw [get?, value?_setting]
  cases document.hub?.bind fun hub => hub.find? path.setting with
  | none => rfl
  | some node =>
      cases path.key with
      | none => rfl
      | some key =>
          simp only [Option.bind_some, Option.toList_some, Node.value?]
          cases node.entries?.bind fun inner => inner.find? key with
          | none => rfl
          | some inner => rfl

theorem entries_eq (document : SettingsDocument) :
    document.entries.entries =
      match document.value? [hubName] with
      | some (.obj fields) => fields
      | _ => [] := by
  rw [entries, hub?, value?_hub]
  cases document.root.find? hubName with
  | none => rfl
  | some hub =>
      cases hub with
      | scalar value =>
          cases value with
          | float x => cases finite : x.isFinite <;>
              simp [Node.value?, Node.toJson, Toml.Scalar.toJson, Json.ofDouble, finite] <;> rfl
          | text | integer | boolean | moment => rfl
      | array | tables => rfl
      | inline entries | table entries =>
          simp only [Option.bind_some, Toml.Node.entries?, Option.getD_some, Node.value?,
            Node.toJson, Dict.entries_ofList, Toml.entriesToJson_eq_map, Json.sortFields]

section

variable (same : ∀ path, again.value? path = document.value? path)

include same

theorem entries_of_values : again.entries = document.entries :=
  Dict.ext (by rw [entries_eq, entries_eq, same])

theorem get?_of_values (path : SettingPath) : again.get? path = document.get? path := by
  rw [get?_eq, get?_eq, same]

theorem unknownKeys_of_values {schema : Schema} (known : document.unknownKeys schema = []) :
    again.unknownKeys schema = [] := by
  rw [unknownKeys_eq_nil_iff_entries] at known ⊢
  rwa [entries_of_values same]

end

end SettingsDocument

end HubKeeper
