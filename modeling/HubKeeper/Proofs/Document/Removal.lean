import HubKeeper.Proofs.Document.RawEdits
import HubKeeper.Proofs.Document.Seeding

/-!
Removing what is not there.

To remove a setting that is absent, or an absent entry of a table, changes no raw value and so no
resolution.  An entry of anything but a table is looked for in a table that is made for it: the
setting is then there, as an empty map, and hides what lower layers and its rule have for it.
-/

namespace HubKeeper

theorem SettingPath.edit_absent {path : SettingPath} {raw : Dict Json}
    (absent : path.read? raw = none) :
    path.edit none raw =
      if path.key.isSome then raw.insert path.setting (.ofDict (path.fields raw)) else raw := by
  cases keyed : path.key with
  | none =>
      simp only [read?, keyed] at absent
      simp only [edit, keyed, Dict.alter, Option.isSome_none]
      exact Dict.erase_of_get?_eq_none absent
  | some key =>
      simp only [read?, keyed] at absent
      simp only [edit, keyed, Dict.alter, Option.isSome_some, if_true]
      rw [Dict.erase_of_get?_eq_none absent]

theorem Json.members_eq_empty {value : Json} (notObject : ∀ fields, value ≠ .obj fields) :
    value.members = .empty := by
  unfold members
  split
  · exact absurd rfl (notObject _)
  · rfl

namespace SettingsDocument

variable {document changed : SettingsDocument} {path : SettingPath}

/-- The path is of a whole setting, or its setting is a table. -/
def HasPlace (document : SettingsDocument) (path : SettingPath) : Prop :=
  path.key = none ∨ ∃ fields, document.entries.get? path.setting = some (.obj fields)

theorem eq_ofDict_fields {fields : List (String × Json)} (distinct : document.root.Distinct)
    (present : document.entries.get? path.setting = some (.obj fields)) :
    document.entries.get? path.setting = some (.ofDict (path.fields document.entries)) := by
  have raw := get?_entries distinct path.setting
  rw [present, eq_comm, Option.map_eq_some_iff] at raw
  obtain ⟨node, _, same⟩ := raw
  have members := Toml.Node.toJson_of_isSome (Toml.Node.isSome_entries? same)
  rw [same] at members
  rw [SettingPath.fields, present, Option.map_some, Option.getD_some, ← members]

theorem entries_of_placed (distinct : document.root.Distinct) (placed : document.HasPlace path)
    (absent : document.get? path = none) (edited : document.set path none = .ok changed) :
    changed.entries = document.entries := by
  rw [get?_eq_read? distinct] at absent
  rw [entries_of_set edited distinct nofun, Option.map_none, SettingPath.edit_absent absent]
  rcases placed with whole | ⟨fields, present⟩
  · rw [whole]
    rfl
  · split
    · have same := @Dict.alter_get? _ document.entries path.setting
      rwa [eq_ofDict_fields distinct present] at same
    · rfl

theorem entries_of_misplaced (distinct : document.root.Distinct)
    (misplaced : ¬ document.HasPlace path) (absent : document.get? path = none) (edited : document.set path none = .ok changed) :
    changed.entries = document.entries.insert path.setting (.obj []) := by
  obtain ⟨keyed, notObject⟩ := not_or.mp misplaced
  have nothing : path.fields document.entries = .empty := by
    unfold SettingPath.fields
    cases found : document.entries.get? path.setting with
    | none => rfl
    | some value =>
        refine Json.members_eq_empty fun fields same => notObject ⟨fields, ?_⟩
        rw [found, same]
  rw [get?_eq_read? distinct] at absent
  rw [entries_of_set edited distinct nofun, Option.map_none, SettingPath.edit_absent absent,
    if_pos (Option.isSome_iff_ne_none.mpr keyed), nothing]
  rfl

/-- Removing what is not there succeeds.  It changes no raw value and no resolution if the path
has its place; otherwise the setting becomes an empty map, and starts as one in every resolution
that has no value for it above the document. -/
theorem removal_of_absent (document : SettingsDocument) (path : SettingPath)
    (table : document.HubIsTable) (distinct : document.root.Distinct)
    (absent : document.get? path = none) :
    ∃ changed, document.set path none = .ok changed ∧
      (document.HasPlace path → changed.entries = document.entries ∧
        ∀ (schema : Schema) probe layers origin,
          schema.resolve probe (layers ++ [⟨origin, changed.entries⟩]) =
            schema.resolve probe (layers ++ [⟨origin, document.entries⟩])) ∧
      (¬ document.HasPlace path → changed.entries ≠ document.entries ∧
        changed.entries = document.entries.insert path.setting (.obj []) ∧
        ∀ (setting : Setting) layers origin values probe, setting.name = path.setting →
          setting.kind = .textMap → Layer.winner? layers setting.name = none →
            setting.initial (Layer.winner? (layers ++ [⟨origin, changed.entries⟩]) setting.name)
              values probe = .ok (some (.textMap .empty))) := by
  obtain ⟨changed, edited⟩ := exists_set_iff.mpr table
  refine ⟨changed, edited, fun placed => ?_, fun misplaced => ?_⟩
  · have same := entries_of_placed distinct placed absent edited
    exact ⟨same, fun schema probe layers origin => by rw [same]⟩
  · have pinned := entries_of_misplaced distinct misplaced absent edited
    have present : changed.entries.get? path.setting = some (.obj []) := by
      rw [pinned, Dict.get?_insert_self]
    refine ⟨fun same => misplaced (.inr ⟨[], same ▸ present⟩), pinned, ?_⟩
    intro setting layers origin values probe named isMap unsupplied
    have supplied : Layer.winner? [⟨origin, changed.entries⟩] setting.name = some (.obj []) := by
      rw [Layer.winner?, List.findSome?_singleton, named, present]
      rfl
    have coerced : setting.kind.coerce setting.name (.obj []) = .ok (.textMap .empty) := by
      rw [isMap]
      rfl
    rw [Layer.winner?_append, unsupplied, Option.none_or, supplied, Setting.initial]
    simp only [coerced]

def labelSchema : Schema :=
  let labels : Setting :=
    (Setting.declare "labels" .textMap).default (.textMap ⟨[("a", "x")], by decide⟩)
  ⟨[labels], [labels]⟩

def inlineLabels : SettingsDocument :=
  (Toml.Document.parse? "[hub]\nlabels = \x7b c = \"z\" \x7d\n").getD ⟨[], []⟩

theorem inlineLabels_removal :
    inlineLabels.HubIsTable ∧ inlineLabels.root.Distinct ∧
      inlineLabels.get? ⟨"labels", some "b"⟩ = none ∧
      inlineLabels.HasPlace ⟨"labels", some "b"⟩ ∧
      ∃ changed, inlineLabels.set ⟨"labels", some "b"⟩ none = .ok changed ∧
        changed.entries = inlineLabels.entries := by
  have parsed :
      Toml.Document.parse? "[hub]\nlabels = \x7b c = \"z\" \x7d\n" = some inlineLabels := by
    cbv
  have table : inlineLabels.HubIsTable := hubIsTable_of_hub? (by cbv)
  have distinct := Toml.Document.parse?_distinct parsed
  have absent : inlineLabels.get? ⟨"labels", some "b"⟩ = none := by cbv
  have placed : inlineLabels.HasPlace ⟨"labels", some "b"⟩ := .inr ⟨[("c", .str "z")], by cbv⟩
  obtain ⟨changed, edited, same, _⟩ := removal_of_absent inlineLabels ⟨"labels", some "b"⟩ table
    distinct absent
  exact ⟨table, distinct, absent, placed, changed, edited, (same placed).1⟩

def bareHub : SettingsDocument := (Toml.Document.parse? "[hub]\n").getD ⟨[], []⟩

theorem bareHub_parsed : Toml.Document.parse? "[hub]\n" = some bareHub := by
  cbv

theorem bareHub_hubIsTable : bareHub.HubIsTable :=
  hubIsTable_of_hub? (by cbv)

theorem bareHub_entries : bareHub.entries = .empty := by
  cbv

/-- With the entry that is not there, the default goes. -/
theorem bareHub_pinned :
    Toml.Document.parse? "[hub]\n" = some bareHub ∧ bareHub.HubIsTable ∧
      Schema.build labelSchema.settings = .ok labelSchema ∧
      SettingPath.parse labelSchema "labels.b" = .ok ⟨"labels", some "b"⟩ ∧
      bareHub.get? ⟨"labels", some "b"⟩ = none ∧
      ∃ changed, bareHub.set ⟨"labels", some "b"⟩ none = .ok changed ∧
        changed.entries ≠ bareHub.entries ∧
        ∀ probe,
          (labelSchema.resolve probe [⟨"document", bareHub.entries⟩]).result =
            .ok ⟨⟨[("labels", .textMap ⟨[("a", "x")], by decide⟩)], by decide⟩, .empty⟩ ∧
          (labelSchema.resolve probe [⟨"document", changed.entries⟩]).result =
            .ok ⟨⟨[("labels", .textMap .empty)], by decide⟩, .empty⟩ := by
  have path : SettingPath.parse labelSchema "labels.b" = .ok ⟨"labels", some "b"⟩ := by
    have split : Text.splitOn '.' "labels.b" = ["labels", "b"] := by cbv
    have known : labelSchema.get? "labels" = some (labelSchema.settings.head (by decide)) := by cbv
    simp only [SettingPath.parse, split, List.headD_cons, known]
    rfl
  have absent : bareHub.get? ⟨"labels", some "b"⟩ = none := by cbv
  obtain ⟨changed, edited⟩ : ∃ changed, bareHub.set ⟨"labels", some "b"⟩ none = .ok changed :=
    exists_set_iff.mpr bareHub_hubIsTable
  have misplaced : ¬ bareHub.HasPlace ⟨"labels", some "b"⟩ := by
    rw [HasPlace, bareHub_entries]
    simp
  have distinct := Toml.Document.parse?_distinct bareHub_parsed
  have pinned := entries_of_misplaced distinct misplaced absent edited
  refine ⟨bareHub_parsed, bareHub_hubIsTable, rfl, path, absent, changed, edited, ?_,
    fun probe => ?_⟩
  · rw [pinned, bareHub_entries]
    decide
  · rw [pinned, bareHub_entries]
    exact ⟨rfl, rfl⟩

end SettingsDocument

end HubKeeper
