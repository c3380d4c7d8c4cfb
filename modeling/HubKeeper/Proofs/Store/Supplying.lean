import HubKeeper.Proofs.Document.Removal
import HubKeeper.Proofs.Store.Entries

/-!
What a stored value supplies.

A raw value that is accepted for a setting is the entry of the setting from then on, and a
resolution without a higher value for the setting starts from the typed value that was accepted.
Floats that are not finite have null for an entry: they are accepted and supply nothing, so the
rule of the setting decides as before.
-/

namespace HubKeeper

theorem Layer.supplies_append_singleton {name : String} {higher : List Layer} {layer : Layer}
    {raw : Json} (unsupplied : ∀ json, ¬ Supplies name higher json) :
    Supplies name (higher ++ [layer]) raw ↔
      layer.values.get? name = some raw ∧ raw.isNull = false := by
  rw [supplies_append unsupplied, ← winner?_eq_some_iff, winner?, List.findSome?_singleton,
    Option.filter_eq_some_iff]
  simp

namespace Setting

theorem Normalizes.eq_of_normalizer_eq_none {setting : Setting} {probe : HostProbe}
    {values : Dict Value} {start outcome : Option Value}
    (normalizes : setting.Normalizes probe values start outcome)
    (none : setting.normalizer = none) : outcome = start := by
  cases normalizes with
  | absent => rfl
  | kept _ => rfl
  | changed normalizer _ => cases none.symm.trans normalizer

variable {setting : Setting} {higher : List Layer} {layer : Layer} {probe : HostProbe}
  {values : Dict Value} {value : Value}

/-- Where the lowest layer holds the JSON form of a value, the setting starts from this value, or
from its rule if the form is null. -/
theorem Satisfied.starts_from (satisfied : setting.Satisfied (higher ++ [layer]) probe values)
    (unsupplied : ∀ json, ¬ Layer.Supplies setting.name higher json)
    (held : layer.values.get? setting.name = some value.toJson)
    (coerced : value.IsFinite → setting.kind.coerce? value.toJson = some value) :
    ∃ start, (value.IsFinite → start = some value) ∧
      (¬ value.IsFinite → setting.Derives probe values start) ∧
      setting.Normalizes probe values start (values.get? setting.name) := by
  obtain ⟨start, starts, normalizes, _⟩ := satisfied
  refine ⟨start, fun finite => ?_, fun infinite => ?_, normalizes⟩
  · have supplied : Layer.Supplies setting.name (higher ++ [layer]) value.toJson :=
      (Layer.supplies_append_singleton unsupplied).mpr ⟨held, Value.isNull_toJson.mpr finite⟩
    obtain ⟨read, coercedToo, rfl⟩ := (starts_iff_of_supplies supplied).mp starts
    exact coercedToo.symm.trans (coerced finite)
  · have unsuppliedBelow : ∀ json, ¬ Layer.Supplies setting.name (higher ++ [layer]) json := by
      intro json other
      obtain ⟨same, notNull⟩ := (Layer.supplies_append_singleton unsupplied).mp other
      cases held.symm.trans same
      exact infinite (Value.isNull_toJson.mp notNull)
    exact (starts_iff_of_unsupplied unsuppliedBelow).mp starts

end Setting

namespace Store

variable {store : Store} {state after : State} {name : String} {raw : Json}

theorem layer_of_set (named : SettingPath.parse store.schema name = .ok ⟨name, none⟩)
    (present : raw.isNull = false) (accepted : store.set state name raw = (after, .ok ())) :
    ∃ setting value layer, store.schema.get? name = some setting ∧
      setting.kind.coerce? raw = some value ∧ store.layer after = (after, .ok layer) ∧
      layer.values.get? name = some value.toJson := by
  obtain ⟨path, typed, accessed, copy, changed, checked, _, edited, rfl⟩ := set_ok accepted
  obtain ⟨parsed, setting, known, typedFor⟩ := checked_ok checked
  obtain rfl : path = ⟨name, none⟩ := Except.ok.inj (parsed.symm.trans named)
  obtain ⟨value, coerced, rfl⟩ := stored_ok present typedFor
  have held := SettingsDocument.entries_set edited
  rw [SettingsDocument.toJson_nodeOf] at held
  exact ⟨setting, value, ⟨"settings document " ++ store.path, changed.entries⟩, known, coerced, rfl,
    held⟩

/-- A value that is accepted for a setting is its entry, and not null unless it was taken for a
float that is not finite.  Where no higher layer has a value for the setting, resolution starts
from the value that was accepted, and from the rule only if the entry is null. -/
theorem set_supplied (store : Store) (settings : List Setting) (state after : State)
    (name : String) (raw : Json) (built : Schema.build settings = .ok store.schema)
    (named : SettingPath.parse store.schema name = .ok ⟨name, none⟩)
    (present : raw.isNull = false) (accepted : store.set state name raw = (after, .ok ())) :
    ∃ setting value layer found, store.schema.get? name = some setting ∧
      setting.kind.coerce? raw = some value ∧ store.layer after = (after, .ok layer) ∧
      layer.values.get? name = some found ∧ (found.isNull = false ↔ value.IsFinite) ∧
      ∀ higher probe snapshot, (∀ json, ¬ Layer.Supplies name higher json) →
        (store.schema.resolve probe (higher ++ [layer])).result = .ok snapshot →
          ∃ start, (value.IsFinite → start = some value) ∧
            (¬ value.IsFinite → setting.Derives probe snapshot.values start) ∧
            setting.Normalizes probe snapshot.values start (snapshot.get? name) := by
  obtain ⟨setting, value, layer, known, coerced, view, held⟩ := layer_of_set named present accepted
  refine ⟨setting, value, layer, _, known, coerced, view, held, Value.isNull_toJson, ?_⟩
  intro higher probe snapshot unsupplied resolved
  have solution := Schema.solution_of_resolve (Schema.build_wellOrdered built) resolved
  obtain rfl : setting.name = name := by simpa using List.find?_some known
  have again (finite : value.IsFinite) : setting.kind.coerce? value.toJson = some value := by
    rw [← Kind.kind_of_coerce? coerced]
    exact Kind.coerce?_toJson (Kind.fits_of_coerce? coerced) finite
  exact (solution.satisfied setting (List.mem_of_find?_eq_some known)).starts_from unsupplied held
    again

def ratio : Setting :=
  (Setting.declare "ratio" .float).default (.float ⟨0x3fe0000000000000⟩)

def ratioStore : Store :=
  ⟨"hub", ⟨[ratio], [ratio]⟩⟩

def freshRatio : State :=
  .fresh (labelFiles "[hub]\n")

theorem ratioStore_get? : ratioStore.schema.get? "ratio" = some ratio := rfl

theorem ratioStore_parse : SettingPath.parse ratioStore.schema "ratio" = .ok ⟨"ratio", none⟩ := by
  have split : Text.splitOn '.' "ratio" = ["ratio"] := by cbv
  simp only [SettingPath.parse, split, List.headD_cons, ratioStore_get?]
  rfl

theorem ratioStore_access : ratioStore.access freshRatio =
    (⟨labelFiles "[hub]\n", some ⟨SettingsDocument.bareHub, .loaded⟩⟩,
      .ok ⟨SettingsDocument.bareHub, .loaded⟩) := by
  have read : (labelFiles "[hub]\n").readText ratioStore.path = .ok "[hub]\n" :=
    labelFiles_readText _
  have parsed : ratioStore.readDocument "[hub]\n" = .ok SettingsDocument.bareHub := by cbv
  simp only [access, freshRatio, State.fresh, readOrSeed, read, parsed]

/-- A text that is taken for a float is accepted, and makes the only entry. -/
theorem ratioStore_set {text : String} {x : Binary64}
    (coerced : Kind.float.coerce? (.str text) = some (.float x)) :
    ∃ after, ratioStore.set freshRatio "ratio" (.str text) = (after, .ok ()) ∧
      ratioStore.layer after =
        (after, .ok ⟨"settings document hub", .insert .empty "ratio" (.ofDouble x)⟩) := by
  have typed : stored ratio ⟨"ratio", none⟩ (.str text) = .ok (some (.float x)) := by
    have same : ratio.kind.coerce "ratio" (.str text) = .ok (.float x) := by
      rw [Kind.coerce, show ratio.kind = .float from rfl, coerced]
    simp [stored, Json.isNull, same]
  have checked : ratioStore.checked "ratio" (.str text) =
      .ok (⟨"ratio", none⟩, some (.float x)) := by
    simp only [checked, ratioStore_parse, ratioStore_get?, typed]
    rfl
  obtain ⟨changed, edited⟩ : ∃ changed, SettingsDocument.bareHub.set ⟨"ratio", none⟩
      (some (SettingsDocument.nodeOf (.float x))) = .ok changed :=
    SettingsDocument.exists_set_iff.mpr SettingsDocument.bareHub_hubIsTable
  have distinct := Toml.Document.parse?_distinct SettingsDocument.bareHub_parsed
  have entries : changed.entries = .insert .empty "ratio" (.ofDouble x) := by
    rw [SettingsDocument.entries_of_set edited distinct
      (fun node same => Option.some.inj same ▸ SettingsDocument.distinct_nodeOf _),
      SettingsDocument.bareHub_entries, Option.map_some, SettingsDocument.toJson_nodeOf]
    rfl
  refine ⟨⟨labelFiles "[hub]\n", some ⟨changed, .dirty⟩⟩, ?_, ?_⟩
  · simp only [set, checked, ratioStore_access, Option.map_some, edited]
  · simp only [layer, observe, access, entries]
    rfl

theorem ratioStore_supplied :
    Schema.build [ratio] = .ok ratioStore.schema ∧
      SettingPath.parse ratioStore.schema "ratio" = .ok ⟨"ratio", none⟩ ∧
      ∃ after layer, ratioStore.set freshRatio "ratio" (.str "0.25") = (after, .ok ()) ∧
        ratioStore.layer after = (after, .ok layer) ∧
        ∀ probe, ∃ snapshot, (ratioStore.schema.resolve probe [layer]).result = .ok snapshot ∧
          snapshot.get? "ratio" = some (.float ⟨0x3fd0000000000000⟩) := by
  have quarter : Kind.float.coerce? (.str "0.25") = some (.float ⟨0x3fd0000000000000⟩) := by
    decide +kernel
  have built : Schema.build [ratio] = .ok ratioStore.schema := rfl
  obtain ⟨after, accepted, view⟩ := ratioStore_set quarter
  obtain ⟨setting, value, layer, found, known, coerced, again, _, _, starts⟩ :=
    set_supplied ratioStore [ratio] freshRatio after "ratio" (.str "0.25") built ratioStore_parse
      rfl accepted
  cases ratioStore_get?.symm.trans known
  cases quarter.symm.trans coerced
  cases (Prod.ext_iff.mp (view.symm.trans again)).2
  refine ⟨built, ratioStore_parse, after, _, accepted, view, fun probe => ?_⟩
  obtain ⟨snapshot, resolved⟩ : ∃ snapshot, (ratioStore.schema.resolve probe
      [⟨"settings document hub", .insert .empty "ratio" (.ofDouble ⟨0x3fd0000000000000⟩)⟩]).result =
        .ok snapshot := ⟨_, rfl⟩
  obtain ⟨start, taken, _, normalizes⟩ := starts [] probe snapshot nofun resolved
  have finite : (Value.float ⟨0x3fd0000000000000⟩).IsFinite := Value.isFinite_float.mpr (by decide)
  exact ⟨snapshot, resolved, (normalizes.eq_of_normalizer_eq_none rfl).trans (taken finite)⟩

/-- An infinity is accepted, and the default stays. -/
theorem ratioStore_defaulted :
    Schema.build [ratio] = .ok ratioStore.schema ∧
      SettingPath.parse ratioStore.schema "ratio" = .ok ⟨"ratio", none⟩ ∧
      ∃ after layer, ratioStore.set freshRatio "ratio" (.str "inf") = (after, .ok ()) ∧
        ratioStore.layer after = (after, .ok layer) ∧ layer.values.get? "ratio" = some .null ∧
        ∀ probe, ∃ snapshot, (ratioStore.schema.resolve probe [layer]).result = .ok snapshot ∧
          snapshot.get? "ratio" = some (.float ⟨0x3fe0000000000000⟩) := by
  have infinity : Kind.float.coerce? (.str "inf") = some (.float ⟨0x7ff0000000000000⟩) := by cbv
  obtain ⟨after, accepted, view⟩ := ratioStore_set infinity
  exact ⟨rfl, ratioStore_parse, after, _, accepted, view, rfl, fun _ => ⟨_, rfl, rfl⟩⟩

end Store

end HubKeeper
