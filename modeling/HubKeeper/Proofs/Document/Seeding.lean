import HubKeeper.Proofs.Document.Canonical
import HubKeeper.Proofs.Settings.Solution

/-!
Seeding a missing document changes no setting.

Below all other layers the generated document supplies the constants that the rules give
anyway, so a resolution with it is the resolution without it: the same snapshot or the
same error, after the same questions to the host.
-/

namespace HubKeeper

namespace Layer

variable {layers more : List Layer} {name : String} {schema : Schema}

theorem winner?_append :
    winner? (layers ++ more) name = (winner? layers name).or (winner? more name) :=
  List.findSome?_append

/-- Layers below others supply what those do not. -/
theorem supplies_append {raw : Json} (unsupplied : ∀ json, ¬ Supplies name layers json) :
    Supplies name (layers ++ more) raw ↔ Supplies name more raw := by
  rw [← winner?_eq_some_iff, winner?_append, winner?_eq_none_iff.mpr unsupplied, Option.none_or,
    winner?_eq_some_iff]

/-- Layers that name declared settings only may be added to any others. -/
theorem undeclared?_append (declared : undeclared? schema more = none) :
    undeclared? schema (layers ++ more) = undeclared? schema layers := by
  have append : undeclared? schema (layers ++ more) =
      (undeclared? schema layers).or (undeclared? schema more) := List.findSome?_append
  rw [append, declared, Option.or_none]

end Layer

namespace Setting

variable {setting : Setting} {value : Value}

/-- A constant counts the same whether a layer supplies it or the rule does. -/
theorem initial_constant (rule : setting.rule = .constant value) (kind : value.kind = setting.kind)
    (fits : value.Fits) (finite : value.IsFinite) (values : Dict Value) (probe : HostProbe) :
    setting.initial (some value.toJson) values probe = setting.initial none values probe := by
  have coerced : setting.kind.coerce setting.name value.toJson = .ok value := by
    rw [Kind.coerce, ← kind, Kind.coerce?_toJson fits finite]
  simp only [initial, coerced, derived, rule]

end Setting

namespace Schema

variable {layers more : List Layer} {probe : HostProbe}

/-- Evaluation looks at layers only for what settings start with. -/
theorem evaluateAll_congr {settings : List Setting}
    (alike : ∀ setting ∈ settings, ∀ values,
      setting.initial (Layer.winner? layers setting.name) values probe =
        setting.initial (Layer.winner? more setting.name) values probe) (values : Dict Value) :
    evaluateAll layers probe settings values = evaluateAll more probe settings values := by
  induction settings generalizing values with
  | nil => rfl
  | cons setting rest ih =>
      have further := ih fun other member => alike other (List.mem_cons_of_mem _ member)
      simp only [evaluateAll, Setting.evaluate, alike setting List.mem_cons_self, further]

end Schema

namespace SettingsDocument

variable {settings : List Setting} {setting : Setting} {name : String} {json : Json}

theorem writtenConstant?_eq_some {value : Value} :
    writtenConstant? setting = some value ↔
      setting.rule = .constant value ∧ setting.sensitive = false := by
  unfold writtenConstant?
  cases setting.rule with
  | constant constant => cases setting.sensitive <;> simp
  | explicit | fallback | computed => simp

theorem mem_written :
    (name, json) ∈ written settings ↔
      ∃ setting ∈ settings, setting.name = name ∧ setting.sensitive = false ∧
        ∃ value, setting.rule = .constant value ∧ json = value.toJson := by
  simp only [written, List.mem_filterMap, Option.map_eq_some_iff, writtenConstant?_eq_some,
    Prod.mk.injEq]
  grind

theorem get?_written (distinct : (settings.map (·.name)).Nodup) :
    (Dict.ofList (written settings)).get? name = some json ↔
      ∃ setting ∈ settings, setting.name = name ∧ setting.sensitive = false ∧
        ∃ value, setting.rule = .constant value ∧ json = value.toJson := by
  rw [Dict.get?_ofList (distinct_written distinct), mem_written]

abbrev seedLayer (layerName : String) (settings : List Setting) : Layer :=
  ⟨layerName, .ofList (written settings)⟩

theorem contains_of_written {schema : Schema} (distinct : schema.names.Nodup)
    (found : (Dict.ofList (written schema.settings)).get? name = some json) :
    schema.contains name = true := by
  obtain ⟨setting, declared, rfl, _⟩ := (get?_written distinct).mp found
  exact Schema.contains_iff.mpr (List.mem_map_of_mem declared)

theorem undeclared?_seedLayer {schema : Schema} (distinct : schema.names.Nodup)
    (layerName : String) :
    Layer.undeclared? schema [seedLayer layerName schema.settings] = none := by
  refine Layer.undeclared?_eq_none (List.forall_mem_singleton.mpr fun name listed => ?_)
  obtain ⟨json, found⟩ := Dict.mem_keys.mp listed
  exact Schema.contains_iff.mp (contains_of_written distinct found)

/-- A setting starts with the same value below a generated document as without it. -/
theorem initial_seedLayer (distinct : (settings.map (·.name)).Nodup) (member : setting ∈ settings)
    (documentable : Documentable setting) (layerName : String) (layers : List Layer)
    (values : Dict Value) (probe : HostProbe) :
    setting.initial (Layer.winner? (layers ++ [seedLayer layerName settings]) setting.name) values
        probe =
      setting.initial (Layer.winner? layers setting.name) values probe := by
  rw [Layer.winner?_append]
  cases above : Layer.winner? layers setting.name with
  | some raw => rfl
  | none =>
      rw [Option.none_or]
      cases seeded : Layer.winner? [seedLayer layerName settings] setting.name with
      | none => rfl
      | some raw =>
          rw [Layer.winner?, List.findSome?_singleton, Option.filter_eq_some_iff] at seeded
          obtain ⟨found, present⟩ := seeded
          obtain ⟨other, declared, same, _, value, rule, rfl⟩ := (get?_written distinct).mp found
          obtain rfl : other = setting := List.inj_on_of_nodup_map distinct declared member same
          exact Setting.initial_constant rule (documentable.kind value rule)
            (documentable.fits value rule) (Value.isNull_toJson.mp (by simpa using present)) values
            probe

/-- A document is generated for all declarations that can be written down, its settings
are exactly the constants that are not secret, and below any other layers it changes
nothing about a resolution. -/
theorem canonical_transparent {settings : List Setting} {schema : Schema}
    (accepted : Schema.build settings = .ok schema)
    (documentable : ∀ setting ∈ settings, Documentable setting) :
    ∃ document, canonical schema = .ok document ∧
      (∀ name json, document.entries.get? name = some json ↔
        ∃ setting ∈ settings, setting.name = name ∧ setting.sensitive = false ∧
          ∃ value, setting.rule = .constant value ∧ json = value.toJson) ∧
      ∀ layerName layers probe,
        schema.resolve probe (layers ++ [⟨layerName, document.entries⟩]) =
          schema.resolve probe layers := by
  obtain rfl := Schema.build_settings accepted
  have wellOrdered := Schema.build_wellOrdered accepted
  obtain ⟨document, generated, entries⟩ := canonical_spec schema documentable wellOrdered.distinct
  refine ⟨document, generated, fun name json => ?_, fun layerName layers probe => ?_⟩
  · rw [entries, get?_written wellOrdered.distinct]
  · have alike := fun setting (member : setting ∈ schema.order) values =>
      initial_seedLayer wellOrdered.distinct (wellOrdered.complete.mem_iff.mp member)
        (documentable setting (wellOrdered.complete.mem_iff.mp member)) layerName layers values probe
    have evaluated := Schema.evaluateAll_congr alike .empty
    rw [entries, Schema.resolve, Schema.resolve, evaluated,
      Layer.undeclared?_append (undeclared?_seedLayer wellOrdered.distinct layerName)]

/-- Constants of several kinds, a secret one, and a description that looks like settings. -/
def mixedSettings : List Setting :=
  [((Setting.declare "motd" .text).default (.text "it's\n\"here\"")).describe "[other]\nttl = 1",
    (Setting.declare "ttl" .integer).default (.integer (-300)),
    (Setting.declare "ratio" .float).default (.float ⟨0x3fb999999999999a⟩),
    ((Setting.declare "token" .text).default (.text "s3cret")).secret,
    (Setting.declare "vars" .textMap).default
      (.textMap ⟨[("a b", "\t"), ("k", "")], by decide⟩)]

theorem mixedSettings_transparent :
    Schema.build mixedSettings = .ok ⟨mixedSettings, mixedSettings⟩ ∧
      (∀ setting ∈ mixedSettings, Documentable setting) ∧
      ∃ document, canonical ⟨mixedSettings, mixedSettings⟩ = .ok document ∧
        document.entries.get? "ttl" = some (.num (.int (-300))) ∧
        document.entries.get? "token" = none ∧
        ∀ layerName layers probe,
          (⟨mixedSettings, mixedSettings⟩ : Schema).resolve probe
              (layers ++ [⟨layerName, document.entries⟩]) =
            (⟨mixedSettings, mixedSettings⟩ : Schema).resolve probe layers := by
  have accepted : Schema.build mixedSettings = .ok ⟨mixedSettings, mixedSettings⟩ := rfl
  have documentable : ∀ setting ∈ mixedSettings, Documentable setting := by
    have plain : ∀ setting ∈ mixedSettings,
        setting.description.toList.all (fun c => c == '\n' || Toml.isPlainChar c) = true := by
      decide
    intro setting member
    have description := List.all_eq_true.mp (plain setting member)
    simp only [mixedSettings, List.mem_cons, List.not_mem_nil, or_false] at member
    rcases member with rfl | rfl | rfl | rfl | rfl
    all_goals
      refine ⟨by decide, fun value rule => ?_, fun value rule => ?_,
        fun c inside => by simpa using description c inside⟩ <;> cases rule
    all_goals first | rfl | (rintro n ⟨⟩ <;> rfl)
  have hidden : ∀ setting ∈ mixedSettings, setting.name = "token" → setting.sensitive = true := by
    decide
  obtain ⟨document, generated, entries, transparent⟩ := canonical_transparent accepted documentable
  refine ⟨accepted, documentable, document, generated, (entries _ _).mpr ?_, ?_, transparent⟩
  · exact ⟨_, List.mem_cons_of_mem _ List.mem_cons_self, rfl, rfl, _, rfl, rfl⟩
  · refine Option.eq_none_iff_forall_ne_some.mpr fun json found => ?_
    obtain ⟨setting, member, named, shown, _⟩ := (entries _ _).mp found
    exact absurd (hidden setting member named) (by simp [shown])

end SettingsDocument

end HubKeeper
