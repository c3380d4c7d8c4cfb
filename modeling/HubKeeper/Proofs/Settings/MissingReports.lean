import HubKeeper.Proofs.Settings.Refusal

/-!
What a report of a missing setting says.

Resolution reports a required setting that comes to nothing, and passes on what rules and
normalizers report; those that ask for a text report a dependency that has none.  The report of a
required setting is true: no layer supplies it and no constant stands in for it.  That of a
dependency is true where nothing was found for it.  But a dependency that has a value of another
kind than text is reported in the same words, and it is not missing.
-/

namespace HubKeeper

theorem Layer.unsupplied_iff {layers : List Layer} {name : String} :
    (∀ raw, ¬ Supplies name layers raw) ↔
      ∀ layer ∈ layers, ∀ raw, layer.values.get? name = some raw → raw.isNull = true := by
  rw [← winner?_eq_none_iff, winner?, List.findSome?_eq_none_iff]
  simp [Option.filter_eq_none_iff]

namespace Setting

variable {setting : Setting} {layers : List Layer} {probe : HostProbe} {values : Dict Value}
variable {name asked hint : String}

theorem Starts.unsupplied_of_none (starts : setting.Starts layers probe values none) :
    (∀ raw, ¬ Layer.Supplies setting.name layers raw) ∧
      ∀ value, setting.rule ≠ .constant value := by
  cases starts with
  | derived unsupplied derives =>
      refine ⟨unsupplied, fun value constant => ?_⟩
      have nothing := derived_ok_iff.mpr derives
      simp [Setting.derived, constant, Probed.ok] at nothing

/-- Asking for a text fails in these words where a dependency has none. -/
theorem requireText_missing_iff :
    (setting.context values probe).requireText asked = .error (.missingSetting name hint) ↔
      asked = name ∧ hint = "needed to derive '" ++ setting.name ++ "'" ∧
        name ∈ setting.dependencies ∧ ∀ text, values.get? name ≠ some (.text text) := by
  have readable : (setting.context values probe).readable = setting.dependencies := rfl
  by_cases listed : asked ∈ setting.dependencies
  · have got : (setting.context values probe).get asked = .ok (values.get? asked) := by
      rw [Context.get, readable, if_pos (by simpa using listed), context_get? asked listed]
    have textless : (values.get? asked).bind Value.asText? = none ↔
        ∀ text, values.get? asked ≠ some (.text text) := by
      rcases values.get? asked with _ | value
      · simp
      · cases value <;> simp [Value.asText?]
    simp only [Context.requireText, Context.text?, got, Except.map]
    cases found : (values.get? asked).bind Value.asText? with
    | none =>
        simp only [Except.error.injEq, Error.missingSetting.injEq]
        constructor
        · rintro ⟨rfl, rfl⟩
          exact ⟨rfl, rfl, listed, textless.mp found⟩
        · rintro ⟨rfl, rfl, _⟩
          exact ⟨rfl, rfl⟩
    | some text =>
        refine iff_of_false (fun same => by cases same) ?_
        rintro ⟨rfl, _, _, absent⟩
        simp [textless.mpr absent] at found
  · have refused : (setting.context values probe).get asked = .error (.schema ("setting '" ++
        setting.name ++ "' reads '" ++ asked ++ "' without declaring it as a dependency")) := by
      rw [Context.get, readable, if_neg (by simpa using listed)]
      rfl
    simp only [Context.requireText, Context.text?, refused, Except.map]
    refine iff_of_false (fun same => by cases same) ?_
    rintro ⟨rfl, _, dependency, _⟩
    exact listed dependency

end Setting

namespace Schema

variable {settings : List Setting} {schema : Schema} {layers : List Layer} {probe : HostProbe}
variable {setting : Setting} {values : Dict Value} {name hint : String}

/-- Evaluation gets to a setting with the values of those before it. -/
inductive Reaches (schema : Schema) (probe : HostProbe) (layers : List Layer) (setting : Setting)
    (values : Dict Value) : Prop
  | intro (order : schema.order = before ++ setting :: after)
      (reached : (evaluateAll layers probe before .empty).result = .ok values)

/-- Resolution ends with the error of a setting that evaluation gets to. -/
structure FailsAt (schema : Schema) (probe : HostProbe) (layers : List Layer) (setting : Setting)
    (values : Dict Value) (e : Error) : Prop where
  reaches : schema.Reaches probe layers setting values
  failed : (setting.evaluate (Layer.winner? layers setting.name) values probe).result = .error e

/-- A name without a value: no layer supplies one, no constant stands in for it, and none was
found. -/
structure Lacks (schema : Schema) (layers : List Layer) (values : Dict Value) (name : String) :
    Prop where
  unsupplied : ∀ layer ∈ layers, ∀ raw, layer.values.get? name = some raw → raw.isNull = true
  noConstant : ∀ setting ∈ schema.settings, setting.name = name →
    ∀ value, setting.rule ≠ .constant value
  absent : values.get? name = none

theorem lacks_of_starts (wellOrdered : schema.WellOrdered) (member : setting ∈ schema.settings)
    (starts : setting.Starts layers probe values none) (absent : values.get? setting.name = none) :
    schema.Lacks layers values setting.name where
  unsupplied := Layer.unsupplied_iff.mp starts.unsupplied_of_none.1
  noConstant := fun _ listed same =>
    List.inj_on_of_nodup_map wellOrdered.distinct listed member same ▸ starts.unsupplied_of_none.2
  absent := absent

/-- What a setting reads has been evaluated where evaluation gets to the setting. -/
theorem Reaches.satisfied (wellOrdered : schema.WellOrdered)
    (reaches : schema.Reaches probe layers setting values) :
    setting ∈ schema.settings ∧ values.get? setting.name = none ∧
      ∀ name ∈ setting.dependencies, ∃ other ∈ schema.settings, other.name = name ∧
        other.Satisfied layers probe values := by
  obtain ⟨order, reached⟩ := reaches
  rename_i before after
  have distinct : ((before ++ setting :: after).map (·.name)).Nodup :=
    order ▸ (wellOrdered.complete.map _).nodup_iff.mpr wellOrdered.distinct
  rw [List.map_append, List.nodup_append] at distinct
  have ready := readyAfter_iff.mp (order ▸ wellOrdered.ready)
  have beforeReady : ReadyAfter [] before := readyAfter_iff.mpr fun start other rest split =>
    ready start other (rest ++ setting :: after) (by simp [split])
  have member {other : Setting} (listed : other ∈ before ++ setting :: after) :
      other ∈ schema.settings :=
    wellOrdered.complete.mem_iff.mp (order ▸ listed)
  obtain ⟨others, satisfied⟩ :=
    (evaluateAll_ok_iff beforeReady (by simpa using distinct.1) fun _ _ => rfl).mp reached
  refine ⟨member (by simp), others _ fun taken => ?_, fun name dependency => ?_⟩
  · exact distinct.2.2 _ taken _ List.mem_cons_self rfl
  · have taken := ready before setting after rfl name dependency
    obtain ⟨other, listed, same⟩ := List.mem_map.mp (List.nil_append _ ▸ taken)
    exact ⟨other, member (List.mem_append_left _ listed), same, satisfied other listed⟩

/-- A value was found for a setting of this name, and it is of another kind than text. -/
def HasOtherKind (settings : List Setting) (values : Dict Value) (name : String) : Prop :=
  ∃ declared ∈ settings, declared.name = name ∧ declared.kind ≠ .text ∧
    ∃ value, values.get? name = some value ∧ value.kind = declared.kind

/-- What a setting reads has no text just where it lacks a value or has one of another kind. -/
theorem Reaches.textless_iff (wellOrdered : schema.WellOrdered)
    (reaches : schema.Reaches probe layers setting values)
    (dependency : name ∈ setting.dependencies) :
    (∀ text, values.get? name ≠ some (.text text)) ↔
      schema.Lacks layers values name ∨ HasOtherKind schema.settings values name := by
  obtain ⟨other, member, rfl, start, starts, normalizes, settles⟩ :=
    (reaches.satisfied wellOrdered).2.2 name dependency
  constructor
  · intro textless
    cases found : values.get? other.name with
    | none =>
        rw [found] at normalizes
        cases normalizes
        exact .inl (lacks_of_starts wellOrdered member starts found)
    | some value =>
        rw [found] at settles
        have kind : value.kind = other.kind := settles.1
        refine .inr ⟨other, member, rfl, kind ▸ ?_, value, found, kind⟩
        cases value with
        | text text => exact absurd found (textless text)
        | integer | float | boolean | textSet | textList | textMap => exact nofun
  · rintro (lacks | ⟨declared, _, _, noText, value, found, kind⟩) text present
    · cases lacks.absent.symm.trans present
    · cases found.symm.trans present
      exact noText kind.symm

theorem exists_failsAt
    (failed : (schema.resolve probe layers).result = .error (.missingSetting name hint)) :
    ∃ setting values, schema.FailsAt probe layers setting values (.missingSetting name hint) := by
  unfold resolve at failed
  split at failed
  · cases failed
  rcases Probed.error_bind_iff.mp failed with early | ⟨_, _, late⟩
  · obtain ⟨_, setting, _, values, order, reached, fails⟩ := evaluateAll_error_iff.mp early
    exact ⟨setting, values, .intro order reached, fails⟩
  · cases late

/-- A report is about a required setting that lacks a value, or a rule or a normalizer makes
it. -/
theorem FailsAt.missing (wellOrdered : schema.WellOrdered)
    (fails : schema.FailsAt probe layers setting values (.missingSetting name hint)) :
    setting.name = name ∧ setting.requiredHint = some hint ∧ schema.Lacks layers values name ∨
      setting.Raises layers probe values (.missingSetting name hint) := by
  rcases Setting.evaluate_error fails.failed with raises | ⟨_, _, own⟩ |
    ⟨starts, _, required, own⟩
  · exact .inr raises
  · cases own
  · cases own
    obtain ⟨member, absent, _⟩ := fails.reaches.satisfied wellOrdered
    exact .inl ⟨rfl, required, lacks_of_starts wellOrdered member starts absent⟩

theorem Lacks.not_hasOtherKind (lacks : schema.Lacks layers values name) :
    ¬ HasOtherKind settings values name := by
  rintro ⟨_, _, _, _, _, found, _⟩
  cases lacks.absent.symm.trans found

end Schema

/-- A report of a missing setting is that of asking for its text. -/
def Context.AsksText (context : Context) (e : Error) : Prop :=
  ∀ name hint, e = .missingSetting name hint → context.requireText name = .error e

theorem Context.requireText_asksText (context : Context) (name : String) :
    (Probed.ofExcept (context.requireText name)).FailsOnly context.AsksText := by
  rintro _ failed missing hint rfl
  have asked : context.requireText name = .error (.missingSetting missing hint) := failed
  cases read : context.text? name with
  | error e =>
      obtain ⟨message, rfl⟩ := text?_error read
      simp [requireText, read] at asked
  | ok text =>
      cases text with
      | some text => simp [requireText, read] at asked
      | none =>
          obtain ⟨rfl, _⟩ : name = missing ∧ _ := by simpa [requireText, read] using asked
          exact asked

namespace Schema

variable {settings : List Setting} {schema : Schema} {layers : List Layer} {probe : HostProbe}
variable {setting : Setting} {values : Dict Value} {name hint : String}

/-- Where reports are those of asking for texts, one is true unless its setting has a value of
another kind. -/
theorem FailsAt.missing_of_asksText (wellOrdered : schema.WellOrdered)
    (asks : ∀ setting ∈ schema.settings, setting.RaisesOnly probe Context.AsksText)
    (fails : schema.FailsAt probe layers setting values (.missingSetting name hint)) :
    schema.Lacks layers values name ∨
      name ∈ setting.dependencies ∧ HasOtherKind schema.settings values name := by
  rcases fails.missing wellOrdered with ⟨_, _, lacks⟩ | raises
  · exact .inl lacks
  · have member := (fails.reaches.satisfied wellOrdered).1
    have asked := (asks setting member).raised raises name hint rfl
    obtain ⟨_, _, dependency, textless⟩ := Setting.requireText_missing_iff.mp asked
    exact ((fails.reaches.textless_iff wellOrdered dependency).mp textless).imp_right
      fun other => ⟨dependency, other⟩

/-- A report of a missing setting is about a required setting that lacks a value, or a rule or a
normalizer makes it.  Asking for the text of a dependency makes one just where the dependency
lacks a value or has one of another kind; so where all others are made like this, a report is
true unless its setting has a value of another kind. -/
theorem missing_reports (accepted : build settings = .ok schema) (probe : HostProbe)
    (layers : List Layer) :
    (∀ name hint, (schema.resolve probe layers).result = .error (.missingSetting name hint) →
      ∃ setting values, schema.FailsAt probe layers setting values (.missingSetting name hint) ∧
        (setting.name = name ∧ setting.requiredHint = some hint ∧
            schema.Lacks layers values name ∨
          setting.Raises layers probe values (.missingSetting name hint))) ∧
    (∀ setting values, schema.Reaches probe layers setting values → ∀ name hint,
      (setting.context values probe).requireText name = .error (.missingSetting name hint) ↔
        hint = "needed to derive '" ++ setting.name ++ "'" ∧ name ∈ setting.dependencies ∧
          (schema.Lacks layers values name ∨ HasOtherKind settings values name)) ∧
    ((∀ setting ∈ settings, setting.RaisesOnly probe Context.AsksText) →
      ∀ setting values name hint,
        schema.FailsAt probe layers setting values (.missingSetting name hint) →
          (schema.Lacks layers values name ↔ ¬ HasOtherKind settings values name)) := by
  have wellOrdered := build_wellOrdered accepted
  obtain rfl := build_settings accepted
  refine ⟨fun name hint failed => ?_, fun setting values reaches name hint => ?_,
    fun asks setting values name hint fails => ?_⟩
  · obtain ⟨setting, values, fails⟩ := exists_failsAt failed
    exact ⟨setting, values, fails, fails.missing wellOrdered⟩
  · rw [Setting.requireText_missing_iff]
    constructor
    · rintro ⟨_, same, dependency, textless⟩
      exact ⟨same, dependency, (reaches.textless_iff wellOrdered dependency).mp textless⟩
    · rintro ⟨same, dependency, cause⟩
      exact ⟨rfl, same, dependency, (reaches.textless_iff wellOrdered dependency).mpr cause⟩
  · rcases fails.missing_of_asksText wellOrdered asks with lacks | ⟨_, other⟩
    · exact iff_of_true lacks lacks.not_hasOtherKind
    · exact iff_of_false (fun lacks => lacks.not_hasOtherKind other) (not_not_intro other)

def countedSettings : List Setting :=
  [(Setting.declare "count" .integer).default (.integer 4),
    (Setting.declare "label" .text).derive ["count"] fun context => do
      return some (.text (← context.requireText "count"))]

def countedLayers : List Layer :=
  [⟨"overrides", ⟨[("count", .ofInt 5)], by decide⟩⟩]

theorem countedSettings_asksText (probe : HostProbe) :
    ∀ setting ∈ countedSettings, setting.RaisesOnly probe Context.AsksText := by
  simp only [countedSettings, List.forall_mem_cons]
  refine ⟨Setting.raisesOnly_of_plain nofun rfl, ?_, List.forall_mem_nil _⟩
  exact Setting.raisesOnly_of_computed rfl
    (fun values => (Context.requireText_asksText _ _).bind fun _ => Probed.failsOnly_pure _) rfl

theorem countedSettings_reported :
    ∃ schema setting values, build countedSettings = .ok schema ∧
      schema.FailsAt (.fixed none none) countedLayers setting values
        (.missingSetting "count" "needed to derive 'label'") ∧
      HasOtherKind countedSettings values "count" ∧ ¬ schema.Lacks countedLayers values "count" ∧
      ∃ setting values, schema.FailsAt (.fixed none none) countedLayers setting values
        (.missingSetting "count" "needed to derive 'label'") := by
  have accepted : build countedSettings = .ok ⟨countedSettings, countedSettings⟩ := rfl
  have order : countedSettings = countedSettings.take 1 ++ countedSettings[1] :: [] := rfl
  have fails : FailsAt ⟨countedSettings, countedSettings⟩ (.fixed none none) countedLayers
      countedSettings[1] ⟨[("count", .integer 5)], by decide⟩
      (.missingSetting "count" "needed to derive 'label'") :=
    ⟨.intro order rfl, rfl⟩
  obtain ⟨reported, asked, isTrue⟩ := missing_reports accepted (.fixed none none) countedLayers
  obtain ⟨_, _, lacks | other⟩ := (asked _ _ fails.reaches "count" _).mp rfl
  · cases lacks.absent
  · obtain ⟨setting, values, failsToo, _⟩ := reported _ _ rfl
    exact ⟨_, _, _, accepted, fails, other,
      fun lacks => (isTrue (countedSettings_asksText _) _ _ _ _ fails).mp lacks other,
      setting, values, failsToo⟩

/-- A setting that has a default and is supplied is reported as missing. -/
theorem missing_reports_refuted :
    ¬ ∀ settings schema probe layers name hint, build settings = .ok schema →
      (schema.resolve probe layers).result = .error (.missingSetting name hint) →
        (∀ layer ∈ layers, ∀ raw, layer.values.get? name = some raw → raw.isNull = true) ∧
          ∀ setting ∈ settings, setting.name = name → ∀ value, setting.rule ≠ .constant value := by
  intro claimed
  obtain ⟨unsupplied, _⟩ := claimed countedSettings ⟨countedSettings, countedSettings⟩
    (.fixed none none) countedLayers "count" "needed to derive 'label'" rfl rfl
  exact absurd (unsupplied _ List.mem_cons_self (.ofInt 5) rfl) (by decide)

end Schema

namespace Hub

variable {schema : Schema} {layers : List Layer} {probe : HostProbe} {name hint : String}

/-- All settings of a hub that others read are texts. -/
theorem kind_of_dependency : ∀ setting ∈ settings, ∀ name ∈ setting.dependencies,
    ∀ declared ∈ settings, declared.name = name → declared.kind = .text := by
  decide

/-- A hub reports a setting as missing only if no layer supplies it and it has no default. -/
theorem missing_report_true (accepted : Schema.build settings = .ok schema)
    (hostname : probe.askHostname.FailsOnly fun e => ∀ name hint, e ≠ .missingSetting name hint)
    (lanAddress : probe.askLanAddress.FailsOnly fun e => ∀ name hint, e ≠ .missingSetting name hint)
    (failed : (schema.resolve probe layers).result = .error (.missingSetting name hint)) :
    ∃ setting values, schema.FailsAt probe layers setting values (.missingSetting name hint) ∧
      schema.Lacks layers values name := by
  have asks : ∀ setting ∈ settings, setting.RaisesOnly probe Context.AsksText := by
    refine settings_raiseOnly ?_
    rintro context rfl
    refine ⟨fun name _ => context.requireText_asksText name, fun name e failed => ?_,
      fun e failed name hint same => absurd same (hostname e failed name hint),
      fun e failed name hint same => absurd same (lanAddress e failed name hint)⟩
    obtain ⟨message, rfl⟩ := Context.text?_error failed
    exact nofun
  have wellOrdered := Schema.build_wellOrdered accepted
  have same := Schema.build_settings accepted
  obtain ⟨setting, values, fails⟩ := Schema.exists_failsAt failed
  refine ⟨setting, values, fails, ?_⟩
  rcases fails.missing_of_asksText wellOrdered (same ▸ asks) with lacks |
    ⟨dependency, declared, listed, named, noText, _⟩
  · exact lacks
  · have member := (fails.reaches.satisfied wellOrdered).1
    rw [same] at member listed
    exact absurd (kind_of_dependency setting member name dependency declared listed named) noText

end Hub

end HubKeeper
