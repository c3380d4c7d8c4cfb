import HubKeeper.Proofs.Settings.Coercion
import HubKeeper.Proofs.Settings.Completeness

/-!
Resolving what has been resolved.

The JSON form of a snapshot, taken as the only layer, resolves to the snapshot again: its
values are coerced to themselves, a normalizer finds them as it left them, and a setting
without value gets none from its rule, which reads the same values as before.
-/

namespace HubKeeper

/-- A normalizer that leaves alone what it made, in the same context. -/
def Normalizer.IsIdempotent (normalizer : Normalizer) : Prop :=
  ∀ value context final, (normalizer.apply value context).result = .ok final →
    (normalizer.apply final context).result = .ok final

/-- A normalizer that leaves alone what it made, in any context. -/
def Normalizer.IsFinal (normalizer : Normalizer) : Prop :=
  ∀ value context final, (normalizer.apply value context).result = .ok final →
    ∀ other, (normalizer.apply final other).result = .ok final

namespace Setting

variable {setting : Setting} {layers : List Layer} {probe other : HostProbe} {values : Dict Value}

theorem unnormalized {holds : Normalizer → Prop} (none : setting.normalizer = none) :
    ∀ normalizer, setting.normalizer = some normalizer → holds normalizer := by
  intro normalizer present
  cases none.symm.trans present

/-- The setting stays as it is in `values` when its value there is supplied. -/
structure Stays (setting : Setting) (probe : HostProbe) (values : Dict Value) : Prop where
  absent : values.get? setting.name = none → setting.Derives probe values none
  kept : ∀ value, values.get? setting.name = some value →
    setting.Normalizes probe values (some value) (some value)

theorem Satisfied.derives_none (satisfied : setting.Satisfied layers probe values)
    (absent : values.get? setting.name = none) : setting.Derives probe values none := by
  obtain ⟨start, starts, normalizes, _⟩ := satisfied
  rw [absent] at normalizes
  cases normalizes.of_none
  exact starts.of_none

theorem Normalizes.again {start : Option Value} {value : Value}
    (normalizes : setting.Normalizes probe values start (some value))
    (again : ∀ normalizer, setting.normalizer = some normalizer →
      ∀ first, (normalizer.apply first (setting.context values probe)).result = .ok value →
        (normalizer.apply value (setting.context values other)).result = .ok value) :
    setting.Normalizes other values (some value) (some value) := by
  cases normalizes with
  | kept none => exact .kept none
  | changed normalizer result => exact .changed normalizer (again _ normalizer _ result)

theorem Satisfied.stays (satisfied : setting.Satisfied layers probe values)
    (idempotent : ∀ normalizer, setting.normalizer = some normalizer → normalizer.IsIdempotent) :
    setting.Stays probe values where
  absent := satisfied.derives_none
  kept value found := by
    obtain ⟨_, _, normalizes, _⟩ := satisfied
    rw [found] at normalizes
    exact normalizes.again fun normalizer present _ result =>
      idempotent normalizer present _ _ _ result

/-- A setting with a value and a final normalizer does not ask the host again. -/
theorem Satisfied.stays_of_isSome (satisfied : setting.Satisfied layers probe values)
    (present : (values.get? setting.name).isSome = true)
    (final : ∀ normalizer, setting.normalizer = some normalizer → normalizer.IsFinal)
    (other : HostProbe) : setting.Stays other values where
  absent none := by
    rw [none] at present
    cases present
  kept value found := by
    obtain ⟨_, _, normalizes, _⟩ := satisfied
    rw [found] at normalizes
    exact normalizes.again fun normalizer present _ result =>
      final normalizer present _ _ _ result _

/-- What the setting admits has a JSON form that is coerced to it again. -/
def Readable (setting : Setting) : Prop :=
  ∀ value, setting.Admits value → value.Fits ∧ value.IsFinite

theorem readable_of_kind (notInteger : setting.kind ≠ .integer) (notFloat : setting.kind ≠ .float) :
    setting.Readable := by
  rintro value ⟨kind, _⟩
  refine ⟨?_, ?_⟩ <;> rintro _ rfl
  · exact absurd kind.symm notInteger
  · exact absurd kind.symm notFloat

theorem readable_of_between {low high : Int} (kind : setting.kind = .integer)
    (bounded : setting.validator = some (Validator.between low high))
    (lowFits : Number.minInt64 ≤ low) (highFits : high ≤ Number.maxInt64) : setting.Readable := by
  rintro value ⟨ofKind, accepted⟩
  rw [kind] at ofKind
  refine ⟨?_, ?_⟩ <;> rintro n rfl
  · have passed := accepted _ bounded
    simp only [Validator.between] at passed
    split at passed
    · rename_i within
      simp only [Bool.and_eq_true, decide_eq_true_eq] at within
      simp only [Number.fitsInt64, Bool.and_eq_true, decide_eq_true_eq]
      omega
    · cases passed
  · cases ofKind

/-- The equation of a setting holds of the JSON form of a solution as well. -/
theorem Satisfied.rendered {layer : Layer} (satisfied : setting.Satisfied layers probe values)
    (stays : setting.Stays other values)
    (rendered : layer.values.get? setting.name = (values.get? setting.name).map Value.toJson)
    (readable : ∀ value, values.get? setting.name = some value → value.Fits ∧ value.IsFinite) :
    setting.Satisfied [layer] other values := by
  obtain ⟨_, _, _, settles⟩ := satisfied
  cases found : values.get? setting.name with
  | none =>
      have unsupplied : ∀ json, ¬Layer.Supplies setting.name [layer] json := by
        intro json supplied
        cases supplied with
        | here present _ => simp [rendered, found] at present
        | lower _ later => cases later
      refine ⟨none, .derived unsupplied (stays.absent found), ?_, settles⟩
      rw [found]
      exact .absent
  | some value =>
      obtain ⟨fits, finite⟩ := readable value found
      have supplied : Layer.Supplies setting.name [layer] value.toJson :=
        .here (by rw [rendered, found, Option.map_some]) (Value.isNull_toJson.mpr finite)
      have admits : setting.Admits value := by simpa [found, Settles] using settles
      refine ⟨some value, .supplied supplied ?_, ?_, settles⟩
      · rw [← admits.1]
        exact Kind.coerce?_toJson fits finite
      · rw [found]
        exact stays.kept value found

end Setting

/-- The values of the layer are the JSON form of the snapshot. -/
theorem Snapshot.get?_of_toJson {snapshot : Snapshot} {layer : Layer}
    (rendered : Json.ofDict layer.values = snapshot.toJson) (name : String) :
    layer.values.get? name = (snapshot.values.get? name).map Value.toJson := by
  have values : layer.values = snapshot.values.map fun _ value => value.toJson :=
    Dict.ext (by simpa [Json.ofDict, toJson] using rendered)
  rw [values, Dict.get?_map]

namespace Schema

variable {schema : Schema} {layers : List Layer} {probe other : HostProbe} {snapshot : Snapshot}

theorem resolve_rendered {layer : Layer} (wellOrdered : schema.WellOrdered)
    (resolved : (schema.resolve probe layers).result = .ok snapshot)
    (stays : ∀ setting ∈ schema.settings, setting.Stays other snapshot.values)
    (readable : ∀ name value, snapshot.get? name = some value → value.Fits ∧ value.IsFinite)
    (rendered : Json.ofDict layer.values = snapshot.toJson) :
    (schema.resolve other [layer]).result = .ok snapshot := by
  have solution := solution_of_resolve wellOrdered resolved
  have found := Snapshot.get?_of_toJson rendered
  have named : ∀ single ∈ [layer], ∀ name ∈ single.values.keys, name ∈ schema.names := by
    intro single member name listed
    cases List.mem_singleton.mp member
    obtain ⟨json, present⟩ := Dict.mem_keys.mp listed
    rw [found, Option.map_eq_some_iff] at present
    obtain ⟨value, present, _⟩ := present
    exact solution.declared name (Dict.mem_keys.mpr ⟨value, present⟩)
  have again : schema.Solution [layer] other snapshot.values :=
    ⟨solution.declared, fun setting member =>
      (solution.satisfied setting member).rendered (stays setting member) (found setting.name)
        (readable setting.name)⟩
  exact (resolve_ok_iff_evaluateAll named).mpr ⟨(resolve_ok resolved).1,
    (evaluateAll_ok_iff_solution wellOrdered wellOrdered.complete wellOrdered.ready).mpr again⟩

end Schema

/-! ### The settings of the hub -/

namespace Hub

theorem qualify_of_mem {name : String} (qualified : '.' ∈ name.toList) (context : Context) :
    qualify (.text name) context = .ok (.text name) := by
  simp [qualify, qualified]

theorem isFinal_qualify (dependencies : List String) :
    (Normalizer.mk dependencies qualify).IsFinal := by
  intro value context final result other
  change (qualify value context).result = .ok final at result
  show (qualify final other).result = .ok final
  cases value with
  | text name =>
      by_cases qualified : '.' ∈ name.toList
      · rw [qualify_of_mem qualified] at result
        cases result
        rw [qualify_of_mem qualified]
        rfl
      · simp only [qualify, List.contains_eq_mem, qualified, decide_false, Bool.false_eq_true,
          if_false, Probed.result_bind] at result
        cases read : (liftM (context.requireText "admin_parent_dns_domain") : Probed String).result with
        | error e => simp [read, bind, Except.bind] at result
        | ok domain =>
            rw [read] at result
            cases result
            have point : '.' ∈ (name ++ "." ++ domain).toList := by simp
            exact congrArg Probed.result (qualify_of_mem point other)
  | integer | float | boolean | textSet | textList | textMap =>
      cases result
      rfl

theorem settings_final : ∀ setting ∈ settings, ∀ normalizer,
    setting.normalizer = some normalizer → normalizer.IsFinal := by
  have plain : ∀ setting ∈ domainSettings ++ secretSettings ++ hostSettings ++
      stackSettings.map stackSetting, setting.normalizer.isNone = true := by decide +kernel
  have names : ∀ setting ∈ nameSettings, ∀ normalizer,
      setting.normalizer = some normalizer → normalizer.IsFinal := by
    simp only [nameSettings, List.forall_mem_cons]
    refine ⟨?_, Setting.unnormalized rfl, Setting.unnormalized rfl, Setting.unnormalized rfl,
      Setting.unnormalized rfl, Setting.unnormalized rfl, Setting.unnormalized rfl,
      List.forall_mem_nil _⟩
    rintro normalizer ⟨rfl⟩
    exact isFinal_qualify _
  intro setting member
  by_cases named : setting ∈ nameSettings
  · exact names setting named
  · have none := plain setting (by simp_all [settings])
    exact Setting.unnormalized (Option.isNone_iff_eq_none.mp none)

theorem settings_readable : ∀ setting ∈ settings, setting.Readable := by
  have plain : ∀ setting ∈ domainSettings ++ secretSettings ++ nameSettings ++
      stackSettings.map stackSetting, setting.kind ≠ .integer ∧ setting.kind ≠ .float := by
    decide +kernel
  have host : ∀ setting ∈ hostSettings, setting.Readable := by
    simp only [hostSettings, List.forall_mem_cons]
    refine ⟨?_, ?_, ?_, ?_, ?_, ?_, ?_, ?_, List.forall_mem_nil _⟩
    case refine_4 | refine_5 | refine_6 =>
      exact Setting.readable_of_between rfl rfl (by decide) (by decide)
    all_goals exact Setting.readable_of_kind (by decide) (by decide)
  intro setting member
  by_cases listed : setting ∈ hostSettings
  · exact host setting listed
  · obtain ⟨notInteger, notFloat⟩ := plain setting (by simp_all [settings])
    exact Setting.readable_of_kind notInteger notFloat

end Hub

namespace Schema

/-- The JSON form of a snapshot resolves to the snapshot, if normalizers are idempotent and
no float of it lacks a JSON form; integers are of 64 bits.  With the settings of the hub it
does so whatever the host answers. -/
theorem resolve_toJson :
    (∀ {settings : List Setting} {schema : Schema} {layers : List Layer} {probe : HostProbe}
      {snapshot : Snapshot} {layer : Layer}, build settings = .ok schema →
      (∀ setting ∈ settings, ∀ normalizer, setting.normalizer = some normalizer →
        normalizer.IsIdempotent) →
      (schema.resolve probe layers).result = .ok snapshot →
      (∀ name value, snapshot.get? name = some value → value.Fits ∧ value.IsFinite) →
      Json.ofDict layer.values = snapshot.toJson →
        (schema.resolve probe [layer]).result = .ok snapshot) ∧
    ∀ {schema : Schema} {layers : List Layer} {probe : HostProbe} {snapshot : Snapshot}
      {layer : Layer}, Hub.schema = .ok schema →
      (schema.resolve probe layers).result = .ok snapshot →
      Json.ofDict layer.values = snapshot.toJson →
        ∀ other, (schema.resolve other [layer]).result = .ok snapshot := by
  refine ⟨?_, ?_⟩
  · intro settings schema layers probe snapshot layer accepted idempotent resolved readable rendered
    have wellOrdered := build_wellOrdered accepted
    obtain rfl := build_settings accepted
    have solution := solution_of_resolve wellOrdered resolved
    exact resolve_rendered wellOrdered resolved
      (fun setting member => (solution.satisfied setting member).stays (idempotent setting member))
      readable rendered
  · intro schema layers probe snapshot layer accepted resolved rendered other
    have wellOrdered := build_wellOrdered accepted
    have listed := build_settings accepted
    have solution := solution_of_resolve wellOrdered resolved
    have present := Hub.isSome_get? accepted resolved
    refine resolve_rendered wellOrdered resolved (fun setting member => ?_)
      (fun name value found => ?_) rendered
    · exact (solution.satisfied setting member).stays_of_isSome
        (present setting.name (List.mem_map_of_mem member))
        (Hub.settings_final setting (listed ▸ member)) other
    · obtain ⟨setting, member, _, admits⟩ := solution.admits found
      exact Hub.settings_readable setting (listed ▸ member) value admits

/-- A bare label that is placed under a domain, and a note that nobody wrote. -/
def labelSettings : List Setting :=
  [(Setting.declare "admin_parent_dns_domain" .text).required "set the domain",
    (Setting.declare "host" .text).normalize ["admin_parent_dns_domain"] Hub.qualify,
    Setting.declare "note" .text]

def labelLayer (host : String) : Layer :=
  ⟨"document", ⟨[("admin_parent_dns_domain", .str "example.com"), ("host", .str host)],
    List.pairwise_pair.mpr (show "admin_parent_dns_domain" < "host" by decide)⟩⟩

def labelSnapshot : Snapshot where
  values := ⟨[("admin_parent_dns_domain", .text "example.com"), ("host", .text "nas.example.com")],
    by decide⟩
  sensitive := .empty

theorem labelSettings_resolve_toJson :
    build labelSettings = .ok ⟨labelSettings, labelSettings⟩ ∧
    (resolve ⟨labelSettings, labelSettings⟩ (.fixed none none) [labelLayer "nas"]).result =
      .ok labelSnapshot ∧
    (resolve ⟨labelSettings, labelSettings⟩ (.fixed none none)
      [labelLayer "nas.example.com"]).result = .ok labelSnapshot ∧
    ∃ schema snapshot, Hub.schema = .ok schema ∧
      (schema.resolve Hub.minimalProbe Hub.minimalLayers).result = .ok snapshot ∧
      (schema.resolve (.fixed none none)
        [⟨"snapshot", snapshot.values.map fun _ value => value.toJson⟩]).result = .ok snapshot := by
  have accepted : build labelSettings = .ok ⟨labelSettings, labelSettings⟩ := rfl
  have resolved : (resolve ⟨labelSettings, labelSettings⟩ (.fixed none none)
      [labelLayer "nas"]).result = .ok labelSnapshot := rfl
  have idempotent : ∀ setting ∈ labelSettings, ∀ normalizer,
      setting.normalizer = some normalizer → normalizer.IsIdempotent := by
    simp only [labelSettings, List.forall_mem_cons]
    refine ⟨Setting.unnormalized rfl, ?_, Setting.unnormalized rfl, List.forall_mem_nil _⟩
    rintro normalizer ⟨rfl⟩ value context final result
    exact Hub.isFinal_qualify _ value context final result context
  have readable : ∀ name value, labelSnapshot.get? name = some value →
      value.Fits ∧ value.IsFinite := by
    intro name value found
    have listed : (name, value) ∈ labelSnapshot.values.entries := mem_of_lookupEntry found
    simp only [labelSnapshot, List.mem_cons, Prod.mk.injEq, List.not_mem_nil, or_false] at listed
    obtain ⟨_, rfl⟩ | ⟨_, rfl⟩ := listed <;>
      exact ⟨Value.fits_text, Value.isFinite_text⟩
  obtain ⟨schema, snapshot, isHub, fromLayers, _⟩ := Hub.minimalLayers_resolve
  exact ⟨accepted, resolved, resolve_toJson.1 accepted idempotent resolved readable rfl, schema,
    snapshot, isHub, fromLayers, resolve_toJson.2 isHub fromLayers rfl _⟩

end Schema

end HubKeeper
