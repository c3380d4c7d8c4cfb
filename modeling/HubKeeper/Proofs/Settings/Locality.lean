import HubKeeper.Proofs.Settings.Solution

/-!
How far a change of one raw value reaches.

Two resolutions whose raw values agree on some names find the same values there, as long
as no setting of these names reads one that is not among them.  The names that hang on a
setting, directly or through others, are the least ones that have to be left out when its
raw value changes.
-/

namespace HubKeeper

namespace Setting

variable {setting : Setting} {left right layers : List Layer} {probe : HostProbe}
variable {values others : Dict Value} {outcome other : Option Value}

theorem yields_unique (first : setting.Yields layers probe values outcome)
    (second : setting.Yields layers probe values other) : outcome = other :=
  Except.ok.inj ((evaluate_ok_iff.mpr first).symm.trans (evaluate_ok_iff.mpr second))

theorem yields_of_supplies
    (supplies : ∀ raw, Layer.Supplies setting.name left raw ↔ Layer.Supplies setting.name right raw)
    (yields : setting.Yields left probe values outcome) :
    setting.Yields right probe values outcome := by
  have winner : Layer.winner? left setting.name = Layer.winner? right setting.name :=
    Option.ext fun raw => by
      rw [Layer.winner?_eq_some_iff, Layer.winner?_eq_some_iff, supplies raw]
  rw [← evaluate_ok_iff, winner] at yields
  exact evaluate_ok_iff.mp yields

end Setting

namespace Schema

variable {schema : Schema} {settings : List Setting} {left right : List Layer} {probe : HostProbe}
variable {leftValues rightValues : Dict Value}

theorem Solution.get?_eq_none (solution : schema.Solution left probe leftValues) {name : String}
    (undeclared : name ∉ schema.names) : leftValues.get? name = none := by
  cases found : leftValues.get? name with
  | none => rfl
  | some value => exact absurd (solution.declared name (Dict.mem_keys.mpr ⟨value, found⟩)) undeclared

/-- Two solutions agree on names that have the same raw values and hang on each other only. -/
theorem Solution.agree (among : String → Prop) (wellOrdered : schema.WellOrdered)
    (closed : ∀ setting ∈ schema.settings, among setting.name →
      ∀ name ∈ setting.dependencies, among name)
    (supplies : ∀ setting ∈ schema.settings, among setting.name → ∀ raw,
      Layer.Supplies setting.name left raw ↔ Layer.Supplies setting.name right raw)
    (leftSolution : schema.Solution left probe leftValues)
    (rightSolution : schema.Solution right probe rightValues) {name : String}
    (inside : among name) : leftValues.get? name = rightValues.get? name := by
  by_cases declared : name ∈ schema.names
  · refine wellOrdered.forall_names
      (fun read => among read → leftValues.get? read = rightValues.get? read) ?_ name declared inside
    intro setting member known inside
    have leftYields := Setting.yields_congr
      (fun read dependency => known read dependency (closed setting member inside read dependency))
      (leftSolution.satisfied setting member)
    exact Setting.yields_unique
      (Setting.yields_of_supplies (supplies setting member inside) leftYields)
      (rightSolution.satisfied setting member)
  · rw [leftSolution.get?_eq_none declared, rightSolution.get?_eq_none declared]

/-- A setting reads another one, directly or through a chain of settings in between. -/
inductive DependsOn (settings : List Setting) : String → String → Prop
  | directly (member : setting ∈ settings) (reads : name ∈ setting.dependencies) :
      DependsOn settings setting.name name
  | through (member : setting ∈ settings) (reads : between ∈ setting.dependencies)
      (further : DependsOn settings between name) : DependsOn settings setting.name name

/-- A change of one raw value leaves every other setting as it is, unless that one depends
on the changed setting. -/
theorem get?_eq_of_not_dependsOn (accepted : build settings = .ok schema) {name : String}
    (supplies : ∀ setting ∈ settings, setting.name ≠ name → ∀ raw,
      Layer.Supplies setting.name left raw ↔ Layer.Supplies setting.name right raw)
    {leftSnapshot rightSnapshot : Snapshot}
    (leftResolved : (schema.resolve probe left).result = .ok leftSnapshot)
    (rightResolved : (schema.resolve probe right).result = .ok rightSnapshot) {other : String}
    (different : other ≠ name) (independent : ¬DependsOn settings other name) :
    leftSnapshot.get? other = rightSnapshot.get? other := by
  obtain rfl := build_settings accepted
  have wellOrdered := build_wellOrdered accepted
  refine Solution.agree (fun read => read ≠ name ∧ ¬DependsOn schema.settings read name)
    wellOrdered ?_ (fun setting member inside => supplies setting member inside.1)
    (solution_of_resolve wellOrdered leftResolved) (solution_of_resolve wellOrdered rightResolved)
    ⟨different, independent⟩
  -- What an untouched setting reads is untouched, or there would be a chain to it.
  rintro setting member ⟨_, apart⟩ read reads
  refine ⟨?_, fun further => apart (.through member reads further)⟩
  rintro rfl
  exact apart (.directly member reads)

/-- The domain names of a service hang on each other; its port does not. -/
def serviceSettings : List Setting :=
  [(Setting.declare "alias" .text).fallback "host",
    (Setting.declare "host" .text).derive ["domain"] fun context => do
      return some (.text ("box." ++ (← context.requireText "domain"))),
    (Setting.declare "domain" .text).required "set domain",
    (Setting.declare "port" .integer).default (.integer 80)]

def serviceOrder : List Setting :=
  (serviceSettings.drop 2).take 1 ++ (serviceSettings.drop 1).take 1 ++ serviceSettings.take 1 ++
    serviceSettings.drop 3

def serviceLayers (above : Dict Json) : List Layer :=
  [⟨"overrides", above⟩, ⟨"document", .ofList [("domain", .str "example.com")]⟩]

def hostOverride : Dict Json :=
  ⟨[("host", .str "nas")], by decide⟩

def serviceSnapshot (shortName host : String) : Snapshot where
  values := ⟨[("alias", .text shortName), ("domain", .text "example.com"), ("host", .text host),
    ("port", .integer 80)], List.pairwise_map.mp
      (show ["alias", "domain", "host", "port"].Pairwise (· < ·) by decide)⟩
  sensitive := .empty

/-- The alias follows the host, the domain and the port stay. -/
theorem serviceSettings_local :
    build serviceSettings = .ok ⟨serviceSettings, serviceOrder⟩ ∧
    (resolve ⟨serviceSettings, serviceOrder⟩ (.fixed none none) (serviceLayers .empty)).result =
      .ok (serviceSnapshot "box.example.com" "box.example.com") ∧
    (resolve ⟨serviceSettings, serviceOrder⟩ (.fixed none none)
      (serviceLayers hostOverride)).result = .ok (serviceSnapshot "nas" "nas") ∧
    ¬DependsOn serviceSettings "port" "host" ∧
    (serviceSnapshot "box.example.com" "box.example.com").get? "port" =
      (serviceSnapshot "nas" "nas").get? "port" := by
  have accepted : build serviceSettings = .ok ⟨serviceSettings, serviceOrder⟩ := rfl
  have supplies : ∀ setting ∈ serviceSettings, setting.name ≠ "host" → ∀ raw,
      Layer.Supplies setting.name (serviceLayers .empty) raw ↔
        Layer.Supplies setting.name (serviceLayers hostOverride) raw := by
    have winner : ∀ setting ∈ serviceSettings, setting.name ≠ "host" →
        Layer.winner? (serviceLayers .empty) setting.name =
          Layer.winner? (serviceLayers hostOverride) setting.name := by
      decide
    intro setting member different raw
    rw [← Layer.winner?_eq_some_iff, ← Layer.winner?_eq_some_iff, winner setting member different]
  have left : (resolve ⟨serviceSettings, serviceOrder⟩ (.fixed none none)
      (serviceLayers .empty)).result =
        .ok (serviceSnapshot "box.example.com" "box.example.com") := rfl
  have right : (resolve ⟨serviceSettings, serviceOrder⟩ (.fixed none none)
      (serviceLayers hostOverride)).result = .ok (serviceSnapshot "nas" "nas") := rfl
  have readsNothing : ∀ setting ∈ serviceSettings, setting.name = "port" →
      setting.dependencies = [] := by decide
  have independent : ¬DependsOn serviceSettings "port" "host" := by
    generalize port : "port" = name
    rintro (⟨member, reads⟩ | ⟨member, reads, _⟩) <;>
      simp [readsNothing _ member port.symm] at reads
  exact ⟨accepted, left, right, independent,
    get?_eq_of_not_dependsOn accepted supplies left right (by decide) independent⟩

end Schema

end HubKeeper
