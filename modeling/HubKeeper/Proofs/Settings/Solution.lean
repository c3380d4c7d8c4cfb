import HubKeeper.Proofs.Collections.Lookup
import HubKeeper.Proofs.Settings.EvaluationOrder
import HubKeeper.Settings.Resolution

/-!
Resolution as an equation.

`Setting.Satisfied` says of a whole dictionary of values that one setting has in it
what its layers, its rule and its normalizer make of the values of its dependencies.
The equation mentions no order of evaluation.  A dictionary that satisfies it for
every setting, and holds nothing else, is a `Solution`; resolution finds the
solution, in whatever order the settings are taken behind their dependencies.
-/

namespace HubKeeper

/-- The first raw value of a name that is not null supplies it. -/
inductive Layer.Supplies (name : String) : List Layer → Json → Prop
  | here (found : layer.values.get? name = some raw) (present : raw.isNull = false) :
      Supplies name (layer :: rest) raw
  | lower (missing : ∀ raw, layer.values.get? name = some raw → raw.isNull = true)
      (later : Supplies name rest raw) : Supplies name (layer :: rest) raw

theorem Layer.winner?_eq_some_iff {layers : List Layer} {name : String} {raw : Json} :
    winner? layers name = some raw ↔ Supplies name layers raw := by
  induction layers with
  | nil => exact ⟨nofun, nofun⟩
  | cons layer rest ih =>
      rw [winner?, List.findSome?_cons]
      cases found : (layer.values.get? name).filter fun raw => !raw.isNull with
      | some own =>
          obtain ⟨present, notNull⟩ := Option.filter_eq_some_iff.mp found
          have isValue : own.isNull = false := by simpa using notNull
          constructor
          · intro same
            cases same
            exact .here present isValue
          · intro supplied
            cases supplied with
            | here found _ => rw [← present, found]
            | lower missing _ => simp [missing own present] at isValue
      | none =>
          have missing : ∀ raw, layer.values.get? name = some raw → raw.isNull = true := by
            intro raw present
            simpa using Option.filter_eq_none_iff.mp found raw present
          constructor
          · exact fun later => .lower missing (ih.mp later)
          · intro supplied
            cases supplied with
            | here found present => simp [missing raw found] at present
            | lower _ later => exact ih.mpr later

theorem Layer.winner?_eq_none_iff {layers : List Layer} {name : String} :
    winner? layers name = none ↔ ∀ raw, ¬ Supplies name layers raw := by
  simp only [Option.eq_none_iff_forall_ne_some, ← winner?_eq_some_iff, ne_eq]

theorem Layer.undeclared?_eq_none {schema : Schema} {layers : List Layer}
    (named : ∀ layer ∈ layers, ∀ name ∈ layer.values.keys, name ∈ schema.names) :
    undeclared? schema layers = none := by
  rw [undeclared?, List.findSome?_eq_none_iff]
  intro layer member
  rw [Option.map_eq_none_iff, List.find?_eq_none]
  intro name listed
  simp [Schema.contains_iff.mpr (named layer member name listed)]

namespace Setting

variable {setting : Setting} {layers : List Layer} {probe : HostProbe} {values others : Dict Value}

/-- What the rule of a setting makes of the values of its dependencies. -/
inductive Derives (setting : Setting) (probe : HostProbe) (values : Dict Value) :
    Option Value → Prop
  | explicit (rule : setting.rule = .explicit) : Derives setting probe values none
  | constant (rule : setting.rule = .constant value) : Derives setting probe values (some value)
  | fallback (rule : setting.rule = .fallback sibling) :
      Derives setting probe values (values.get? sibling)
  | computed (rule : setting.rule = .computed reads compute)
      (result : (compute (setting.context values probe)).result = .ok outcome) :
      Derives setting probe values outcome

/-- The value of a setting before normalization: the coerced raw value if a layer
supplies one, else what the rule makes. -/
inductive Starts (setting : Setting) (layers : List Layer) (probe : HostProbe)
    (values : Dict Value) : Option Value → Prop
  | supplied (raw : Layer.Supplies setting.name layers json)
      (coerced : setting.kind.coerce? json = some value) :
      Starts setting layers probe values (some value)
  | derived (unsupplied : ∀ json, ¬ Layer.Supplies setting.name layers json)
      (rule : setting.Derives probe values outcome) :
      Starts setting layers probe values outcome

/-- What the normalizer of a setting makes of a value, if there is one. -/
inductive Normalizes (setting : Setting) (probe : HostProbe) (values : Dict Value) :
    Option Value → Option Value → Prop
  | absent : Normalizes setting probe values none none
  | kept (none : setting.normalizer = none) :
      Normalizes setting probe values (some value) (some value)
  | changed (normalizer : setting.normalizer = some change)
      (result : (change.apply value (setting.context values probe)).result = .ok final) :
      Normalizes setting probe values (some value) (some final)

/-- A value of the declared kind that the validator lets pass. -/
def Admits (setting : Setting) (value : Value) : Prop :=
  value.kind = setting.kind ∧
    ∀ validator, setting.validator = some validator → validator value = .ok ()

/-- A present value is admitted, and only a setting that is not required is absent. -/
def Settles (setting : Setting) : Option Value → Prop
  | some value => setting.Admits value
  | none => setting.requiredHint = none

/-- What a setting comes to, given the values of its dependencies. -/
def Yields (setting : Setting) (layers : List Layer) (probe : HostProbe) (values : Dict Value)
    (outcome : Option Value) : Prop :=
  ∃ start, setting.Starts layers probe values start ∧
    setting.Normalizes probe values start outcome ∧ setting.Settles outcome

/-- The local equation: the setting has in `values` just what it comes to there. -/
def Satisfied (setting : Setting) (layers : List Layer) (probe : HostProbe)
    (values : Dict Value) : Prop :=
  setting.Yields layers probe values (values.get? setting.name)

theorem mem_addNew {listed extra : List String} {name : String} :
    name ∈ addNew listed extra ↔ name ∈ listed ∨ name ∈ extra := by
  induction extra generalizing listed with
  | nil => simp [addNew]
  | cons first rest ih =>
      simp only [addNew]
      split <;> rename_i isListed
      · have present : first ∈ listed := by simpa using isListed
        rw [ih, List.mem_cons]
        constructor
        · exact Or.imp_right .inr
        · rintro (early | rfl | late)
          · exact .inl early
          · exact .inl present
          · exact .inr late
      · simp [ih, or_assoc]

theorem mem_dependencies_of_rule {name : String} (member : name ∈ setting.ruleDependencies) :
    name ∈ setting.dependencies := by
  unfold dependencies
  split
  · exact member
  · exact mem_addNew.mpr (.inl member)

theorem context_get? (name : String) (readable : name ∈ setting.dependencies) :
    (setting.context values probe).values.get? name = values.get? name := by
  show (values.filter _).get? name = _
  rw [Dict.get?_filter_key]
  simp [readable]

theorem context_congr (agree : ∀ name ∈ setting.dependencies, values.get? name = others.get? name) :
    setting.context values probe = setting.context others probe := by
  have visible : (values.filter fun name _ => setting.dependencies.contains name) =
      others.filter fun name _ => setting.dependencies.contains name := by
    refine Dict.ext_get? fun name => ?_
    rw [Dict.get?_filter_key, Dict.get?_filter_key]
    by_cases readable : name ∈ setting.dependencies
    · rw [agree name readable]
    · simp [readable]
  simp only [context, Context.restrict, visible]

theorem fallback_mem_dependencies {sibling : String} (rule : setting.rule = .fallback sibling) :
    sibling ∈ setting.dependencies :=
  mem_dependencies_of_rule (by simp [ruleDependencies, rule])

theorem derived_ok_iff {outcome : Option Value} :
    (setting.derived values probe).result = .ok outcome ↔ setting.Derives probe values outcome := by
  constructor
  · intro result
    unfold derived at result
    split at result
    · cases result
      exact .explicit ‹_›
    · cases result
      exact .constant ‹_›
    · rename_i sibling rule
      rw [context_get? sibling (fallback_mem_dependencies rule)] at result
      cases result
      exact .fallback rule
    · exact .computed ‹_› result
  · intro derives
    cases derives with
    | explicit rule => simp [derived, rule, Probed.ok]
    | constant rule => simp [derived, rule, Probed.ok]
    | fallback rule =>
        simp [derived, rule, Probed.ok, context_get? _ (fallback_mem_dependencies rule)]
    | computed rule result => simpa [derived, rule] using result

theorem starts_iff_of_supplies {raw : Json} {outcome : Option Value}
    (supplied : Layer.Supplies setting.name layers raw) :
    setting.Starts layers probe values outcome ↔
      ∃ value, setting.kind.coerce? raw = some value ∧ outcome = some value := by
  constructor
  · intro starts
    cases starts with
    | supplied raw' coerced =>
        -- The layers supply one raw value only, since the first of them counts.
        cases (Layer.winner?_eq_some_iff.mpr raw').symm.trans (Layer.winner?_eq_some_iff.mpr supplied)
        exact ⟨_, coerced, rfl⟩
    | derived unsupplied _ => exact absurd supplied (unsupplied _)
  · rintro ⟨value, coerced, rfl⟩
    exact .supplied supplied coerced

theorem starts_iff_of_unsupplied {outcome : Option Value}
    (unsupplied : ∀ raw, ¬ Layer.Supplies setting.name layers raw) :
    setting.Starts layers probe values outcome ↔ setting.Derives probe values outcome := by
  constructor
  · intro starts
    cases starts with
    | supplied raw _ => exact absurd raw (unsupplied _)
    | derived _ rule => exact rule
  · exact .derived unsupplied

theorem initial_ok_iff {outcome : Option Value} :
    (setting.initial (Layer.winner? layers setting.name) values probe).result = .ok outcome ↔
      setting.Starts layers probe values outcome := by
  cases won : Layer.winner? layers setting.name with
  | none =>
      rw [starts_iff_of_unsupplied (Layer.winner?_eq_none_iff.mp won), initial, derived_ok_iff]
  | some raw =>
      rw [starts_iff_of_supplies (Layer.winner?_eq_some_iff.mp won)]
      cases coerced : setting.kind.coerce? raw with
      | none => simp [initial, Kind.coerce, coerced, Probed.error]
      | some value => simp [initial, Kind.coerce, coerced, Probed.ok, eq_comm]

theorem normalizes_iff_of_none {value : Value} {outcome : Option Value}
    (unchanged : setting.normalizer = none) :
    setting.Normalizes probe values (some value) outcome ↔ outcome = some value := by
  constructor
  · intro normalizes
    cases normalizes with
    | kept _ => rfl
    | changed present _ => cases unchanged.symm.trans present
  · rintro rfl
    exact .kept unchanged

theorem normalizes_iff_of_some {normalizer : Normalizer} {value : Value} {outcome : Option Value}
    (present : setting.normalizer = some normalizer) :
    setting.Normalizes probe values (some value) outcome ↔
      ∃ final, (normalizer.apply value (setting.context values probe)).result = .ok final ∧
        outcome = some final := by
  constructor
  · intro normalizes
    cases normalizes with
    | kept none => cases none.symm.trans present
    | changed here result =>
        cases here.symm.trans present
        exact ⟨_, result, rfl⟩
  · rintro ⟨final, result, rfl⟩
    exact .changed present result

theorem normalized_ok_iff {start outcome : Option Value} :
    (setting.normalized start values probe).result = .ok outcome ↔
      setting.Normalizes probe values start outcome := by
  cases start with
  | none =>
      constructor
      · intro result
        cases setting.normalizer <;> cases result <;> exact .absent
      · intro normalizes
        cases normalizes
        rfl
  | some value =>
      cases change : setting.normalizer with
      | none =>
          rw [normalizes_iff_of_none change]
          simp only [normalized, change, Probed.ok, Except.ok.injEq, eq_comm]
      | some normalizer =>
          have result : (setting.normalized (some value) values probe).result =
              (normalizer.apply value (setting.context values probe)).result.map some := by
            simp only [normalized, change, Probed.result_bind]
            cases (normalizer.apply value (setting.context values probe)).result <;> rfl
          rw [normalizes_iff_of_some change, result]
          cases (normalizer.apply value (setting.context values probe)).result with
          | error e => simp [Except.map]
          | ok final => simp [Except.map, eq_comm]

theorem check_ok_iff {value : Value} : setting.check value = .ok () ↔ setting.Admits value := by
  unfold check Admits
  by_cases kind : value.kind = setting.kind
  · simp only [kind, ne_eq, not_true_eq_false, ↓reduceIte, true_and]
    cases setting.validator with
    | none => simp
    | some validator => cases checked : validator value <;> simp [checked]
  · simp [kind]

theorem settled_ok_iff {value outcome : Option Value} :
    setting.settled value = .ok outcome ↔ value = outcome ∧ setting.Settles outcome := by
  cases value with
  | none =>
      cases hint : setting.requiredHint with
      | none =>
          simp only [settled, hint, Except.ok.injEq]
          constructor
          · rintro rfl
            exact ⟨rfl, hint⟩
          · exact And.left
      | some text =>
          simp only [settled, hint]
          constructor
          · intro failed
            cases failed
          · rintro ⟨rfl, absent⟩
            simp [Settles, hint] at absent
  | some value =>
      cases checked : setting.check value with
      | ok _ =>
          simp only [settled, checked, Except.map, Except.ok.injEq]
          constructor
          · rintro rfl
            exact ⟨rfl, check_ok_iff.mp checked⟩
          · exact And.left
      | error e =>
          simp only [settled, checked, Except.map]
          constructor
          · intro failed
            cases failed
          · rintro ⟨rfl, admits⟩
            simp [check_ok_iff.mpr admits] at checked

/-- One step of the evaluation computes what the setting comes to. -/
theorem evaluate_ok_iff {outcome : Option Value} :
    (setting.evaluate (Layer.winner? layers setting.name) values probe).result = .ok outcome ↔
      setting.Yields layers probe values outcome := by
  simp only [evaluate, Probed.result_bind]
  constructor
  · intro result
    cases started : (setting.initial (Layer.winner? layers setting.name) values probe).result with
    | error e => simp [started, bind, Except.bind] at result
    | ok start =>
        cases changed : (setting.normalized start values probe).result with
        | error e => simp [started, changed, bind, Except.bind] at result
        | ok final =>
            simp only [started, changed, bind, Except.bind] at result
            obtain ⟨rfl, settles⟩ := settled_ok_iff.mp result
            exact ⟨start, initial_ok_iff.mp started, normalized_ok_iff.mp changed, settles⟩
  · rintro ⟨start, starts, normalizes, settles⟩
    simp only [initial_ok_iff.mpr starts, normalized_ok_iff.mpr normalizes, bind, Except.bind]
    exact settled_ok_iff.mpr ⟨rfl, settles⟩

/-- What a setting comes to hangs on the values of its dependencies only. -/
theorem yields_congr {outcome : Option Value}
    (agree : ∀ name ∈ setting.dependencies, values.get? name = others.get? name)
    (yields : setting.Yields layers probe values outcome) :
    setting.Yields layers probe others outcome := by
  have context : setting.context values probe = setting.context others probe :=
    context_congr agree
  obtain ⟨start, starts, normalizes, settles⟩ := yields
  refine ⟨start, ?_, ?_, settles⟩
  · cases starts with
    | supplied raw coerced => exact .supplied raw coerced
    | derived unsupplied rule =>
        refine .derived unsupplied ?_
        cases rule with
        | explicit rule => exact .explicit rule
        | constant rule => exact .constant rule
        | fallback rule =>
            rw [agree _ (fallback_mem_dependencies rule)]
            exact .fallback rule
        | computed rule result => exact .computed rule (context ▸ result)
  · cases normalizes with
    | absent => exact .absent
    | kept none => exact .kept none
    | changed normalizer result => exact .changed normalizer (context ▸ result)

end Setting

/-- The values after a setting came to `outcome`. -/
def extended (values : Dict Value) (name : String) : Option Value → Dict Value
  | some value => values.insert name value
  | none => values

theorem get?_extended_of_ne {values : Dict Value} {name other : String} {outcome : Option Value}
    (different : other ≠ name) : (extended values name outcome).get? other = values.get? other := by
  cases outcome with
  | none => rfl
  | some value => exact Dict.get?_insert_of_ne different

theorem get?_extended_self {values : Dict Value} {name : String} {outcome : Option Value}
    (fresh : values.get? name = none) : (extended values name outcome).get? name = outcome := by
  cases outcome with
  | none => exact fresh
  | some value => exact Dict.get?_insert_self

namespace Schema

variable {schema : Schema} {layers : List Layer} {probe : HostProbe}

/-- Values of declared settings that satisfy the equation of every setting. -/
structure Solution (schema : Schema) (layers : List Layer) (probe : HostProbe)
    (values : Dict Value) : Prop where
  declared : ∀ name ∈ values.keys, name ∈ schema.names
  satisfied : ∀ setting ∈ schema.settings, setting.Satisfied layers probe values

theorem evaluateAll_cons_ok_iff {setting : Setting} {rest : List Setting}
    {values final : Dict Value} :
    (evaluateAll layers probe (setting :: rest) values).result = .ok final ↔
      ∃ outcome, setting.Yields layers probe values outcome ∧
        (evaluateAll layers probe rest (extended values setting.name outcome)).result =
          .ok final := by
  simp only [evaluateAll, Probed.result_bind, ← Setting.evaluate_ok_iff]
  cases (setting.evaluate (Layer.winner? layers setting.name) values probe).result with
  | error e => simp [bind, Except.bind]
  | ok outcome => cases outcome <;> simp [bind, Except.bind, extended]

/-- Evaluation in an order that puts dependencies first.  What was found before stays,
because no later setting has a name that was taken; so every setting sees the final
values of its dependencies. -/
theorem evaluateAll_ok_iff {rest : List Setting} {taken : List String} {values final : Dict Value}
    (ready : ReadyAfter taken rest) (distinct : (taken ++ rest.map (·.name)).Nodup)
    (known : ∀ name, name ∉ taken → values.get? name = none) :
    (evaluateAll layers probe rest values).result = .ok final ↔
      (∀ name, name ∉ rest.map (·.name) → final.get? name = values.get? name) ∧
        ∀ setting ∈ rest, setting.Satisfied layers probe final := by
  induction rest generalizing taken values with
  | nil =>
      simp only [evaluateAll, Probed.ok, Except.ok.injEq, List.map_nil, List.not_mem_nil,
        not_false_eq_true, forall_const, false_implies, implies_true, and_true]
      exact ⟨fun same name => by rw [same], fun same => (Dict.ext_get? same).symm⟩
  | cons setting rest ih =>
      obtain ⟨dependencies, restReady⟩ := ready
      have moved : ((taken ++ [setting.name]) ++ rest.map (·.name)).Nodup := by
        simpa using distinct
      obtain ⟨_, listed, apart⟩ := List.nodup_append.mp distinct
      have unlike : setting.name ∉ rest.map (·.name) := (List.nodup_cons.mp listed).1
      have fresh : setting.name ∉ taken := fun member =>
        apart _ member _ List.mem_cons_self rfl
      have later : ∀ name ∈ taken, name ∉ rest.map (·.name) := fun name member found =>
        apart name member name (List.mem_cons_of_mem _ found) rfl
      have unlisted : ∀ {name}, name ∉ (setting :: rest).map (·.name) ↔
          name ≠ setting.name ∧ name ∉ rest.map (·.name) := by
        simp
      -- What a setting comes to is put under its own name, which no later setting has.
      have knownNext : ∀ outcome name, name ∉ taken ++ [setting.name] →
          (extended values setting.name outcome).get? name = none := by
        intro outcome name absent
        rw [List.mem_append, List.mem_singleton, not_or] at absent
        rw [get?_extended_of_ne absent.2, known name absent.1]
      rw [evaluateAll_cons_ok_iff]
      constructor
      · rintro ⟨outcome, yields, run⟩
        obtain ⟨kept, satisfied⟩ := (ih restReady moved (knownNext outcome)).mp run
        have keptHere : ∀ name, name ≠ setting.name → name ∉ rest.map (·.name) →
            final.get? name = values.get? name := fun name different absent =>
          (kept name absent).trans (get?_extended_of_ne different)
        have own : final.get? setting.name = outcome :=
          (kept _ unlike).trans (get?_extended_self (known _ fresh))
        refine ⟨fun name absent => ?_, fun other member => ?_⟩
        · exact keptHere name (unlisted.mp absent).1 (unlisted.mp absent).2
        · rcases List.mem_cons.mp member with rfl | member
          · rw [Setting.Satisfied, own]
            -- The dependencies were taken earlier, so nothing under their names changes from here
            -- on.
            refine Setting.yields_congr (fun name dependency => ?_) yields
            have early := dependencies name dependency
            exact (keptHere name (fun same => fresh (same ▸ early)) (later name early)).symm
          · exact satisfied other member
      · rintro ⟨kept, satisfied⟩
        have own := satisfied setting List.mem_cons_self
        refine ⟨final.get? setting.name, Setting.yields_congr (fun name dependency => ?_) own, ?_⟩
        · have early := dependencies name dependency
          exact kept name (unlisted.mpr ⟨fun same => fresh (same ▸ early), later name early⟩)
        · refine (ih restReady moved (knownNext _)).mpr
            ⟨fun name absent => ?_, fun other member => satisfied other (List.mem_cons_of_mem _ member)⟩
          by_cases same : name = setting.name
          · rw [same, get?_extended_self (known _ fresh)]
          · rw [get?_extended_of_ne same, kept name (unlisted.mpr ⟨same, absent⟩)]

/-- Every order of the settings that puts dependencies first finds the solution. -/
theorem evaluateAll_ok_iff_solution {order : List Setting} {final : Dict Value}
    (wellOrdered : schema.WellOrdered) (complete : order.Perm schema.settings)
    (ready : ReadyAfter [] order) :
    (evaluateAll layers probe order .empty).result = .ok final ↔
      schema.Solution layers probe final := by
  have permuted : (order.map (·.name)).Perm schema.names := complete.map _
  have distinct : (order.map (·.name)).Nodup := permuted.nodup_iff.mpr wellOrdered.distinct
  rw [evaluateAll_ok_iff ready (by simpa using distinct) (fun _ _ => rfl)]
  constructor
  · rintro ⟨absent, satisfied⟩
    refine ⟨fun name member => ?_,
      fun setting member => satisfied setting (complete.mem_iff.mpr member)⟩
    obtain ⟨value, found⟩ := Dict.mem_keys.mp member
    refine Decidable.byContradiction fun undeclared => ?_
    rw [absent name (fun listed => undeclared (permuted.mem_iff.mp listed))] at found
    cases found
  · rintro ⟨declared, satisfied⟩
    refine ⟨fun name unlisted => ?_,
      fun setting member => satisfied setting (complete.mem_iff.mp member)⟩
    cases found : final.get? name with
    | none => rfl
    | some value =>
        have listed := permuted.mem_iff.mpr (declared name (Dict.mem_keys.mpr ⟨value, found⟩))
        exact absurd listed unlisted

theorem resolve_ok_iff_evaluateAll {snapshot : Snapshot}
    (named : ∀ layer ∈ layers, ∀ name ∈ layer.values.keys, name ∈ schema.names) :
    (schema.resolve probe layers).result = .ok snapshot ↔
      snapshot.sensitive = schema.sensitiveNames ∧
        (evaluateAll layers probe schema.order .empty).result = .ok snapshot.values := by
  simp only [resolve, Layer.undeclared?_eq_none named, Probed.result_bind]
  cases (evaluateAll layers probe schema.order .empty).result with
  | error e => simp [bind, Except.bind]
  | ok values =>
      obtain ⟨found, sensitive⟩ := snapshot
      simp only [bind, Except.bind, pure, Probed.ok, Except.ok.injEq, Snapshot.mk.injEq]
      exact ⟨fun ⟨same, hidden⟩ => ⟨hidden.symm, same⟩, fun ⟨hidden, same⟩ => ⟨same, hidden.symm⟩⟩

theorem resolve_ok {snapshot : Snapshot}
    (resolved : (schema.resolve probe layers).result = .ok snapshot) :
    snapshot.sensitive = schema.sensitiveNames ∧
      (evaluateAll layers probe schema.order .empty).result = .ok snapshot.values := by
  unfold Schema.resolve at resolved
  split at resolved
  · cases resolved
  · rw [Probed.result_bind] at resolved
    cases evaluated : (evaluateAll layers probe schema.order .empty).result with
    | error e => simp [evaluated, bind, Except.bind] at resolved
    | ok values =>
        rw [evaluated] at resolved
        cases resolved
        exact ⟨rfl, rfl⟩

theorem solution_of_resolve {snapshot : Snapshot} (wellOrdered : schema.WellOrdered)
    (resolved : (schema.resolve probe layers).result = .ok snapshot) :
    schema.Solution layers probe snapshot.values :=
  (evaluateAll_ok_iff_solution wellOrdered wellOrdered.complete wellOrdered.ready).mp
    (resolve_ok resolved).2

/-- A solution holds admitted values of declared settings and nothing else. -/
theorem Solution.admits {values : Dict Value} (solution : schema.Solution layers probe values)
    {name : String} {value : Value} (found : values.get? name = some value) :
    ∃ setting ∈ schema.settings, setting.name = name ∧ setting.Admits value := by
  have declared := solution.declared name (Dict.mem_keys.mpr ⟨value, found⟩)
  obtain ⟨setting, member, rfl⟩ := List.mem_map.mp declared
  obtain ⟨_, _, _, settles⟩ := solution.satisfied setting member
  rw [found] at settles
  exact ⟨setting, member, rfl, settles⟩

theorem Solution.unique {left right : Dict Value} (wellOrdered : schema.WellOrdered)
    (leftSolution : schema.Solution layers probe left)
    (rightSolution : schema.Solution layers probe right) : left = right := by
  have found : ∀ values, schema.Solution layers probe values →
      (evaluateAll layers probe schema.order .empty).result = .ok values := fun _ =>
    (evaluateAll_ok_iff_solution wellOrdered wellOrdered.complete wellOrdered.ready).mpr
  exact Except.ok.inj ((found left leftSolution).symm.trans (found right rightSolution))

/-- Resolution succeeds with exactly the solution of the local equations, which is
unique, is found in every order that puts dependencies first, and holds admitted values
of declared settings only. -/
theorem resolve_ok_iff_solution {settings : List Setting} {schema : Schema} {layers : List Layer}
    (accepted : Schema.build settings = .ok schema)
    (named : ∀ layer ∈ layers, ∀ name ∈ layer.values.keys, name ∈ schema.names)
    (probe : HostProbe) :
    (∀ snapshot, (schema.resolve probe layers).result = .ok snapshot ↔
      snapshot.sensitive = schema.sensitiveNames ∧
        schema.Solution layers probe snapshot.values) ∧
    (∀ left right, schema.Solution layers probe left → schema.Solution layers probe right →
      left = right) ∧
    (∀ order values, order.Perm settings → ReadyAfter [] order →
      ((evaluateAll layers probe order .empty).result = .ok values ↔
        schema.Solution layers probe values)) ∧
    (∀ values, schema.Solution layers probe values → ∀ name value,
      values.get? name = some value →
        ∃ setting ∈ settings, setting.name = name ∧ setting.Admits value) := by
  have wellOrdered := build_wellOrdered accepted
  have same := build_settings accepted
  refine ⟨fun snapshot => ?_, fun left right => Solution.unique wellOrdered,
    fun order values complete ready => ?_, fun values solution name value found => ?_⟩
  · rw [resolve_ok_iff_evaluateAll named,
      evaluateAll_ok_iff_solution wellOrdered wellOrdered.complete wellOrdered.ready]
  · exact evaluateAll_ok_iff_solution wellOrdered (same ▸ complete) ready
  · exact same ▸ solution.admits found

/-- An alias and a host name, both declared before the domain they hang on. -/
def domainSettings : List Setting :=
  [(Setting.declare "alias" .text).fallback "domain",
    (Setting.declare "host" .text).derive ["domain"] fun context => do
      return some (.text ("box." ++ (← context.requireText "domain"))),
    (Setting.declare "domain" .text).required "set domain"]

/-- A null in the upper layer leaves the domain to the lower one. -/
def domainLayers : List Layer :=
  [⟨"overrides", ⟨[("domain", .null)], by decide⟩⟩,
    ⟨"document", ⟨[("domain", .str "example.com")], by decide⟩⟩]

def domainSnapshot : Snapshot where
  values := ⟨[("alias", .text "example.com"), ("domain", .text "example.com"),
    ("host", .text "box.example.com")], by decide⟩
  sensitive := .empty

theorem domainSnapshot_solution :
    ∃ schema, build domainSettings = .ok schema ∧
      (∀ layer ∈ domainLayers, ∀ name ∈ layer.values.keys, name ∈ schema.names) ∧
      (schema.resolve (.fixed none none) domainLayers).result = .ok domainSnapshot ∧
      schema.Solution domainLayers (.fixed none none) domainSnapshot.values := by
  have accepted : build domainSettings = .ok ⟨domainSettings,
      domainSettings.drop 2 ++ domainSettings.take 2⟩ := rfl
  have named : ∀ layer ∈ domainLayers, ∀ name ∈ layer.values.keys,
      name ∈ domainSettings.map (·.name) := by decide
  have resolved : (resolve ⟨domainSettings, domainSettings.drop 2 ++ domainSettings.take 2⟩
      (.fixed none none) domainLayers).result = .ok domainSnapshot := rfl
  exact ⟨_, accepted, named, resolved,
    (((resolve_ok_iff_solution accepted named (.fixed none none)).1 domainSnapshot).mp resolved).2⟩

end Schema

end HubKeeper
