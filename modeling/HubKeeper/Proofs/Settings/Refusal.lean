import HubKeeper.Proofs.Settings.Flattening
import HubKeeper.Proofs.Settings.Secrecy
import HubKeeper.Settings.Hub

/-!
When a resolution refuses a name.

Names are looked at before anything is evaluated, layer by layer.  The evaluation makes no
error about an unknown name of its own: there may only be one that the rule or the
normalizer of a setting raises.
-/

namespace HubKeeper

namespace Probed

/-- A computation fails with certain errors only. -/
def FailsOnly (own : Error → Prop) (computation : Probed α) : Prop :=
  ∀ e, computation.result = .error e → own e

theorem error_bind_iff {first : Probed α} {next : α → Probed β} {e : Error} :
    (first >>= next).result = .error e ↔ first.result = .error e ∨
      ∃ a, first.result = .ok a ∧ (next a).result = .error e := by
  rw [result_bind]
  cases first.result <;> simp [bind, Except.bind]

theorem failsOnly_pure {own : Error → Prop} (a : α) : (pure a : Probed α).FailsOnly own :=
  fun _ => nofun

theorem FailsOnly.bind {own : Error → Prop} {first : Probed α} {next : α → Probed β}
    (firstOnly : first.FailsOnly own) (nextOnly : ∀ a, (next a).FailsOnly own) :
    (first >>= next).FailsOnly own := by
  intro e failed
  rcases error_bind_iff.mp failed with early | ⟨a, _, late⟩
  · exact firstOnly e early
  · exact nextOnly a e late

/-- A computation that does not fail on an unknown name. -/
def NamesKnown (computation : Probed α) : Prop :=
  ∀ name hint, computation.result ≠ .error (.unknownSetting name hint)

theorem namesKnown_iff {computation : Probed α} : computation.NamesKnown ↔
    computation.FailsOnly fun e => ∀ name hint, e ≠ .unknownSetting name hint := by
  constructor
  · rintro known e failed name hint rfl
    exact known name hint failed
  · exact fun only name hint failed => only _ failed name hint rfl

end Probed

namespace Setting

variable {setting : Setting} {layers : List Layer} {probe : HostProbe} {values : Dict Value}
variable {name hint : String} {e : Error}

/-- The rule or the normalizer of a setting is asked and fails. -/
inductive Raises (setting : Setting) (layers : List Layer) (probe : HostProbe)
    (values : Dict Value) (e : Error) : Prop
  | rule (unsupplied : ∀ json, ¬ Layer.Supplies setting.name layers json)
      (rule : setting.rule = .computed reads compute)
      (raised : (compute (setting.context values probe)).result = .error e) :
      Raises setting layers probe values e
  | normalizer (starts : setting.Starts layers probe values (some start))
      (present : setting.normalizer = some change)
      (raised : (change.apply start (setting.context values probe)).result = .error e) :
      Raises setting layers probe values e

theorem initial_error
    (failed : (setting.initial (Layer.winner? layers setting.name) values probe).result =
      .error e) :
    setting.Raises layers probe values e ∨
      ∃ shown constraint, e = .invalidSetting setting.name shown constraint := by
  cases won : Layer.winner? layers setting.name with
  | some raw =>
      cases coerced : setting.kind.coerce? raw with
      | some value => simp [initial, won, Kind.coerce, coerced, Probed.ok] at failed
      | none =>
          simp only [initial, won, Kind.coerce, coerced, redact, Probed.error] at failed
          cases failed
          exact .inr ⟨_, _, rfl⟩
  | none =>
      rw [won] at failed
      simp only [initial, derived] at failed
      split at failed
      · cases failed
      · cases failed
      · cases failed
      · rename_i rule
        exact .inl (.rule (Layer.winner?_eq_none_iff.mp won) rule failed)

theorem normalized_error_iff {start : Option Value} :
    (setting.normalized start values probe).result = .error e ↔
      ∃ value change, start = some value ∧ setting.normalizer = some change ∧
        (change.apply value (setting.context values probe)).result = .error e := by
  cases start with
  | none => simp [normalized, Probed.ok]
  | some value =>
      cases present : setting.normalizer with
      | none => simp [normalized, present, Probed.ok]
      | some normalizer =>
          simp only [normalized, present, Probed.result_bind, Option.some.injEq, exists_eq_left',
            existsAndEq, true_and]
          cases (normalizer.apply value (setting.context values probe)).result with
          | error raised => simp [bind, Except.bind]
          | ok changed => simp [bind, Except.bind, pure, Probed.ok]

theorem settled_error {outcome : Option Value} (failed : setting.settled outcome = .error e) :
    (∃ shown constraint, e = .invalidSetting setting.name shown constraint) ∨
      outcome = none ∧ ∃ hint, setting.requiredHint = some hint ∧
        e = .missingSetting setting.name hint := by
  cases outcome with
  | none =>
      cases required : setting.requiredHint with
      | none => simp [settled, required] at failed
      | some hint =>
          simp only [settled, required] at failed
          cases failed
          exact .inr ⟨rfl, hint, rfl, rfl⟩
  | some value =>
      left
      cases checked : setting.check value with
      | ok _ => simp [settled, checked, Except.map] at failed
      | error own =>
          simp only [settled, checked, Except.map] at failed
          cases failed
          unfold check at checked
          split at checked
          · cases checked
            exact ⟨_, _, rfl⟩
          · split at checked
            · cases checked
            · split at checked
              · cases checked
              · cases checked
                exact ⟨_, _, rfl⟩

/-- Evaluation passes on what the rule or the normalizer raises; of its own it refuses a value,
or misses one. -/
theorem evaluate_error
    (failed : (setting.evaluate (Layer.winner? layers setting.name) values probe).result =
      .error e) :
    setting.Raises layers probe values e ∨
      (∃ shown constraint, e = .invalidSetting setting.name shown constraint) ∨
      setting.Starts layers probe values none ∧
        ∃ hint, setting.requiredHint = some hint ∧ e = .missingSetting setting.name hint := by
  rcases Probed.error_bind_iff.mp failed with early | ⟨start, started, late⟩
  · exact (initial_error early).imp_right .inl
  have starts := initial_ok_iff.mp started
  rcases Probed.error_bind_iff.mp late with raised | ⟨final, changed, last⟩
  · obtain ⟨value, normalizer, rfl, present, raised⟩ := normalized_error_iff.mp raised
    exact .inl (.normalizer starts present raised)
  · refine .inr ((settled_error last).imp_right ?_)
    rintro ⟨rfl, missing⟩
    cases normalized_ok_iff.mp changed
    exact ⟨starts, missing⟩

theorem evaluate_of_raises (raises : setting.Raises layers probe values e) :
    (setting.evaluate (Layer.winner? layers setting.name) values probe).result = .error e := by
  rw [evaluate, Probed.error_bind_iff]
  cases raises with
  | rule unsupplied rule raised =>
      left
      simp only [Layer.winner?_eq_none_iff.mpr unsupplied, initial, derived, rule, raised]
  | normalizer starts present raised =>
      exact .inr ⟨_, initial_ok_iff.mpr starts, Probed.error_bind_iff.mpr
        (.inl (normalized_error_iff.mpr ⟨_, _, rfl, present, raised⟩))⟩

/-- Evaluation makes no error about an unknown name of its own. -/
theorem evaluate_unknown_iff :
    (setting.evaluate (Layer.winner? layers setting.name) values probe).result =
        .error (.unknownSetting name hint) ↔
      setting.Raises layers probe values (.unknownSetting name hint) := by
  refine ⟨fun failed => ?_, evaluate_of_raises⟩
  rcases evaluate_error failed with raises | ⟨_, _, own⟩ | ⟨_, _, _, own⟩
  · exact raises
  · cases own
  · cases own

/-- In all its contexts, the rule and the normalizer of a setting raise certain errors only. -/
structure RaisesOnly (setting : Setting) (probe : HostProbe) (own : Context → Error → Prop) :
    Prop where
  rule : ∀ reads compute, setting.rule = .computed reads compute → ∀ values,
    (compute (setting.context values probe)).FailsOnly (own (setting.context values probe))
  normalizer : ∀ change, setting.normalizer = some change → ∀ value values,
    (change.apply value (setting.context values probe)).FailsOnly
      (own (setting.context values probe))

theorem RaisesOnly.raised (only : setting.RaisesOnly probe own)
    (raises : setting.Raises layers probe values e) : own (setting.context values probe) e := by
  cases raises with
  | rule _ rule raised => exact only.rule _ _ rule values e raised
  | normalizer _ present raised => exact only.normalizer _ present _ values e raised

theorem raisesOnly_of_plain (rule : ∀ reads compute, setting.rule ≠ .computed reads compute)
    (plain : setting.normalizer = none) : setting.RaisesOnly probe own :=
  ⟨fun reads compute computed => absurd computed (rule reads compute),
    fun change present => by cases plain.symm.trans present⟩

theorem raisesOnly_of_computed (rule : setting.rule = .computed reads compute)
    (only : ∀ values,
      (compute (setting.context values probe)).FailsOnly (own (setting.context values probe)))
    (plain : setting.normalizer = none) : setting.RaisesOnly probe own := by
  refine ⟨fun _ _ computed values => ?_, fun change present => by cases plain.symm.trans present⟩
  cases rule.symm.trans computed
  exact only values

/-- A setting whose rule and normalizer do not fail on unknown names. -/
structure Quiet (setting : Setting) (probe : HostProbe) : Prop where
  rule : ∀ reads compute, setting.rule = .computed reads compute →
    ∀ values, (compute (setting.context values probe)).NamesKnown
  normalizer : ∀ change, setting.normalizer = some change →
    ∀ value values, (change.apply value (setting.context values probe)).NamesKnown

theorem quiet_iff : setting.Quiet probe ↔
    setting.RaisesOnly probe fun _ e => ∀ name hint, e ≠ .unknownSetting name hint := by
  constructor
  · exact fun quiet => ⟨fun reads compute rule values =>
        Probed.namesKnown_iff.mp (quiet.rule reads compute rule values),
      fun change present value values =>
        Probed.namesKnown_iff.mp (quiet.normalizer change present value values)⟩
  · exact fun only => ⟨fun reads compute rule values =>
        Probed.namesKnown_iff.mpr (only.rule reads compute rule values),
      fun change present value values =>
        Probed.namesKnown_iff.mpr (only.normalizer change present value values)⟩

theorem Quiet.not_raises (quiet : setting.Quiet probe) :
    ¬ setting.Raises layers probe values (.unknownSetting name hint) :=
  fun raises => (quiet_iff.mp quiet).raised raises name hint rfl

end Setting

namespace Schema

variable {schema : Schema} {layers sources : List Layer} {first : Layer} {probe : HostProbe}
variable {name hint : String} {e : Error}

/-- An evaluation fails with the error of a setting that it gets to. -/
theorem evaluateAll_error_iff {order : List Setting} {values : Dict Value} :
    (evaluateAll layers probe order values).result = .error e ↔
      ∃ before setting after reached, order = before ++ setting :: after ∧
        (evaluateAll layers probe before values).result = .ok reached ∧
        (setting.evaluate (Layer.winner? layers setting.name) reached probe).result = .error e := by
  constructor
  · intro failed
    induction order generalizing values with
    | nil => cases failed
    | cons setting rest ih =>
        simp only [evaluateAll, Probed.result_bind] at failed
        cases evaluated :
          (setting.evaluate (Layer.winner? layers setting.name) values probe).result with
        | error own =>
            rw [evaluated] at failed
            cases failed
            exact ⟨[], setting, rest, values, rfl, rfl, evaluated⟩
        | ok outcome =>
            have further :
                (evaluateAll layers probe rest (extended values setting.name outcome)).result =
                  .error e := by
              rw [evaluated] at failed
              cases outcome <;> exact failed
            obtain ⟨before, other, after, reached, rfl, done, fails⟩ := ih further
            refine ⟨setting :: before, other, after, reached, rfl, ?_, fails⟩
            exact evaluateAll_cons_ok_iff.mpr ⟨outcome, Setting.evaluate_ok_iff.mp evaluated, done⟩
  · rintro ⟨before, setting, after, reached, rfl, evaluated, failed⟩
    simp only [evaluateAll_append, evaluated, evaluateAll, Probed.result_bind]
    simp only [failed, bind, Except.bind]

/-- Resolution gets to a setting whose rule or normalizer fails. -/
inductive Raises (schema : Schema) (probe : HostProbe) (layers : List Layer) (e : Error) : Prop
  | intro (order : schema.order = before ++ setting :: after)
      (reached : (evaluateAll layers probe before .empty).result = .ok values)
      (raises : setting.Raises layers probe values e)

theorem evaluateAll_unknown_iff :
    (evaluateAll layers probe schema.order .empty).result = .error (.unknownSetting name hint) ↔
      schema.Raises probe layers (.unknownSetting name hint) := by
  rw [evaluateAll_error_iff]
  constructor
  · rintro ⟨before, setting, after, reached, order, evaluated, failed⟩
    exact ⟨order, evaluated, Setting.evaluate_unknown_iff.mp failed⟩
  · rintro ⟨order, evaluated, raises⟩
    exact ⟨_, _, _, _, order, evaluated, Setting.evaluate_unknown_iff.mpr raises⟩

theorem undeclared?_cons (declared : ∀ layer ∈ sources, schema.Declares layer.values) :
    Layer.undeclared? schema (first :: sources) =
      (first.values.keys.find? fun name => !schema.contains name).map fun name =>
        (first.name, name) := by
  have quiet := Layer.undeclared?_of_declares declared
  exact (Layer.undeclared?_append quiet).trans List.findSome?_singleton

theorem resolve_undeclared (declared : ∀ layer ∈ sources, schema.Declares layer.values)
    (found : first.values.keys.find? (fun name => !schema.contains name) = some name) :
    schema.resolve probe (first :: sources) =
      .error
        (.unknownSetting name ("supplied by " ++ first.name ++ " but not a known setting")) := by
  simp only [resolve, undeclared?_cons declared, found, Option.map_some]

/-- A resolution that refuses a name refuses one of the first layer, or passes on what a
setting raises. -/
theorem resolve_unknown_iff (declared : ∀ layer ∈ sources, schema.Declares layer.values) :
    (∃ name hint, (schema.resolve probe (first :: sources)).result =
        .error (.unknownSetting name hint)) ↔
      (∃ name ∈ first.values.keys, schema.contains name = false) ∨
        ∃ name hint, schema.Raises probe (first :: sources) (.unknownSetting name hint) := by
  cases found : first.values.keys.find? fun name => !schema.contains name with
  | some name =>
      have listed := List.mem_of_find?_eq_some found
      have undeclared := List.find?_some found
      have refused : schema.resolve probe (first :: sources) = _ := resolve_undeclared declared found
      have failed := congrArg Probed.result refused
      exact iff_of_true ⟨name, _, failed⟩ (.inl ⟨name, listed, by simpa using undeclared⟩)
  | none =>
      have allDeclared : ¬ ∃ name ∈ first.values.keys, schema.contains name = false := by
        simpa using found
      simp only [resolve, undeclared?_cons declared, found, Option.map_none, allDeclared, false_or,
        ← evaluateAll_unknown_iff, Probed.result_bind]
      cases (evaluateAll (first :: sources) probe schema.order .empty).result with
      | error e => simp [bind, Except.bind]
      | ok values => simp [bind, Except.bind, pure, Probed.ok]

theorem not_raises (quiet : ∀ setting ∈ schema.order, setting.Quiet probe) :
    ¬ schema.Raises probe layers (.unknownSetting name hint) := by
  rintro ⟨order, _, raises⟩
  exact (quiet _ (by simp [order])).not_raises raises

/-- Where no setting raises such an error, only a name of the first layer can be refused. -/
theorem resolve_unknown_iff_of_quiet (declared : ∀ layer ∈ sources, schema.Declares layer.values)
    (quiet : ∀ setting ∈ schema.order, setting.Quiet probe) :
    (∃ name hint, (schema.resolve probe (first :: sources)).result =
        .error (.unknownSetting name hint)) ↔
      ∃ name ∈ first.values.keys, schema.contains name = false := by
  rw [resolve_unknown_iff declared, or_iff_left]
  rintro ⟨name, hint, raises⟩
  exact not_raises quiet raises

end Schema

/-! ### The settings of a hub -/

theorem Context.namesKnown_requireText (context : Context) (name : String) :
    (Probed.ofExcept (context.requireText name)).NamesKnown := by
  intro unknown hint failed
  simp only [Probed.ofExcept, requireText, text?, get] at failed
  split at failed
  · rename_i failedEarly
    split at failedEarly
    · simp [Except.map] at failedEarly
    · cases failedEarly
      cases failed
  · cases failed
  · cases failed

theorem Context.text?_error {context : Context} {name : String} {e : Error}
    (failed : context.text? name = .error e) : ∃ message, e = .schema message := by
  simp only [text?, get] at failed
  split at failed <;> cases failed
  exact ⟨_, rfl⟩

/-- A host that answers, or fails on something other than an unknown name. -/
structure HostProbe.NamesKnown (probe : HostProbe) : Prop where
  hostname : probe.askHostname.NamesKnown
  lanAddress : probe.askLanAddress.NamesKnown

theorem HostProbe.namesKnown_fixed (hostname : Option String) (lanAddress : Option Ipv4) :
    (fixed hostname lanAddress).NamesKnown := by
  constructor
  · cases hostname <;> exact fun _ _ => nofun
  · cases lanAddress <;> exact fun _ _ => nofun

namespace Hub

open Probed (FailsOnly failsOnly_pure)
open Setting (raisesOnly_of_plain raisesOnly_of_computed)

variable {context : Context} {own : Error → Prop}

/-- The settings whose texts the others are made of. -/
def requiredTexts : List String :=
  ["parent_dns_domain", "admin_parent_dns_domain", "traefik_dashboard_subdomain",
    "portainer_subdomain", "default_app_subdomain"]

/-- What the settings of a hub read fails with certain errors only. -/
structure ReadsOnly (context : Context) (own : Error → Prop) : Prop where
  required : ∀ name ∈ requiredTexts, (Probed.ofExcept (context.requireText name)).FailsOnly own
  text : ∀ name, (Probed.ofExcept (context.text? name)).FailsOnly own
  hostname : context.probe.askHostname.FailsOnly own
  lanAddress : context.probe.askLanAddress.FailsOnly own

theorem ReadsOnly.subdomainOf (only : ReadsOnly context own) {label domain : String}
    (isLabel : label ∈ requiredTexts) (isDomain : domain ∈ requiredTexts) :
    (subdomainOf label domain context).FailsOnly own :=
  (only.required label isLabel).bind fun _ =>
    (only.required domain isDomain).bind fun _ => failsOnly_pure _

theorem ReadsOnly.stableName (only : ReadsOnly context own) : (stableName context).FailsOnly own :=
  (only.required _ (by decide)).bind fun _ => failsOnly_pure _

theorem ReadsOnly.appHostNames (only : ReadsOnly context own) :
    (appHostNames context).FailsOnly own :=
  (only.text _).bind fun _ => (only.text _).bind fun _ => failsOnly_pure _

theorem ReadsOnly.qualify (only : ReadsOnly context own) (value : Value) :
    (qualify value context).FailsOnly own := by
  unfold Hub.qualify
  split
  · split
    · exact failsOnly_pure _
    · exact (only.required _ (by decide)).bind fun _ => failsOnly_pure _
  · exact failsOnly_pure _

/-- The settings of a hub raise no errors but those of what they read. -/
theorem settings_raiseOnly {probe : HostProbe} {own : Context → Error → Prop}
    (only : ∀ context, context.probe = probe → ReadsOnly context (own context)) :
    ∀ setting ∈ settings, setting.RaisesOnly probe own := by
  have reads (setting : Setting) (values : Dict Value) :
      ReadsOnly (setting.context values probe) (own (setting.context values probe)) :=
    only _ rfl
  have domain : ∀ setting ∈ domainSettings, setting.RaisesOnly probe own := by
    simp only [domainSettings, List.forall_mem_cons]
    refine ⟨?_, ?_, ?_, ?_, ?_, ?_, ?_, ?_, ?_, ?_, ?_, List.forall_mem_nil _⟩
    all_goals exact raisesOnly_of_plain nofun rfl
  have secret : ∀ setting ∈ secretSettings, setting.RaisesOnly probe own := by
    simp only [secretSettings, List.forall_mem_cons]
    exact ⟨raisesOnly_of_plain nofun rfl, raisesOnly_of_plain nofun rfl, List.forall_mem_nil _⟩
  have names : ∀ setting ∈ nameSettings, setting.RaisesOnly probe own := by
    simp only [nameSettings, List.forall_mem_cons]
    refine ⟨⟨?_, ?_⟩, ?_, ?_, ?_, ?_, ?_, ?_, List.forall_mem_nil _⟩
    · rintro _ _ ⟨rfl⟩ values
      exact (reads _ values).stableName
    · rintro _ ⟨rfl⟩ value values
      exact (reads _ values).qualify value
    · exact raisesOnly_of_plain nofun rfl
    · exact raisesOnly_of_plain nofun rfl
    · exact raisesOnly_of_plain nofun rfl
    all_goals
      exact raisesOnly_of_computed rfl
        (fun values => (reads _ values).subdomainOf (by decide) (by decide)) rfl
  have host : ∀ setting ∈ hostSettings, setting.RaisesOnly probe own := by
    simp only [hostSettings, List.forall_mem_cons]
    refine ⟨?_, ?_, ?_, ?_, ?_, ?_, ?_, ?_, List.forall_mem_nil _⟩
    · exact raisesOnly_of_computed rfl
        (fun values => (reads _ values).hostname.bind fun _ => failsOnly_pure _) rfl
    · exact raisesOnly_of_computed rfl
        (fun values => (reads _ values).lanAddress.bind fun _ => failsOnly_pure _) rfl
    · exact raisesOnly_of_computed rfl (fun values => (reads _ values).appHostNames) rfl
    all_goals exact raisesOnly_of_plain nofun rfl
  have stack : ∀ setting ∈ stackSettings.map stackSetting, setting.RaisesOnly probe own := by
    intro setting member
    obtain ⟨entry, _, rfl⟩ := List.mem_map.mp member
    exact raisesOnly_of_plain nofun rfl
  simp only [settings, List.forall_mem_append]
  exact ⟨⟨⟨⟨domain, secret⟩, names⟩, host⟩, stack⟩

/-- No setting of the hub fails on a name that is not declared. -/
theorem settings_quiet {probe : HostProbe} (known : probe.NamesKnown) :
    ∀ setting ∈ settings, setting.Quiet probe := by
  refine fun setting member => Setting.quiet_iff.mpr (settings_raiseOnly ?_ setting member)
  rintro context rfl
  refine ⟨fun name _ => Probed.namesKnown_iff.mp (context.namesKnown_requireText name),
    fun name e failed unknown hint => ?_, Probed.namesKnown_iff.mp known.hostname,
    Probed.namesKnown_iff.mp known.lanAddress⟩
  obtain ⟨message, rfl⟩ := Context.text?_error failed
  exact nofun

end Hub

end HubKeeper
