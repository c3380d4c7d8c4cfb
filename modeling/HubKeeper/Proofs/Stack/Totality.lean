import HubKeeper.Proofs.Settings.Completeness
import HubKeeper.Proofs.Stack.Composing
import HubKeeper.Stack.Hub

/-!
The stack environments of a hub compose from whatever its settings resolve to.

The override settings are validated when they are resolved, so no explicit variable has an
invalid name, and no rule of the hub's stacks fails.
-/

namespace HubKeeper

theorem Value.asMap?_eq_some {value : Value} {map : Dict String}
    (isMap : value.asMap? = some map) : value = .textMap map := by
  cases value with
  | textMap found =>
      cases isMap
      rfl
  | _ => cases isMap

theorem Validator.named_of_envVarMap {map : Dict String}
    (accepted : Validator.envVarMap (.textMap map) = .ok ()) : Stack.Named map := by
  simp only [Validator.envVarMap] at accepted
  split at accepted
  · cases accepted
  · rename_i none
    intro key value present
    simpa using List.find?_eq_none.mp none key (Dict.mem_keys.mpr ⟨value, present⟩)

namespace Hub

open Stack

variable {schema : Schema} {compositor : Compositor} {snapshot : Snapshot} {layers : List Layer}
  {probe : HostProbe}

theorem exists_compositor (accepted : Hub.schema = .ok schema) :
    ∃ compositor, Hub.compositor schema = .ok compositor := by
  have regardless : Compositor.firstFault schema [] declarations =
      Compositor.firstFault ⟨settings, []⟩ [] declarations :=
    Compositor.firstFault_congr (Schema.build_settings accepted)
  have faultless : Compositor.firstFault ⟨settings, []⟩ [] declarations = none := by
    decide +kernel
  refine ⟨⟨declarations⟩, ?_⟩
  simp only [Hub.compositor, Compositor.build, regardless, faultless]

/-- The settings with explicit variables are the ones that are checked for their names. -/
theorem named_of_overrides (accepted : Hub.schema = .ok schema)
    (resolved : (schema.resolve probe layers).result = .ok snapshot) :
    ∀ declaration ∈ declarations, Named (declaration.explicit snapshot) := by
  have overriding : ∀ declaration ∈ declarations, ∀ name ∈ declaration.overrides,
      name ∈ stackSettings.map (·.1) := by decide +kernel
  have elsewhere : ∀ setting ∈ domainSettings ++ secretSettings ++ nameSettings ++ hostSettings,
      setting.name ∉ stackSettings.map (·.1) := by decide +kernel
  intro declaration member
  simp only [Declaration.explicit]
  cases given : declaration.overrides.bind snapshot.map? with
  | none => exact .empty
  | some map =>
      obtain ⟨name, overrides, read⟩ := Option.bind_eq_some_iff.mp given
      obtain ⟨value, found, isMap⟩ := Option.bind_eq_some_iff.mp read
      cases Value.asMap?_eq_some isMap
      have solution := Schema.solution_of_resolve (Schema.build_wellOrdered accepted) resolved
      obtain ⟨setting, declared, rfl, _, checked⟩ := solution.admits found
      rw [Schema.build_settings accepted, settings] at declared
      rcases List.mem_append.mp declared with other | own
      · exact absurd (overriding declaration member _ overrides) (elsewhere setting other)
      · obtain ⟨entry, _, rfl⟩ := List.mem_map.mp own
        exact Validator.named_of_envVarMap (checked _ rfl)

theorem rules_answer : ∀ declaration ∈ declarations, ∀ entry ∈ declaration.defaults,
    entry.2.Answers snapshot := by
  have setting (name : String) : (DefaultRule.setting name).Answers snapshot :=
    DefaultRule.answers_setting name
  have rule (key : String) : (ruleOf key).Answers snapshot := fun _ => ⟨_, rfl⟩
  have app : appRule.Answers snapshot := fun _ => ⟨_, rfl⟩
  have credentials : dashboardCredentials.Answers snapshot := fun _ => ⟨_, rfl⟩
  simp only [declarations, baseStack, traefikStack, portainerStack, appStack, runtimeStack,
    List.forall_mem_cons, List.not_mem_nil, setting, rule, app, credentials, false_implies,
    implies_true, and_self]

/-- Whatever the settings of the hub resolve to has a value for each of them, and all stack
environments compose from it, with valid names and without empty values. -/
theorem composeAll_of_resolve :
    ∃ schema compositor, Hub.schema = .ok schema ∧ Hub.compositor schema = .ok compositor ∧
      compositor.names = ["base", "traefik", "portainer", "app", "portainer-runtime"] ∧
      ∀ layers probe snapshot, (schema.resolve probe layers).result = .ok snapshot →
        (∀ name ∈ schema.names, (snapshot.get? name).isSome = true) ∧
        ∃ envs, compositor.composeAll snapshot = .ok envs ∧
          envs.map (·.name) = compositor.names ∧
          ∀ env ∈ envs, ∀ key value, env.vars.get? key = some value →
            isEnvKey key = true ∧ value ≠ "" := by
  obtain ⟨schema, accepted⟩ := exists_schema
  obtain ⟨compositor, built⟩ := exists_compositor accepted
  obtain ⟨listed, valid⟩ := Compositor.build_ok built
  rw [← listed] at valid
  refine ⟨schema, compositor, accepted, built, by rw [Compositor.names, listed]; rfl, ?_⟩
  intro layers probe snapshot resolved
  obtain ⟨envs, composed, names, each⟩ := Compositor.exists_composeAll
    (listed ▸ named_of_overrides accepted resolved) (listed ▸ rules_answer)
  exact ⟨isSome_get? accepted resolved, envs, composed, names, fun env member =>
    Compositor.compose_proper valid (each env member)⟩

theorem minimalLayers_composeAll :
    ∃ schema compositor snapshot envs, Hub.schema = .ok schema ∧
      Hub.compositor schema = .ok compositor ∧
      (schema.resolve minimalProbe minimalLayers).result = .ok snapshot ∧
      compositor.composeAll snapshot = .ok envs ∧ envs.length = 5 := by
  obtain ⟨schema, compositor, accepted, built, names, total⟩ := composeAll_of_resolve
  obtain ⟨schema', snapshot, accepted', resolved, _⟩ := minimalLayers_resolve
  cases accepted.symm.trans accepted'
  obtain ⟨_, envs, composed, listed, _⟩ := total minimalLayers minimalProbe snapshot resolved
  refine ⟨schema, compositor, snapshot, envs, accepted, built, resolved, composed, ?_⟩
  simpa [names] using congrArg List.length listed

end Hub

end HubKeeper
