import HubKeeper.Proofs.Settings.Solution
import HubKeeper.Settings.Hub

/-!
Settings that cannot stay without a value.

A setting has no value if nothing supplies it, its rule gives none and it is not required.
A schema none of whose settings allows for that resolves to a value for every name; that of
the hub is one.
-/

namespace HubKeeper

namespace Probed

/-- A computation that either fails or gives a value. -/
def Gives (computation : Probed (Option α)) : Prop :=
  ∀ outcome, computation.result = .ok outcome → outcome.isSome = true

theorem gives_some (a : α) : (pure (some a) : Probed (Option α)).Gives := by
  rintro outcome ⟨rfl⟩
  rfl

theorem Gives.bind {first : Probed α} {next : α → Probed (Option β)}
    (gives : ∀ a, (next a).Gives) : (first >>= next).Gives := by
  intro outcome result
  rw [result_bind] at result
  cases done : first.result with
  | error e => simp [done, Bind.bind, Except.bind] at result
  | ok a => exact gives a outcome (by simpa [done, Bind.bind, Except.bind] using result)

end Probed

namespace Setting

variable {setting : Setting} {layers : List Layer} {probe : HostProbe} {values : Dict Value}

/-- A setting with a value wherever those that it falls back on have one. -/
inductive Provides (setting : Setting) : Prop
  | required (hint : setting.requiredHint = some text)
  | constant (rule : setting.rule = .constant value)
  | fallback (rule : setting.rule = .fallback sibling)
  | computed (rule : setting.rule = .computed reads compute)
      (gives : ∀ context, (compute context).Gives)

theorem Normalizes.of_none {start : Option Value}
    (normalizes : setting.Normalizes probe values start none) : start = none := by
  cases normalizes
  rfl

theorem Starts.of_none (starts : setting.Starts layers probe values none) :
    setting.Derives probe values none := by
  cases starts with
  | derived _ rule => exact rule

theorem Provides.isSome (provides : setting.Provides)
    (known : ∀ name ∈ setting.dependencies, (values.get? name).isSome = true)
    (satisfied : setting.Satisfied layers probe values) :
    (values.get? setting.name).isSome = true := by
  cases absent : values.get? setting.name with
  | some value => rfl
  | none =>
      obtain ⟨start, starts, normalizes, settles⟩ := satisfied
      rw [absent] at normalizes settles
      cases normalizes.of_none
      have result := derived_ok_iff.mpr starts.of_none
      cases provides with
      | required hint => simp [Settles, hint] at settles
      | constant rule => simp [derived, rule, Probed.ok] at result
      | fallback rule =>
          have read := fallback_mem_dependencies rule
          have present := known _ read
          simp only [derived, rule, Probed.ok, Except.ok.injEq, context_get? _ read] at result
          simp [result] at present
      | computed rule gives =>
          simp only [derived, rule] at result
          cases gives _ _ result

end Setting

namespace Schema

variable {schema : Schema} {layers : List Layer} {probe : HostProbe} {values : Dict Value}

/-- Where every setting provides a value, every declared name has one. -/
theorem Solution.isSome (wellOrdered : schema.WellOrdered)
    (provides : ∀ setting ∈ schema.settings, setting.Provides)
    (solution : schema.Solution layers probe values) :
    ∀ name ∈ schema.names, (values.get? name).isSome = true :=
  wellOrdered.forall_names (fun name => (values.get? name).isSome = true) fun setting member known =>
    (provides setting member).isSome known (solution.satisfied setting member)

end Schema

/-! ### The settings of the hub -/

namespace Hub

theorem exists_schema : ∃ schema, Hub.schema = .ok schema := by
  have accepted : Hub.schema.isOk = true := by decide +kernel
  cases built : Hub.schema with
  | ok schema => exact ⟨schema, rfl⟩
  | error e =>
      rw [built] at accepted
      cases accepted

theorem gives_subdomainOf (label domain : String) (context : Context) :
    (subdomainOf label domain context).Gives :=
  .bind fun _ => .bind fun _ => Probed.gives_some _

theorem gives_stableName (context : Context) : (stableName context).Gives :=
  .bind fun _ => Probed.gives_some _

theorem gives_hostName (context : Context) : (hostName context).Gives :=
  .bind fun _ => Probed.gives_some _

theorem gives_lanAddress (context : Context) : (lanAddress context).Gives :=
  .bind fun _ => Probed.gives_some _

theorem gives_appHostNames (context : Context) : (appHostNames context).Gives :=
  .bind fun _ => .bind fun _ => Probed.gives_some _

theorem settings_provide : ∀ setting ∈ settings, setting.Provides := by
  have domain : ∀ setting ∈ domainSettings, setting.Provides := by
    simp only [domainSettings, List.forall_mem_cons]
    exact ⟨.constant rfl, .required rfl, .fallback rfl, .required rfl, .fallback rfl,
      .fallback rfl, .constant rfl, .constant rfl, .fallback rfl, .fallback rfl, .fallback rfl,
      List.forall_mem_nil _⟩
  have secret : ∀ setting ∈ secretSettings, setting.Provides := by
    simp only [secretSettings, List.forall_mem_cons]
    exact ⟨.required rfl, .required rfl, List.forall_mem_nil _⟩
  have names : ∀ setting ∈ nameSettings, setting.Provides := by
    simp only [nameSettings, List.forall_mem_cons]
    exact ⟨.computed rfl gives_stableName, .constant rfl, .constant rfl, .constant rfl,
      .computed rfl (gives_subdomainOf _ _), .computed rfl (gives_subdomainOf _ _),
      .computed rfl (gives_subdomainOf _ _), List.forall_mem_nil _⟩
  have host : ∀ setting ∈ hostSettings, setting.Provides := by
    simp only [hostSettings, List.forall_mem_cons]
    exact ⟨.computed rfl gives_hostName, .computed rfl gives_lanAddress,
      .computed rfl gives_appHostNames, .constant rfl, .constant rfl, .constant rfl, .constant rfl,
      .constant rfl, List.forall_mem_nil _⟩
  have stack : ∀ setting ∈ stackSettings.map stackSetting, setting.Provides := by
    intro setting member
    obtain ⟨entry, _, rfl⟩ := List.mem_map.mp member
    exact .constant rfl
  simp only [settings, List.forall_mem_append]
  exact ⟨⟨⟨⟨domain, secret⟩, names⟩, host⟩, stack⟩

/-- Whatever the hub's settings resolve to has a value for each of them. -/
theorem isSome_get? {schema : Schema} (accepted : Hub.schema = .ok schema) {layers : List Layer}
    {probe : HostProbe} {snapshot : Snapshot}
    (resolved : (schema.resolve probe layers).result = .ok snapshot) :
    ∀ name ∈ schema.names, (snapshot.get? name).isSome = true := by
  have wellOrdered := Schema.build_wellOrdered accepted
  have provides : ∀ setting ∈ schema.settings, setting.Provides := by
    rw [Schema.build_settings accepted]
    exact settings_provide
  exact (Schema.solution_of_resolve wellOrdered resolved).isSome wellOrdered provides

def minimalLayers : List Layer :=
  [⟨"document", .ofList
    [("parent_dns_domain", .str "example.com"), ("letsencrypt_owner_email", .str "ops@example.com"),
      ("portainer_agent_secret", .str "0123456789abcdef0123"),
      ("traefik_dashboard_htpasswd",
        .str "admin:$2y$05$LCmVF2WJY/Ue0avRDcsDmelPqzXQcMIXoRxHF3bR62HuIP.fqqqZm")]⟩]

def minimalProbe : HostProbe :=
  .fixed (some "rpi-hub") (some ⟨192, 168, 1, 20⟩)

theorem minimalLayers_resolve :
    ∃ schema snapshot, Hub.schema = .ok schema ∧
      (schema.resolve minimalProbe minimalLayers).result = .ok snapshot ∧
      snapshot.text? "stable_public_dns_name" = some "ddns.example.com" := by
  have computed : (match Hub.schema with
      | .error _ => none
      | .ok schema =>
          match (schema.resolve minimalProbe minimalLayers).result with
          | .error _ => none
          | .ok snapshot => snapshot.text? "stable_public_dns_name") =
        some "ddns.example.com" := by decide +kernel
  split at computed
  · cases computed
  · rename_i schema accepted
    split at computed
    · cases computed
    · rename_i snapshot resolved
      exact ⟨schema, snapshot, accepted, resolved, computed⟩

end Hub

end HubKeeper
