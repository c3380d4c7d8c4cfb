import HubKeeper.Proofs.Stack.Inheritance
import HubKeeper.Proofs.Stack.Totality

/-!
Router rules follow the names that end up in an environment.

A rule for the reverse proxy is computed from a variable of the environment that is being made.
Where the rule is not given explicitly, it is made of the name as it stands in the finished
environment, whether that was explicit, inherited, emptied and filled again, or a default.
-/

namespace HubKeeper

/-- The map of a setting, if there is one, does not mention a key. -/
def Snapshot.Unlisted (snapshot : Snapshot) (setting key : String) : Prop :=
  ∀ map, snapshot.map? setting = some map → map.get? key = none

namespace Stack

/-- One variable is the rule for the host that another one names, and is left out where no host is
named or the rule is empty. -/
structure Routes (vars : Dict String) (nameKey ruleKey : String) : Prop where
  value : ∀ rule, vars.get? ruleKey = some rule →
    ∃ host, vars.get? nameKey = some host ∧ rule = hostRule [host]
  absent : vars.get? ruleKey = none ↔ vars.get? nameKey = none ∨
    ∃ host, vars.get? nameKey = some host ∧ hostRule [host] = ""

theorem routes_of_eq {vars : Dict String} {nameKey ruleKey : String}
    (same : vars.get? ruleKey =
      ((vars.get? nameKey).map fun host => hostRule [host]).filter (· ≠ "")) :
    Routes vars nameKey ruleKey := by
  constructor
  · intro rule present
    rw [same, Option.filter_eq_some_iff, Option.map_eq_some_iff] at present
    obtain ⟨⟨host, named, rfl⟩, _⟩ := present
    exact ⟨host, named, rfl⟩
  · rw [same]
    cases vars.get? nameKey with
    | none => simp
    | some host => by_cases empty : hostRule [host] = "" <;> simp [Option.filter, empty]

theorem Routes.get?_eq {vars : Dict String} {nameKey ruleKey host : String}
    (routes : Routes vars nameKey ruleKey) (named : vars.get? nameKey = some host)
    (notEmpty : hostRule [host] ≠ "") : vars.get? ruleKey = some (hostRule [host]) := by
  cases present : vars.get? ruleKey with
  | none =>
      rcases routes.absent.mp present with unnamed | ⟨other, same, empty⟩
      · cases named.symm.trans unnamed
      · cases named.symm.trans same
        exact absurd empty notEmpty
  | some rule =>
      obtain ⟨other, same, rfl⟩ := routes.value rule present
      cases named.symm.trans same
      rfl

namespace Declaration

variable {declaration : Declaration} {rules before after : List (String × DefaultRule)}
  {snapshot : Snapshot} {vars inherited start result : Dict String} {key setting : String}
  {source target : String}

theorem explicit_get?_eq_none (overrides : declaration.overrides = some setting)
    (unlisted : snapshot.Unlisted setting key) :
    (declaration.explicit snapshot).get? key = none := by
  rw [explicit, overrides, Option.bind_some]
  cases found : snapshot.map? setting with
  | none => rfl
  | some map => exact unlisted map found

theorem get?_fill_of_not_mem (filled : fill snapshot rules vars = .ok result)
    (elsewhere : key ∉ rules.map (·.1)) : result.get? key = vars.get? key := by
  induction rules generalizing vars with
  | nil =>
      cases filled
      rfl
  | cons entry rest ih =>
      obtain ⟨other, rule⟩ := entry
      rw [List.map_cons, List.mem_cons, not_or] at elsewhere
      obtain ⟨next, here, further⟩ := fill_cons.mp filled
      rw [ih further elsewhere.2, get?_fill_of_ne here (Ne.symm elsewhere.1)]

/-- A variable that only one rule fills, from another one that no later rule fills, is computed
from the value that the other one ends up with. -/
theorem get?_fill_computed (f : String → String)
    (filled : fill snapshot (before ++
      (target, .computed fun _ vars => .ok ((vars.get? source).map f)) :: after) start = .ok result)
    (vacant : start.get? target = none) (notBefore : target ∉ before.map (·.1))
    (notAfter : target ∉ after.map (·.1)) (settled : source ∉ after.map (·.1))
    (different : target ≠ source) : result.get? target = (result.get? source).map f := by
  obtain ⟨reached, earlier, rest⟩ := fill_append_ok.mp filled
  obtain ⟨next, here, later⟩ := fill_cons.mp rest
  have vacantHere : reached.get? target = none :=
    (get?_fill_of_not_mem earlier notBefore).trans vacant
  rw [get?_fill_of_not_mem later notAfter, get?_fill_of_not_mem later settled,
    get?_fill_of_ne here different]
  rw [fill_singleton, if_neg (by simp [isFilled, vacantHere])] at here
  obtain ⟨_, ⟨⟩, rfl⟩ := here
  cases reached.get? source with
  | none => exact vacantHere
  | some name => exact Dict.get?_insert_self

theorem extend_get?_eq (extended : declaration.extend snapshot inherited = .ok vars) :
    ∃ full, fill snapshot declaration.defaults (declaration.overridden snapshot inherited) =
      .ok full ∧ ∀ key, vars.get? key = (full.get? key).filter (· ≠ "") := by
  obtain ⟨_, full, filled, kept⟩ := extend_ok extended
  refine ⟨full, filled, fun key => Option.ext fun value => ?_⟩
  rw [kept, Option.filter_eq_some_iff, decide_eq_true_iff]

theorem extend_get?_eq_none (extended : declaration.extend snapshot inherited = .ok vars)
    (explicit : (declaration.explicit snapshot).get? key = none)
    (absent : inherited.get? key = none) (elsewhere : key ∉ declaration.defaults.map (·.1)) :
    vars.get? key = none := by
  obtain ⟨full, filled, same⟩ := extend_get?_eq extended
  rw [same, get?_fill_of_not_mem filled elsewhere, get?_overridden, explicit, absent]
  rfl

theorem extend_computed (f : String → String)
    (extended : declaration.extend snapshot inherited = .ok vars)
    (listed : declaration.defaults = before ++
      (target, .computed fun _ vars => .ok ((vars.get? source).map f)) :: after)
    (explicit : (declaration.explicit snapshot).get? target = none)
    (absent : inherited.get? target = none) (notBefore : target ∉ before.map (·.1))
    (notAfter : target ∉ after.map (·.1)) (settled : source ∉ after.map (·.1))
    (different : target ≠ source) (empty : f "" = "") :
    vars.get? target = ((vars.get? source).map f).filter (· ≠ "") := by
  obtain ⟨full, filled, same⟩ := extend_get?_eq extended
  have vacant : (declaration.overridden snapshot inherited).get? target = none := by
    rw [get?_overridden, explicit, absent, Option.or_none]
  rw [listed] at filled
  rw [same, same, get?_fill_computed f filled vacant notBefore notAfter settled different]
  -- An empty name is dropped from the environment, but its rule is empty too.
  cases full.get? source with
  | none => rfl
  | some name =>
      by_cases nothing : name = ""
      · simp [Option.filter, nothing, empty]
      · simp [Option.filter, nothing]

end Declaration

end Stack

namespace Hub

open Stack

variable {schema : Schema} {compositor : Compositor} {snapshot : Snapshot} {env : StackEnvironment}
  {declaration : Declaration} {before after : List (String × DefaultRule)}
  {setting nameKey ruleKey : String}

/-- The rule of an environment on top of the base one. -/
theorem routes_of_compose (built : Hub.compositor schema = .ok compositor)
    (member : declaration ∈ declarations) (inherits : declaration.parent = some "base")
    (overrides : declaration.overrides = some setting)
    (listed : declaration.defaults = before ++ (ruleKey, ruleOf nameKey) :: after)
    (notBase : ruleKey ∉ baseStack.defaults.map (·.1)) (notBefore : ruleKey ∉ before.map (·.1))
    (notAfter : ruleKey ∉ after.map (·.1)) (settled : nameKey ∉ after.map (·.1))
    (different : ruleKey ≠ nameKey)
    (composed : compositor.compose snapshot declaration.name = .ok env)
    (baseUnlisted : snapshot.Unlisted "base_stack_env" ruleKey)
    (unlisted : snapshot.Unlisted setting ruleKey) : Routes env.vars nameKey ruleKey := by
  obtain ⟨inherited, _, _, above, extended⟩ := Compositor.exists_inherited built member composed
  have baseMember : baseStack ∈ declarations := List.mem_cons_self
  obtain ⟨start, _, orphan, _, baseExtended⟩ :=
    Compositor.exists_inherited built baseMember (above "base" inherits)
  have absent : inherited.get? ruleKey = none := by
    refine Declaration.extend_get?_eq_none baseExtended
      (Declaration.explicit_get?_eq_none rfl baseUnlisted) ?_ notBase
    rw [orphan rfl]
    rfl
  exact routes_of_eq (Declaration.extend_computed (fun host => hostRule [host]) extended listed
    (Declaration.explicit_get?_eq_none overrides unlisted) absent notBefore notAfter settled
    different rfl)

/-- The rules of the dashboard and of the container manager follow the names in their own
environments, unless they are given explicitly. -/
theorem compose_routes (built : Hub.compositor schema = .ok compositor) (snapshot : Snapshot)
    (env : StackEnvironment) :
    (compositor.compose snapshot "traefik" = .ok env →
      snapshot.Unlisted "base_stack_env" "TRAEFIK_DASHBOARD_HOST_RULE" →
      snapshot.Unlisted "traefik_stack_env" "TRAEFIK_DASHBOARD_HOST_RULE" →
      Routes env.vars "TRAEFIK_DASHBOARD_DNS_NAME" "TRAEFIK_DASHBOARD_HOST_RULE") ∧
    (compositor.compose snapshot "portainer" = .ok env →
      snapshot.Unlisted "base_stack_env" "PORTAINER_HOST_RULE" →
      snapshot.Unlisted "portainer_stack_env" "PORTAINER_HOST_RULE" →
      Routes env.vars "PORTAINER_DNS_NAME" "PORTAINER_HOST_RULE") := by
  refine ⟨fun composed => ?_, fun composed => ?_⟩
  · have listed : traefikStack.defaults = traefikStack.defaults.take 3 ++
        ("TRAEFIK_DASHBOARD_HOST_RULE", ruleOf "TRAEFIK_DASHBOARD_DNS_NAME") ::
          traefikStack.defaults.drop 4 := rfl
    exact routes_of_compose built (by simp [declarations]) rfl rfl listed (by decide) (by decide)
      (by decide) (by decide) (by decide) composed
  · have listed : portainerStack.defaults = portainerStack.defaults.take 3 ++
        [("PORTAINER_HOST_RULE", ruleOf "PORTAINER_DNS_NAME")] := rfl
    exact routes_of_compose built (by simp [declarations]) rfl rfl listed (by decide) (by decide)
      (by decide) (by decide) (by decide) composed

/-- A name that is explicit below, emptied above and filled again, and one that is inherited. -/
def renamedSnapshot : Snapshot where
  values := .ofList
    [("base_stack_env", .textMap (.ofList
      [("TRAEFIK_DASHBOARD_DNS_NAME", "old.example.com"),
       ("PORTAINER_DNS_NAME", " nas.example.com ")])),
     ("traefik_stack_env", .textMap (.ofList [("TRAEFIK_DASHBOARD_DNS_NAME", "")])),
     ("traefik_dashboard_dns_name", .text "hub.example.com"),
     ("portainer_dns_name", .text "unused.example.com")]
  sensitive := .empty

theorem renamedSnapshot_unlisted {setting key : String}
    (unlisted : ((renamedSnapshot.map? setting).getD .empty).get? key = none) :
    renamedSnapshot.Unlisted setting key := by
  intro map found
  simpa [found] using unlisted

theorem renamedSnapshot_routes :
    ∃ schema compositor, Hub.schema = .ok schema ∧ Hub.compositor schema = .ok compositor ∧
      (∃ env, compositor.compose renamedSnapshot "traefik" = .ok env ∧
        env.vars.get? "TRAEFIK_DASHBOARD_HOST_RULE" = some "Host(\x60hub.example.com\x60)") ∧
      ∃ env, compositor.compose renamedSnapshot "portainer" = .ok env ∧
        env.vars.get? "PORTAINER_HOST_RULE" = some "Host(\x60nas.example.com\x60)" := by
  obtain ⟨schema, isHub⟩ := exists_schema
  obtain ⟨compositor, accepted⟩ := exists_compositor isHub
  obtain rfl : compositor = ⟨declarations⟩ :=
    congrArg Compositor.mk (Compositor.build_ok accepted).1
  have routes := compose_routes accepted renamedSnapshot
  have dashboard : ((Compositor.compose ⟨declarations⟩ renamedSnapshot "traefik").toOption.bind
      (·.vars.get? "TRAEFIK_DASHBOARD_DNS_NAME")) = some "hub.example.com" := by decide +kernel
  have manager : ((Compositor.compose ⟨declarations⟩ renamedSnapshot "portainer").toOption.bind
      (·.vars.get? "PORTAINER_DNS_NAME")) = some " nas.example.com " := by decide +kernel
  refine ⟨schema, _, isHub, accepted, ?_, ?_⟩
  · cases composed : Compositor.compose ⟨declarations⟩ renamedSnapshot "traefik" with
    | error e => simp [composed, Except.toOption] at dashboard
    | ok env =>
        rw [composed] at dashboard
        have rule : hostRule ["hub.example.com"] = "Host(\x60hub.example.com\x60)" := by
          decide +kernel
        rw [← rule]
        refine ⟨env, rfl, ((routes env).1 composed ?_ ?_).get?_eq dashboard (by rw [rule]; decide)⟩
        all_goals exact renamedSnapshot_unlisted rfl
  · cases composed : Compositor.compose ⟨declarations⟩ renamedSnapshot "portainer" with
    | error e => simp [composed, Except.toOption] at manager
    | ok env =>
        rw [composed] at manager
        have rule : hostRule [" nas.example.com "] = "Host(\x60nas.example.com\x60)" := by
          decide +kernel
        rw [← rule]
        refine ⟨env, rfl, ((routes env).2 composed ?_ ?_).get?_eq manager (by rw [rule]; decide)⟩
        all_goals exact renamedSnapshot_unlisted rfl

end Hub

end HubKeeper
