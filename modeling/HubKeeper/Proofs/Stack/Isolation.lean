import HubKeeper.Proofs.Stack.Totality

/-!
Settings that show in one stack environment only.

An environment is a function of what the declarations of its lineage read.  A setting that
only one declaration reads, which is nobody's parent, makes no difference to any other
environment; the secrets of the hub's stacks are such settings.
-/

namespace HubKeeper

/-- Snapshots in which at most the value of `name` differs. -/
def Snapshot.AgreesBut (name : String) (left right : Snapshot) : Prop :=
  ∀ other, other ≠ name → left.get? other = right.get? other

namespace Stack

variable {left right : Snapshot} {setting : String}

/-- A rule that gives the same whatever the value of the setting. -/
def DefaultRule.Ignores (rule : DefaultRule) (setting : String) : Prop :=
  ∀ left right, Snapshot.AgreesBut setting left right →
    ∀ vars, Declaration.ruleValue left vars rule = Declaration.ruleValue right vars rule

theorem DefaultRule.ignores_setting {name : String} (different : name ≠ setting) :
    (DefaultRule.setting name).Ignores setting := by
  intro left right agree vars
  simp only [Declaration.ruleValue, agree name different]

namespace Declaration

variable {declaration : Declaration}

/-- A declaration that reads its overrides and its defaults elsewhere. -/
structure Ignores (declaration : Declaration) (setting : String) : Prop where
  overrides : declaration.overrides ≠ some setting
  defaults : ∀ entry ∈ declaration.defaults, entry.2.Ignores setting

theorem ignores_iff : declaration.Ignores setting ↔
    declaration.overrides ≠ some setting ∧
      ∀ entry ∈ declaration.defaults, entry.2.Ignores setting :=
  ⟨fun ⟨overrides, defaults⟩ => ⟨overrides, defaults⟩, fun ⟨overrides, defaults⟩ =>
    ⟨overrides, defaults⟩⟩

theorem withOverrides_congr (agree : left.AgreesBut setting right)
    (elsewhere : declaration.overrides ≠ some setting) (vars : Dict String) :
    declaration.withOverrides left vars = declaration.withOverrides right vars := by
  simp only [withOverrides]
  cases listed : declaration.overrides with
  | none => rfl
  | some name =>
      have different : name ≠ setting := fun same => elsewhere (same ▸ listed)
      simp only [Snapshot.map?, agree name different]

theorem fill_congr {rules : List (String × DefaultRule)} (agree : left.AgreesBut setting right)
    (ignores : ∀ entry ∈ rules, entry.2.Ignores setting) (vars : Dict String) :
    fill left rules vars = fill right rules vars := by
  induction rules generalizing vars with
  | nil => rfl
  | cons entry rest ih =>
      obtain ⟨key, rule⟩ := entry
      have here := ignores (key, rule) List.mem_cons_self left right agree vars
      have further := ih fun entry member => ignores entry (List.mem_cons_of_mem _ member)
      simp only [fill, here, further]

theorem Ignores.extend_congr (ignores : declaration.Ignores setting)
    (agree : left.AgreesBut setting right) (vars : Dict String) :
    declaration.extend left vars = declaration.extend right vars := by
  simp only [extend, withOverrides_congr agree ignores.overrides, fill_congr agree ignores.defaults]

end Declaration

namespace Compositor

variable {compositor : Compositor} {declarations : List Declaration} {name home : String}

theorem extendAll_congr (agree : left.AgreesBut setting right)
    (ignores : ∀ declaration ∈ declarations, declaration.Ignores setting) (vars : Dict String) :
    extendAll left declarations vars = extendAll right declarations vars := by
  induction declarations generalizing vars with
  | nil => rfl
  | cons declaration rest ih =>
      have here := (ignores declaration List.mem_cons_self).extend_congr agree
      have further := ih fun other member => ignores other (List.mem_cons_of_mem _ member)
      simp only [extendAll, here, further]

/-- What nobody inherits from is in no lineage but its own. -/
theorem eq_of_mem_lineage {declaration : Declaration}
    (childless : ∀ other ∈ declarations, other.parent ≠ some declaration.name)
    (member : declaration ∈ lineage declarations name) : declaration.name = name := by
  induction declarations generalizing name with
  | nil => cases member
  | cons latest earlier ih =>
      have childlessEarlier : ∀ other ∈ earlier, other.parent ≠ some declaration.name :=
        fun other listed => childless other (List.mem_cons_of_mem _ listed)
      simp only [lineage] at member
      split at member
      · rename_i named
        split at member
        · exact List.mem_singleton.mp member ▸ named
        · rename_i parent inherits
          rcases List.mem_append.mp member with elder | self
          · cases ih childlessEarlier elder
            exact absurd inherits (childless latest List.mem_cons_self)
          · exact List.mem_singleton.mp self ▸ named
      · exact ih childlessEarlier member

/-- A setting that is read at home only, where nobody inherits from, shows nowhere else. -/
theorem compose_congr (agree : left.AgreesBut setting right)
    (ignores : ∀ declaration ∈ compositor.declarations, declaration.name ≠ home →
      declaration.Ignores setting)
    (childless : ∀ declaration ∈ compositor.declarations, declaration.parent ≠ some home)
    (elsewhere : name ≠ home) : compositor.compose left name = compositor.compose right name := by
  have lineageIgnores : ∀ declaration ∈ lineage compositor.declarations.reverse name,
      declaration.Ignores setting := by
    intro declaration member
    refine ignores declaration (List.mem_reverse.mp (mem_of_mem_lineage member)) ?_
    rintro rfl
    refine elsewhere (eq_of_mem_lineage (fun other listed => ?_) member).symm
    exact childless other (List.mem_reverse.mp listed)
  simp only [compose, extendAll_congr agree lineageIgnores]

end Compositor

end Stack

/-! ### The stacks of the hub -/

namespace Hub

open Stack

variable {setting : String}

theorem ignores_ruleOf (key : String) : (ruleOf key).Ignores setting :=
  fun _ _ _ _ => rfl

theorem ignores_appRule (different : "default_app_hostnames" ≠ setting) :
    appRule.Ignores setting := by
  intro left right agree vars
  simp only [appRule, Declaration.ruleValue, Snapshot.set?, agree _ different]

theorem ignores_dashboardCredentials (different : "traefik_dashboard_htpasswd" ≠ setting) :
    dashboardCredentials.Ignores setting := by
  intro left right agree vars
  simp only [dashboardCredentials, Declaration.ruleValue, Snapshot.text?, agree _ different]

theorem agentSecret_ignored : ∀ declaration ∈ declarations, declaration.name ≠ "portainer" →
    declaration.Ignores "portainer_agent_secret" := by
  simp [declarations, baseStack, traefikStack, portainerStack, appStack, runtimeStack,
    Declaration.ignores_iff, List.forall_mem_cons, DefaultRule.ignores_setting, ignores_ruleOf,
    ignores_appRule, ignores_dashboardCredentials, -List.mem_cons, -Prod.forall]

theorem dashboardCredentials_ignored : ∀ declaration ∈ declarations,
    declaration.name ≠ "traefik" → declaration.Ignores "traefik_dashboard_htpasswd" := by
  simp [declarations, baseStack, traefikStack, portainerStack, appStack, runtimeStack,
    Declaration.ignores_iff, List.forall_mem_cons, DefaultRule.ignores_setting, ignores_ruleOf,
    ignores_appRule, -List.mem_cons, -Prod.forall]

/-- The agent's secret shows in the environment of the container manager only, the dashboard's
credentials in that of the reverse proxy only. -/
theorem compose_eq_of_agreesBut {schema : Schema} {compositor : Compositor}
    (accepted : Hub.compositor schema = .ok compositor) (left right : Snapshot) (name : String) :
    (left.AgreesBut "portainer_agent_secret" right → name ≠ "portainer" →
      compositor.compose left name = compositor.compose right name) ∧
    (left.AgreesBut "traefik_dashboard_htpasswd" right → name ≠ "traefik" →
      compositor.compose left name = compositor.compose right name) := by
  obtain ⟨listed, _⟩ := Compositor.build_ok accepted
  have childless : ∀ home ∈ ["portainer", "traefik"], ∀ declaration ∈ declarations,
      declaration.parent ≠ some home := by decide
  refine ⟨fun agree elsewhere => ?_, fun agree elsewhere => ?_⟩
  · exact Compositor.compose_congr agree (listed ▸ agentSecret_ignored)
      (listed ▸ childless _ (by simp)) elsewhere
  · exact Compositor.compose_congr agree (listed ▸ dashboardCredentials_ignored)
      (listed ▸ childless _ (by simp)) elsewhere

def secretSnapshot (agent dashboard : String) : Snapshot where
  values := .ofList
    [("portainer_agent_secret", .text agent), ("traefik_dashboard_htpasswd", .text dashboard)]
  sensitive := .empty

theorem secretSnapshot_get? (agent dashboard name : String) :
    (secretSnapshot agent dashboard).get? name =
      if name = "traefik_dashboard_htpasswd" then some (.text dashboard)
      else if name = "portainer_agent_secret" then some (.text agent) else none := by
  simp [secretSnapshot, Snapshot.get?, Dict.ofList, Dict.get?_insert]

theorem secretSnapshot_compose :
    ∃ schema compositor, Hub.schema = .ok schema ∧ Hub.compositor schema = .ok compositor ∧
      compositor.compose (secretSnapshot "first" "ops:$2y$05$") "traefik" =
        compositor.compose (secretSnapshot "second" "ops:$2y$05$") "traefik" ∧
      compositor.compose (secretSnapshot "first" "ops:$2y$05$") "portainer" =
        compositor.compose (secretSnapshot "first" "dev:$2y$10$") "portainer" ∧
      ((compositor.compose (secretSnapshot "second" "ops:$2y$05$") "portainer").toOption.bind
        (·.vars.get? "PORTAINER_AGENT_SECRET")) = some "second" ∧
      ((compositor.compose (secretSnapshot "first" "dev:$2y$10$") "traefik").toOption.bind
        (·.vars.get? "TRAEFIK_DASHBOARD_HTPASSWD")) = some "dev:$$2y$$10$$" := by
  have agent : (secretSnapshot "first" "ops:$2y$05$").AgreesBut "portainer_agent_secret"
      (secretSnapshot "second" "ops:$2y$05$") := by
    intro other different
    simp [secretSnapshot_get?, different]
  have dashboard : (secretSnapshot "first" "ops:$2y$05$").AgreesBut "traefik_dashboard_htpasswd"
      (secretSnapshot "first" "dev:$2y$10$") := by
    intro other different
    simp [secretSnapshot_get?, different]
  obtain ⟨schema, isHub⟩ := exists_schema
  obtain ⟨compositor, accepted⟩ := exists_compositor isHub
  refine ⟨schema, compositor, isHub, accepted,
    (compose_eq_of_agreesBut accepted _ _ "traefik").1 agent (by decide),
    (compose_eq_of_agreesBut accepted _ _ "portainer").2 dashboard (by decide), ?_, ?_⟩
  all_goals
    obtain ⟨_⟩ := compositor
    cases (Compositor.build_ok accepted).1
    decide +kernel

end Hub

end HubKeeper
