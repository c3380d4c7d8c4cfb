import HubKeeper.Proofs.Stack.Inheritance
import Mathlib.Data.List.Nodup
import Mathlib.Logic.Relation

/-!
Composition by recursion through parents.

An environment can also be composed by looking up the parent, composing that one in the same way
and going on from its variables.  For accepted declarations this always comes to an end, with the
outcome of `compose`.  It fails only on an explicit variable with an invalid name or in a computed
rule, of the declaration itself or of one of its ancestors.
-/

namespace HubKeeper.Stack

/-- The least of the keys that are no names of environment variables. -/
def LeastInvalid (vars : Dict String) (key : String) : Prop :=
  key ∈ vars.keys ∧ isEnvKey key = false ∧
    ∀ other ∈ vars.keys, isEnvKey other = false → key ≤ other

def invalidKey (setting key : String) : Error :=
  .invalidSetting setting key "keys must be environment variable names ([A-Za-z_][A-Za-z0-9_]*)"

namespace Declaration

/-- Why a declaration cannot be put on top of inherited variables: the least of the invalid names
of explicit variables, or a computed rule for a key that is vacant at its turn. -/
inductive Fails (declaration : Declaration) (snapshot : Snapshot) (inherited : Dict String) :
    Error → Prop
  | name (overrides : declaration.overrides = some setting)
      (least : LeastInvalid (declaration.explicit snapshot) key) :
      Fails declaration snapshot inherited (invalidKey setting key)
  | rule (named : Named (declaration.explicit snapshot))
      (listed : declaration.defaults = before ++ (key, .computed compute) :: after)
      (reached : fill snapshot before (declaration.overridden snapshot inherited) = .ok vars)
      (vacant : isFilled vars key = false) (failed : compute snapshot vars = .error e) :
      Fails declaration snapshot inherited e

variable {declaration : Declaration} {rules : List (String × DefaultRule)} {snapshot : Snapshot}
  {vars inherited : Dict String} {setting : String} {e : Error}

theorem explicit_eq (overrides : declaration.overrides = some setting) :
    declaration.explicit snapshot = (snapshot.map? setting).getD .empty := by
  simp [explicit, overrides]

theorem withOverrides_error_iff :
    declaration.withOverrides snapshot inherited = .error e ↔
      ∃ setting, declaration.overrides = some setting ∧
        ∃ key, LeastInvalid (declaration.explicit snapshot) key ∧ e = invalidKey setting key := by
  cases overrides : declaration.overrides with
  | none => simp [withOverrides, overrides]
  | some setting =>
      have first (key : String) :
          ((declaration.explicit snapshot).entries.find? fun entry => !isEnvKey entry.1).map (·.1) =
            some key ↔ LeastInvalid (declaration.explicit snapshot) key := by
        rw [Dict.find?_key_iff fun key => !isEnvKey key]
        simp [LeastInvalid]
      simp only [withOverrides, overrides, ← explicit_eq overrides, ← first, Option.some.injEq,
        exists_eq_left']
      cases (declaration.explicit snapshot).entries.find? fun entry => !isEnvKey entry.1 <;>
        simp [eq_comm, invalidKey]

theorem fill_singleton_error {key : String} {rule : DefaultRule} :
    fill snapshot [(key, rule)] vars = .error e ↔
      isFilled vars key = false ∧
        ∃ compute, rule = .computed compute ∧ compute snapshot vars = .error e := by
  cases filled : isFilled vars key with
  | true => simp [fill, filled]
  | false =>
      cases rule with
      | setting name => cases found : snapshot.get? name <;> simp [fill, filled, ruleValue, found]
      | computed compute =>
          cases raised : compute snapshot vars with
          | error own => simp [fill, filled, ruleValue, raised]
          | ok outcome => cases outcome <;> simp [fill, filled, ruleValue, raised]

theorem fill_error_iff :
    fill snapshot rules vars = .error e ↔
      ∃ before key compute after reached, rules = before ++ (key, .computed compute) :: after ∧
        fill snapshot before vars = .ok reached ∧ isFilled reached key = false ∧
        compute snapshot reached = .error e := by
  constructor
  · intro failed
    induction rules generalizing vars with
    | nil => cases failed
    | cons entry rest ih =>
        obtain ⟨key, rule⟩ := entry
        rw [← List.singleton_append, fill_append] at failed
        cases here : fill snapshot [(key, rule)] vars with
        | error raised =>
            rw [here] at failed
            cases failed
            obtain ⟨vacant, compute, rfl, raised⟩ := fill_singleton_error.mp here
            exact ⟨[], key, compute, rest, vars, rfl, rfl, vacant, raised⟩
        | ok next =>
            rw [here] at failed
            obtain ⟨before, found, compute, after, reached, rfl, filled, vacant, raised⟩ :=
              ih failed
            exact ⟨(key, rule) :: before, found, compute, after, reached, rfl,
              fill_cons.mpr ⟨next, here, filled⟩, vacant, raised⟩
  · rintro ⟨before, key, compute, after, reached, rfl, filled, vacant, raised⟩
    have here : fill snapshot [(key, .computed compute)] reached = .error e :=
      fill_singleton_error.mpr ⟨vacant, compute, rfl, raised⟩
    rw [fill_append, filled, ← List.singleton_append, Except.bind, fill_append, here, Except.bind]

/-- A declaration goes on top of any variables unless it fails. -/
theorem extend_error_iff :
    declaration.extend snapshot inherited = .error e ↔ declaration.Fails snapshot inherited e := by
  constructor
  · intro failed
    simp only [extend] at failed
    split at failed
    · rename_i refused
      cases failed
      obtain ⟨setting, overrides, key, least, rfl⟩ := withOverrides_error_iff.mp refused
      exact .name overrides least
    · rename_i start applied
      obtain ⟨named, rfl⟩ := withOverrides_ok_iff.mp applied
      cases filled :
          fill snapshot declaration.defaults (declaration.overridden snapshot inherited) with
      | ok full => simp [filled, Except.map] at failed
      | error raised =>
          rw [filled] at failed
          cases failed
          obtain ⟨before, key, compute, after, reached, listed, done, vacant, raised⟩ :=
            fill_error_iff.mp filled
          exact .rule named listed done vacant raised
  · intro fails
    cases fails with
    | name overrides least =>
        have refused : declaration.withOverrides snapshot inherited = .error _ :=
          withOverrides_error_iff.mpr ⟨_, overrides, _, least, rfl⟩
        simp only [extend, refused]
    | rule named listed reached vacant failed =>
        have applied : declaration.withOverrides snapshot inherited =
            .ok (declaration.overridden snapshot inherited) := withOverrides_ok_iff.mpr ⟨named, rfl⟩
        have raised : fill snapshot declaration.defaults
            (declaration.overridden snapshot inherited) = .error e :=
          fill_error_iff.mpr ⟨_, _, _, _, _, listed, reached, vacant, failed⟩
        simp only [extend, applied, raised, Except.map]

end Declaration

namespace Compositor

def parent? (compositor : Compositor) (declaration : Declaration) : Option Declaration :=
  declaration.parent.bind compositor.get?

/-- The second declaration is the first one or one of its ancestors. -/
def Lineal (compositor : Compositor) : Declaration → Declaration → Prop :=
  Relation.ReflTransGen fun child parent => compositor.parent? child = some parent

/-- A run of the recursion through parents that has come to an end, with its outcome. -/
inductive Composes (compositor : Compositor) (snapshot : Snapshot) :
    Declaration → Except Error (Dict String) → Prop
  | root (orphan : compositor.parent? declaration = none) :
      Composes compositor snapshot declaration (declaration.extend snapshot .empty)
  | child (inherits : compositor.parent? declaration = some parent)
      (above : Composes compositor snapshot parent (.ok inherited)) :
      Composes compositor snapshot declaration (declaration.extend snapshot inherited)
  | refused (inherits : compositor.parent? declaration = some parent)
      (above : Composes compositor snapshot parent (.error e)) :
      Composes compositor snapshot declaration (.error e)

/-- The variables that a declaration starts from: those of its parent, if it has one. -/
def Inherits (compositor : Compositor) (snapshot : Snapshot) (declaration : Declaration)
    (inherited : Dict String) : Prop :=
  (compositor.parent? declaration = none ∧ inherited = .empty) ∨
    ∃ parent, compositor.parent? declaration = some parent ∧
      Composes compositor snapshot parent (.ok inherited)

variable {compositor : Compositor} {declaration : Declaration} {declarations : List Declaration}
  {snapshot : Snapshot} {outcome other : Except Error (Dict String)} {name : String} {e : Error}

theorem Composes.unique (run : Composes compositor snapshot declaration outcome)
    (again : Composes compositor snapshot declaration other) : outcome = other := by
  induction run generalizing other with
  | root orphan =>
      cases again with
      | root _ => rfl
      | child inherits _ | refused inherits _ => cases orphan.symm.trans inherits
  | child inherits _ ih =>
      cases again with
      | root orphan => cases orphan.symm.trans inherits
      | child same above =>
          cases inherits.symm.trans same
          cases ih above
          rfl
      | refused same above =>
          cases inherits.symm.trans same
          cases ih above
  | refused inherits _ ih =>
      cases again with
      | root orphan => cases orphan.symm.trans inherits
      | child same above =>
          cases inherits.symm.trans same
          cases ih above
      | refused same above =>
          cases inherits.symm.trans same
          exact ih above

/-- The recursion does not come to an end where a declaration inherits from itself. -/
theorem not_composes_of_parent_self (own : compositor.parent? declaration = some declaration) :
    ¬ Composes compositor snapshot declaration outcome := by
  intro run
  induction run with
  | root orphan => cases orphan.symm.trans own
  | child inherits _ ih | refused inherits _ ih =>
      cases inherits.symm.trans own
      exact ih own

theorem composes_error_iff : Composes compositor snapshot declaration (.error e) ↔
    ∃ elder inherited, compositor.Lineal declaration elder ∧
      compositor.Inherits snapshot elder inherited ∧ elder.Fails snapshot inherited e := by
  constructor
  · intro run
    generalize failed : (Except.error e : Except Error (Dict String)) = outcome at run
    induction run with
    | root orphan =>
        exact ⟨_, _, .refl, .inl ⟨orphan, rfl⟩, Declaration.extend_error_iff.mp failed.symm⟩
    | child inherits above _ =>
        exact ⟨_, _, .refl, .inr ⟨_, inherits, above⟩,
          Declaration.extend_error_iff.mp failed.symm⟩
    | refused inherits _ ih =>
        obtain ⟨elder, start, lineal, above, fails⟩ := ih failed
        exact ⟨elder, start, .head inherits lineal, above, fails⟩
  · rintro ⟨elder, start, lineal, inherits, fails⟩
    have raised := Declaration.extend_error_iff.mpr fails
    induction lineal using Relation.ReflTransGen.head_induction_on with
    | refl =>
        rw [← raised]
        rcases inherits with ⟨orphan, rfl⟩ | ⟨parent, inherits, above⟩
        · exact .root orphan
        · exact .child inherits above
    | head inherits _ ih => exact .refused inherits ih

namespace Orderly

/-- Induction over declarations, parents first. -/
theorem forall_declarations {holds : Declaration → Prop} (orderly : Orderly declarations)
    (step : ∀ declaration ∈ declarations, (∀ parent ∈ declarations,
      declaration.parent = some parent.name → holds parent) → holds declaration) :
    ∀ declaration ∈ declarations, holds declaration := by
  induction declarations with
  | nil => exact List.forall_mem_nil _
  | cons latest earlier ih =>
      obtain ⟨fresh, declared, orderly⟩ := orderly
      have before : ∀ declaration ∈ earlier, holds declaration := by
        refine ih orderly fun declaration member parents => ?_
        refine step declaration (List.mem_cons_of_mem _ member) fun parent listed inherits => ?_
        rcases List.mem_cons.mp listed with rfl | listed
        · exact absurd (orderly.parent_declared member inherits) fresh
        · exact parents parent listed inherits
      refine List.forall_mem_cons.mpr ⟨?_, before⟩
      refine step latest List.mem_cons_self fun parent listed inherits => ?_
      rcases List.mem_cons.mp listed with rfl | listed
      · exact absurd (declared _ inherits) fresh
      · exact before parent listed

theorem nodup_names (orderly : Orderly declarations) : (declarations.map (·.name)).Nodup := by
  induction declarations with
  | nil => exact List.nodup_nil
  | cons latest earlier ih => exact List.nodup_cons.mpr ⟨orderly.1, ih orderly.2.2⟩

end Orderly

theorem get?_of_mem (orderly : Orderly compositor.declarations.reverse)
    (member : declaration ∈ compositor.declarations) :
    compositor.get? declaration.name = some declaration := by
  have declared : declaration.name ∈ compositor.names := List.mem_map_of_mem member
  obtain ⟨found, isFound⟩ := Option.isSome_iff_exists.mp (isSome_get?.mpr declared)
  have distinct : (compositor.declarations.map (·.name)).Nodup := by
    simpa using orderly.nodup_names
  have same : found.name = declaration.name := by simpa using List.find?_some isFound
  cases List.inj_on_of_nodup_map distinct (List.mem_of_find?_eq_some isFound) member same
  exact isFound

theorem composes_lineage (orderly : Orderly compositor.declarations.reverse) :
    ∀ declaration ∈ compositor.declarations.reverse, Composes compositor snapshot declaration
      (extendAll snapshot (lineage compositor.declarations.reverse declaration.name) .empty) := by
  refine orderly.forall_declarations fun declaration member above => ?_
  rw [orderly.lineage_eq member, extendAll_concat]
  cases inherits : declaration.parent with
  | none => exact .root (by rw [parent?, inherits, Option.bind_none])
  | some name =>
      obtain ⟨parent, listed, rfl⟩ := List.mem_map.mp (orderly.parent_declared member inherits)
      have parent? : compositor.parent? declaration = some parent := by
        rw [Compositor.parent?, inherits, Option.bind_some,
          get?_of_mem orderly (List.mem_reverse.mp listed)]
      have run := above parent listed inherits
      rw [Option.map_some, Option.getD_some]
      cases composed : extendAll snapshot
        (lineage compositor.declarations.reverse parent.name) .empty with
      | error e => exact .refused parent? (composed ▸ run)
      | ok vars => exact .child parent? (composed ▸ run)

theorem compose_undeclared (undeclared : name ∉ compositor.names) :
    compositor.compose snapshot name =
      .error (.invalidInput ("Unknown environment dictionary '" ++ name ++ "'")) := by
  have absent : compositor.get? name = none := by
    rw [← Option.not_isSome_iff_eq_none, isSome_get?]
    exact undeclared
  simp only [compose, absent]

/-- Accepted declarations compose by recursion through their parents: it ends for every declared
name, what it makes has valid names and no empty values, and it fails on nothing but an invalid
name of an explicit variable and a computed rule, there or in an ancestor. -/
theorem compose_total {schema : Schema} {declarations : List Declaration} {compositor : Compositor}
    (built : build schema declarations = .ok compositor) (snapshot : Snapshot) (name : String) :
    (∀ declaration ∈ declarations, declaration.name = name →
      ∃ outcome, Composes compositor snapshot declaration outcome ∧
        compositor.compose snapshot name = outcome.map (StackEnvironment.mk name)) ∧
    (∀ env, compositor.compose snapshot name = .ok env →
      ∀ key value, env.vars.get? key = some value → isEnvKey key = true ∧ value ≠ "") ∧
    ∀ e, compositor.compose snapshot name = .error e ↔
      (name ∉ declarations.map (·.name) ∧
        e = .invalidInput ("Unknown environment dictionary '" ++ name ++ "'")) ∨
      ∃ declaration ∈ declarations, declaration.name = name ∧
        ∃ elder inherited, Lineal compositor declaration elder ∧
          Inherits compositor snapshot elder inherited ∧ elder.Fails snapshot inherited e := by
  obtain ⟨rfl, valid⟩ := build_ok built
  have orderly := orderly_of_build built
  have ends : ∀ declaration ∈ compositor.declarations, declaration.name = name →
      ∃ outcome, Composes compositor snapshot declaration outcome ∧
        compositor.compose snapshot name = outcome.map (StackEnvironment.mk name) := by
    rintro declaration member rfl
    refine ⟨_, composes_lineage orderly declaration (List.mem_reverse.mpr member), ?_⟩
    simp only [compose, get?_of_mem orderly member]
  refine ⟨ends, fun env composed => compose_proper valid composed, fun e => ⟨fun failed => ?_, ?_⟩⟩
  · by_cases declared : name ∈ compositor.names
    · obtain ⟨declaration, member, named⟩ := List.mem_map.mp declared
      obtain ⟨outcome, run, same⟩ := ends declaration member named
      rw [failed] at same
      cases outcome with
      | ok vars => cases same
      | error raised =>
          cases same
          exact .inr ⟨declaration, member, named, composes_error_iff.mp run⟩
    · rw [compose_undeclared declared] at failed
      cases failed
      exact .inl ⟨declared, rfl⟩
  · rintro (⟨undeclared, rfl⟩ | ⟨declaration, member, named, fails⟩)
    · exact compose_undeclared undeclared
    · obtain ⟨outcome, run, same⟩ := ends declaration member named
      cases run.unique (composes_error_iff.mpr fails)
      exact same

/-- Inherits, takes explicit variables, and has a rule that fails where no host is known. -/
def guardedStack : Declaration where
  name := "guarded"
  parent := some "zone"
  overrides := some "guarded_env"
  defaults := [("LINK", .computed fun snapshot vars =>
    match snapshot.text? "host" with
    | some host => .ok ((vars.get? "PORT").map fun port => host ++ ":" ++ port)
    | none => .error (.other "no host"))]

def leafStack : Declaration where
  name := "leaf"
  parent := some "guarded"
  overrides := none
  defaults := []

def guardedSchema : Schema :=
  let settings : List Setting := [.declare "host" .text, .declare "guarded_env" .textMap]
  ⟨settings, settings⟩

def guardedSnapshot (values : List (String × Value)) : Snapshot where
  values := .ofList values
  sensitive := .empty

/-- The grandchild ends with what its parent makes of the snapshot, and fails where that fails. -/
theorem leafStack_total :
    ∃ compositor, build guardedSchema [zoneStack, guardedStack, leafStack] = .ok compositor ∧
      (∃ vars, Composes compositor (guardedSnapshot [("host", .text "example.org")]) leafStack
          (.ok vars) ∧ vars.get? "LINK" = some "example.org:80") ∧
      compositor.compose (guardedSnapshot []) "leaf" = .error (.other "no host") ∧
      compositor.compose (guardedSnapshot
          [("guarded_env", .textMap (.ofList [("A", "1"), ("not-a-name", "2")]))]) "leaf" =
        .error (invalidKey "guarded_env" "not-a-name") ∧
      compositor.compose (guardedSnapshot []) "root" =
        .error (.invalidInput "Unknown environment dictionary 'root'") := by
  have built : build guardedSchema [zoneStack, guardedStack, leafStack] =
      .ok ⟨[zoneStack, guardedStack, leafStack]⟩ := rfl
  have total := compose_total built
  have lineal : Lineal ⟨[zoneStack, guardedStack, leafStack]⟩ leafStack guardedStack :=
    .single rfl
  have zone (snapshot : Snapshot) :
      Composes ⟨[zoneStack, guardedStack, leafStack]⟩ snapshot zoneStack
        (.ok (.ofList [("HOST", "localhost"), ("PORT", "80"), ("MODE", "test")])) := .root rfl
  have inherits (snapshot : Snapshot) : Inherits ⟨[zoneStack, guardedStack, leafStack]⟩ snapshot
      guardedStack (.ofList [("HOST", "localhost"), ("PORT", "80"), ("MODE", "test")]) :=
    .inr ⟨zoneStack, rfl, zone snapshot⟩
  refine ⟨_, built, ?_, ?_, ?_, ?_⟩
  · obtain ⟨outcome, run, same⟩ := (total (guardedSnapshot [("host", .text "example.org")])
      "leaf").1 leafStack (by simp) rfl
    have found : ((compose ⟨[zoneStack, guardedStack, leafStack]⟩ (guardedSnapshot
        [("host", .text "example.org")]) "leaf").toOption.bind (·.vars.get? "LINK")) =
          some "example.org:80" := by decide +kernel
    rw [same] at found
    cases outcome with
    | error e => cases found
    | ok vars => exact ⟨vars, run, found⟩
  · have first : guardedStack.defaults = [] ++ guardedStack.defaults := rfl
    exact ((total _ "leaf").2.2 _).mpr (.inr ⟨leafStack, by simp, rfl, guardedStack, _, lineal,
      inherits _, .rule .empty first rfl rfl rfl⟩)
  · refine ((total _ "leaf").2.2 _).mpr (.inr ⟨leafStack, by simp, rfl, guardedStack, _, lineal,
      inherits _, .name rfl ⟨?_, ?_, ?_⟩⟩)
    all_goals decide
  · exact ((total _ "root").2.2 _).mpr (.inl ⟨by decide, rfl⟩)

end Compositor

end HubKeeper.Stack
