import HubKeeper.Proofs.Stack.Composing

/-!
Where the variables of an environment come from.

An explicit variable with a value is in the environment as it is, and a variable of the parent's
environment is inherited unless it is explicit too.  Every other key is left to the default rules:
the first one with a result that is not empty decides, where each rule reads what the rules before
it left.
-/

namespace HubKeeper.Stack

variable {snapshot : Snapshot} {vars start inherited next result : Dict String}
  {key other value : String} {rule : DefaultRule}

namespace Declaration

variable {declaration : Declaration} {rules before left right : List (String × DefaultRule)}
  {outcome : Option String}

/-- What a rule comes to at its turn, on the variables that the rules before it left. -/
def AtTurn (snapshot : Snapshot) (start : Dict String) (before : List (String × DefaultRule))
    (rule : DefaultRule) (outcome : Option String) : Prop :=
  ∃ vars, fill snapshot before start = .ok vars ∧ ruleValue snapshot vars rule = .ok outcome

/-- The first result of the rules for a key that is not empty. -/
def FirstResult (snapshot : Snapshot) (start : Dict String) (rules : List (String × DefaultRule))
    (key value : String) : Prop :=
  value ≠ "" ∧ ∃ before rule after, rules = before ++ (key, rule) :: after ∧
    AtTurn snapshot start before rule (some value) ∧
    ∀ earlier passed later, before = earlier ++ (key, passed) :: later →
      AtTurn snapshot start earlier passed none ∨ AtTurn snapshot start earlier passed (some "")

theorem isFilled_iff :
    isFilled vars key = true ↔ ∃ value, vars.get? key = some value ∧ value ≠ "" := by
  cases found : vars.get? key <;> simp [isFilled, found]

theorem fill_append :
    fill snapshot (left ++ right) vars = (fill snapshot left vars).bind (fill snapshot right) := by
  induction left generalizing vars with
  | nil => rfl
  | cons entry rest ih =>
      obtain ⟨key, rule⟩ := entry
      simp only [List.cons_append, fill]
      split
      · exact ih
      · split
        · rfl
        · exact ih
        · exact ih

theorem fill_append_ok : fill snapshot (left ++ right) vars = .ok result ↔
    ∃ next, fill snapshot left vars = .ok next ∧ fill snapshot right next = .ok result := by
  rw [fill_append]
  cases fill snapshot left vars <;> simp [Except.bind]

theorem fill_cons : fill snapshot ((key, rule) :: rules) vars = .ok result ↔
    ∃ next, fill snapshot [(key, rule)] vars = .ok next ∧ fill snapshot rules next = .ok result :=
  @fill_append_ok snapshot vars result [(key, rule)] rules

theorem fill_singleton : fill snapshot [(key, rule)] vars = .ok next ↔
    if isFilled vars key then next = vars
    else ∃ outcome, ruleValue snapshot vars rule = .ok outcome ∧
      next = outcome.elim vars (vars.insert key) := by
  simp only [fill]
  split
  · rw [Except.ok.injEq, eq_comm]
  · cases ruled : ruleValue snapshot vars rule with
    | error e => simp
    | ok outcome => cases outcome <;> simp [eq_comm]

theorem get?_fill_of_ne (filled : fill snapshot [(other, rule)] vars = .ok next)
    (different : other ≠ key) : next.get? key = vars.get? key := by
  rw [fill_singleton] at filled
  split at filled
  · rw [filled]
  · obtain ⟨outcome, _, rfl⟩ := filled
    cases outcome with
    | none => rfl
    | some value => exact Dict.get?_insert_of_ne different.symm

theorem get?_fill_of_isFilled (filled : fill snapshot rules vars = .ok result)
    (already : isFilled vars key = true) : result.get? key = vars.get? key := by
  induction rules generalizing vars with
  | nil =>
      cases filled
      rfl
  | cons entry rest ih =>
      obtain ⟨other, rule⟩ := entry
      obtain ⟨next, here, further⟩ := fill_cons.mp filled
      have kept : next.get? key = vars.get? key := by
        by_cases same : other = key
        · subst same
          rw [fill_singleton, if_pos already] at here
          rw [here]
        · exact get?_fill_of_ne here same
      rw [← kept]
      exact ih further (by rwa [isFilled, kept])

theorem atTurn_nil : AtTurn snapshot start [] rule outcome ↔
    ruleValue snapshot start rule = .ok outcome := by
  simp [AtTurn, fill]

theorem atTurn_cons {passed : DefaultRule}
    (filled : fill snapshot [(other, passed)] start = .ok next) :
    AtTurn snapshot start ((other, passed) :: before) rule outcome ↔
      AtTurn snapshot next before rule outcome := by
  simp [AtTurn, fill_cons, filled]

theorem firstResult_cons (filled : fill snapshot [(other, rule)] start = .ok next)
    (passed : other = key →
      AtTurn snapshot start [] rule none ∨ AtTurn snapshot start [] rule (some "")) :
    FirstResult snapshot start ((other, rule) :: rules) key value ↔
      FirstResult snapshot next rules key value := by
  constructor
  · intro first
    obtain ⟨notEmpty, before, found, after, split, turn, earliest⟩ := first
    cases before with
    | nil =>
        cases split
        rw [atTurn_nil] at turn
        -- The passed rule cannot have been the first with a result.
        rcases passed rfl with nothing | empty
        · rw [atTurn_nil, turn] at nothing
          cases nothing
        · rw [atTurn_nil, turn] at empty
          cases empty
          exact absurd rfl notEmpty
    | cons entry before =>
        obtain ⟨rfl, rfl⟩ := List.cons.inj split
        refine ⟨notEmpty, before, found, after, rfl, (atTurn_cons filled).mp turn, ?_⟩
        rintro earlier passed later rfl
        exact (earliest ((other, rule) :: earlier) passed later rfl).imp (atTurn_cons filled).mp
          (atTurn_cons filled).mp
  · intro first
    obtain ⟨notEmpty, before, found, after, rfl, turn, earliest⟩ := first
    refine ⟨notEmpty, (other, rule) :: before, found, after, rfl, (atTurn_cons filled).mpr turn, ?_⟩
    intro earlier skipped later split
    cases earlier with
    | nil =>
        cases split
        exact passed rfl
    | cons entry earlier =>
        obtain ⟨rfl, rfl⟩ := List.cons.inj split
        exact (earliest earlier skipped later rfl).imp (atTurn_cons filled).mpr
          (atTurn_cons filled).mpr

theorem firstResult_cons_self {found : String}
    (ruled : ruleValue snapshot start rule = .ok (some found)) (notEmpty : found ≠ "") :
    FirstResult snapshot start ((key, rule) :: rules) key value ↔ value = found := by
  constructor
  · intro first
    obtain ⟨_, before, chosen, after, split, turn, earliest⟩ := first
    cases before with
    | nil =>
        cases split
        rw [atTurn_nil, ruled] at turn
        cases turn
        rfl
    | cons entry before =>
        obtain ⟨rfl, rfl⟩ := List.cons.inj split
        have turn := earliest [] rule before rfl
        simp only [atTurn_nil, ruled] at turn
        simp [notEmpty] at turn
  · rintro rfl
    refine ⟨notEmpty, [], rule, rules, rfl, atTurn_nil.mpr ruled, ?_⟩
    intro earlier passed later split
    cases earlier <;> cases split

/-- A key without a value gets the first result of its rules. -/
theorem get?_fill_of_not_isFilled (filled : fill snapshot rules vars = .ok result)
    (vacant : ¬ isFilled vars key = true) :
    result.get? key = some value ∧ value ≠ "" ↔ FirstResult snapshot vars rules key value := by
  -- The key stays vacant up to the first result, and keeps it from then on.
  induction rules generalizing vars with
  | nil =>
      cases filled
      refine iff_of_false (fun found => vacant (isFilled_iff.mpr ⟨value, found⟩)) ?_
      intro first
      obtain ⟨_, before, _, _, split, _⟩ := first
      cases before <;> cases split
  | cons entry rest ih =>
      obtain ⟨other, rule⟩ := entry
      obtain ⟨next, here, further⟩ := fill_cons.mp filled
      by_cases same : other = key
      · subst same
        have turn := here
        rw [fill_singleton, if_neg vacant] at turn
        obtain ⟨outcome, ruled, rfl⟩ := turn
        cases outcome with
        | none =>
            rw [firstResult_cons here fun _ => .inl (atTurn_nil.mpr ruled)]
            exact ih further vacant
        | some found =>
            have put : (vars.insert other found).get? other = some found := Dict.get?_insert_self
            by_cases empty : found = ""
            · subst empty
              rw [firstResult_cons here fun _ => .inr (atTurn_nil.mpr ruled)]
              exact ih further (by simp [isFilled, put])
            · have kept := get?_fill_of_isFilled further (isFilled_iff.mpr ⟨found, put, empty⟩)
              rw [firstResult_cons_self ruled empty, kept.trans put, Option.some.injEq, eq_comm]
              exact ⟨And.left, fun same => ⟨same, same ▸ empty⟩⟩
      · rw [firstResult_cons here fun equal => absurd equal same]
        exact ih further (by rwa [isFilled, get?_fill_of_ne here same])

theorem get?_overridden :
    (declaration.overridden snapshot inherited).get? key =
      ((declaration.explicit snapshot).get? key).or (inherited.get? key) :=
  Dict.get?_foldl_entries (declaration.explicit snapshot)

theorem extend_get? (proper : Proper inherited)
    (extended : declaration.extend snapshot inherited = .ok vars) :
    (∀ key value, (declaration.explicit snapshot).get? key = some value → value ≠ "" →
      vars.get? key = some value) ∧
    (∀ key value, (declaration.explicit snapshot).get? key = none →
      inherited.get? key = some value → vars.get? key = some value) ∧
    ∀ key, (declaration.explicit snapshot).get? key = some "" ∨
      (declaration.explicit snapshot).get? key = none ∧ inherited.get? key = none →
        ∀ value, vars.get? key = some value ↔ FirstResult snapshot
          (declaration.overridden snapshot inherited) declaration.defaults key value := by
  obtain ⟨_, full, filled, kept⟩ := extend_ok extended
  have keeps {key value : String}
      (there : (declaration.overridden snapshot inherited).get? key = some value)
      (notEmpty : value ≠ "") : vars.get? key = some value := by
    have already : isFilled (declaration.overridden snapshot inherited) key = true :=
      isFilled_iff.mpr ⟨value, there, notEmpty⟩
    exact (kept key value).mpr ⟨(get?_fill_of_isFilled filled already).trans there, notEmpty⟩
  refine ⟨fun key value given notEmpty => ?_, fun key value absent present => ?_,
    fun key left value => ?_⟩
  · exact keeps (by rw [get?_overridden, given, Option.some_or]) notEmpty
  · exact keeps (by rw [get?_overridden, absent, Option.none_or, present])
      (proper key value present).2
  · rw [kept]
    refine get?_fill_of_not_isFilled filled ?_
    rcases left with empty | ⟨absent, new⟩
    · simp [isFilled, get?_overridden, empty]
    · simp [isFilled, get?_overridden, absent, new]

end Declaration

namespace Compositor

variable {declaration latest : Declaration} {declarations earlier : List Declaration}
  {schema : Schema} {compositor : Compositor} {name parent : String}

/-- With the latest declaration first: names are distinct, and parents are declared earlier. -/
def Orderly : List Declaration → Prop
  | [] => True
  | latest :: earlier =>
      latest.name ∉ earlier.map (·.name) ∧
        (∀ parent, latest.parent = some parent → parent ∈ earlier.map (·.name)) ∧ Orderly earlier

theorem orderly_of_firstFault
    (faultless : firstFault schema (earlier.map (·.name)) declarations = none)
    (orderly : Orderly earlier) : Orderly (declarations.reverse ++ earlier) := by
  -- The names seen so far are those of the declarations before.
  induction declarations generalizing earlier with
  | nil => exact orderly
  | cons declaration rest ih =>
      simp only [firstFault, fault, parentFault, Option.or_eq_none_iff] at faultless
      obtain ⟨⟨parents, _, _, names⟩, later⟩ := faultless
      have fresh : declaration.name ∉ earlier.map (·.name) := by
        simpa using names
      have declared : ∀ parent, declaration.parent = some parent →
          parent ∈ earlier.map (·.name) := by
        intro parent inherits
        simpa [inherits] using parents
      rw [List.reverse_cons, List.append_assoc]
      exact @ih (declaration :: earlier) later ⟨fresh, declared, orderly⟩

theorem orderly_of_build (built : build schema declarations = .ok compositor) :
    Orderly declarations.reverse := by
  simp only [build] at built
  split at built
  · cases built
  · rename_i faultless
    simpa using @orderly_of_firstFault declarations [] schema faultless trivial

theorem lineage_cons_of_ne (different : latest.name ≠ name) :
    lineage (latest :: earlier) name = lineage earlier name := by
  rw [lineage, if_neg different]

namespace Orderly

theorem parent_declared (orderly : Orderly declarations) (member : declaration ∈ declarations)
    (inherits : declaration.parent = some parent) : parent ∈ declarations.map (·.name) := by
  induction declarations with
  | nil => cases member
  | cons latest earlier ih =>
      obtain ⟨_, declared, orderly⟩ := orderly
      rw [List.map_cons]
      rcases List.mem_cons.mp member with rfl | member
      · exact List.mem_cons_of_mem _ (declared parent inherits)
      · exact List.mem_cons_of_mem _ (ih orderly member)

/-- The lineage of a declaration is that of its parent, and then the declaration. -/
theorem lineage_eq (orderly : Orderly declarations) (member : declaration ∈ declarations) :
    lineage declarations declaration.name =
      (declaration.parent.map (lineage declarations)).getD [] ++ [declaration] := by
  induction declarations with
  | nil => cases member
  | cons latest earlier ih =>
      obtain ⟨fresh, declared, orderly⟩ := orderly
      have elder {name : String} (listed : name ∈ earlier.map (·.name)) :
          lineage (latest :: earlier) name = lineage earlier name :=
        lineage_cons_of_ne fun same => fresh (same ▸ listed)
      rcases List.mem_cons.mp member with rfl | member
      · rw [lineage, if_pos rfl]
        cases inherits : declaration.parent with
        | none => rfl
        | some parent => simp [elder (declared parent inherits)]
      · rw [elder (List.mem_map_of_mem member), ih orderly member]
        cases inherits : declaration.parent with
        | none => rfl
        | some parent => simp [elder (orderly.parent_declared member inherits)]

end Orderly

theorem extendAll_concat :
    extendAll snapshot (declarations ++ [declaration]) vars =
      (extendAll snapshot declarations vars).bind (declaration.extend snapshot) := by
  induction declarations generalizing vars with
  | nil =>
      cases extended : declaration.extend snapshot vars <;>
        simp [extendAll, extended, Except.bind]
  | cons first rest ih =>
      simp only [List.cons_append, extendAll]
      split
      · rfl
      · exact ih

theorem extendAll_concat_ok :
    extendAll snapshot (declarations ++ [declaration]) vars = .ok result ↔
      ∃ next, extendAll snapshot declarations vars = .ok next ∧
        declaration.extend snapshot next = .ok result := by
  rw [extendAll_concat]
  cases extendAll snapshot declarations vars <;> simp [Except.bind]

theorem compose_eq_ok (declared : name ∈ compositor.names)
    (extended : extendAll snapshot (lineage compositor.declarations.reverse name) .empty =
      .ok vars) : compositor.compose snapshot name = .ok ⟨name, vars⟩ := by
  obtain ⟨declaration, found⟩ := Option.isSome_iff_exists.mp (isSome_get?.mpr declared)
  simp only [compose, found, extended, Except.map]

/-- An environment is its declaration on top of the environment of the parent, or of nothing. -/
theorem exists_inherited {env : StackEnvironment}
    (built : build schema declarations = .ok compositor) (member : declaration ∈ declarations)
    (composed : compositor.compose snapshot declaration.name = .ok env) :
    ∃ inherited, Proper inherited ∧ (declaration.parent = none → inherited = .empty) ∧
      (∀ parent, declaration.parent = some parent →
        compositor.compose snapshot parent = .ok ⟨parent, inherited⟩) ∧
      declaration.extend snapshot inherited = .ok env.vars := by
  obtain ⟨rfl, valid⟩ := build_ok built
  have orderly := orderly_of_build built
  have listed : declaration ∈ compositor.declarations.reverse := List.mem_reverse.mpr member
  have extended := (compose_ok composed).2
  rw [orderly.lineage_eq listed, extendAll_concat_ok] at extended
  obtain ⟨inherited, elders, self⟩ := extended
  cases inherits : declaration.parent with
  | none =>
      rw [inherits] at elders
      cases elders
      refine ⟨_, .empty, fun _ => rfl, ?_, self⟩
      intro parent present
      cases present
  | some parent =>
      rw [inherits] at elders
      have declared : parent ∈ compositor.names := by
        simpa [names] using orderly.parent_declared listed inherits
      have above := compose_eq_ok declared elders
      refine ⟨inherited, compose_proper valid above, ?_, ?_, self⟩
      · intro orphan
        cases orphan
      · intro other same
        cases same
        exact above

/-- Where each variable comes from: an explicit one with a value is taken as it is, the others of
the parent are inherited, and any other key has the first result of its default rules that is not
empty, or no value. -/
theorem compose_inherits (schema : Schema) (declarations : List Declaration)
    (compositor : Compositor) (declaration : Declaration) (snapshot : Snapshot)
    (env : StackEnvironment) (built : build schema declarations = .ok compositor)
    (member : declaration ∈ declarations)
    (composed : compositor.compose snapshot declaration.name = .ok env) :
    ∃ inherited start : Dict String, (declaration.parent = none → inherited = .empty) ∧
      (∀ parent, declaration.parent = some parent →
        compositor.compose snapshot parent = .ok ⟨parent, inherited⟩) ∧
      (∀ key, start.get? key =
        ((declaration.explicit snapshot).get? key).or (inherited.get? key)) ∧
      (∀ key value, (declaration.explicit snapshot).get? key = some value → value ≠ "" →
        env.vars.get? key = some value) ∧
      (∀ key value, (declaration.explicit snapshot).get? key = none →
        inherited.get? key = some value → env.vars.get? key = some value) ∧
      ∀ key, (declaration.explicit snapshot).get? key = some "" ∨
        (declaration.explicit snapshot).get? key = none ∧ inherited.get? key = none →
          ∀ value, env.vars.get? key = some value ↔
            Declaration.FirstResult snapshot start declaration.defaults key value := by
  obtain ⟨inherited, proper, orphan, above, extended⟩ := exists_inherited built member composed
  obtain ⟨explicit, kept, filled⟩ := declaration.extend_get? proper extended
  exact ⟨inherited, declaration.overridden snapshot inherited, orphan, above,
    fun _ => Declaration.get?_overridden, explicit, kept, filled⟩

def constantRule (value : String) : DefaultRule :=
  .computed fun _ _ => .ok (some value)

def zoneStack : Declaration where
  name := "zone"
  parent := none
  overrides := none
  defaults := [("HOST", constantRule "localhost"), ("PORT", constantRule "80"),
    ("MODE", constantRule "test")]

/-- Two rules for one key, the first one without a result, and a rule that reads the key. -/
def siteStack : Declaration where
  name := "site"
  parent := some "zone"
  overrides := some "site_env"
  defaults := [("HOST", constantRule ""), ("HOST", .setting "host"),
    ("LINK", .computed fun _ vars => .ok ((vars.get? "HOST").map ("http://" ++ ·)))]

def siteSchema : Schema :=
  let settings : List Setting := [.declare "host" .text, .declare "site_env" .textMap]
  ⟨settings, settings⟩

/-- One key is emptied, and another one is explicit. -/
def siteSnapshot : Snapshot where
  values := .ofList [("host", .text "example.org"),
    ("site_env", .textMap (.ofList [("HOST", ""), ("PORT", "443")]))]
  sensitive := .empty

theorem siteStack_inherits :
    ∃ compositor env, build siteSchema [zoneStack, siteStack] = .ok compositor ∧
      compositor.compose siteSnapshot "site" = .ok env ∧ env.vars.get? "PORT" = some "443" ∧
      env.vars.get? "MODE" = some "test" ∧ env.vars.get? "HOST" = some "example.org" ∧
      env.vars.get? "LINK" = some "http://example.org" := by
  have built : build siteSchema [zoneStack, siteStack] = .ok ⟨[zoneStack, siteStack]⟩ := rfl
  obtain ⟨env, composed⟩ : ∃ env,
      Compositor.compose ⟨[zoneStack, siteStack]⟩ siteSnapshot "site" = .ok env := ⟨_, rfl⟩
  obtain ⟨inherited, start, _, above, starts, explicit, kept, filled⟩ := compose_inherits siteSchema
    [zoneStack, siteStack] _ siteStack siteSnapshot env built (by simp) composed
  cases above "zone" rfl
  cases (Dict.ext_get? fun key => (starts key).trans Declaration.get?_overridden.symm :
    start = siteStack.overridden siteSnapshot _)
  refine ⟨_, env, built, composed, explicit _ _ rfl (by decide), kept _ _ rfl rfl,
    (filled "HOST" (.inl rfl) _).mpr ?_, (filled "LINK" (.inr ⟨rfl, rfl⟩) _).mpr ?_⟩
  · rw [siteStack, Declaration.firstResult_cons rfl fun _ => .inr (Declaration.atTurn_nil.mpr rfl)]
    exact (Declaration.firstResult_cons_self rfl (by decide)).mpr rfl
  · rw [siteStack, Declaration.firstResult_cons rfl (absurd · (by decide)),
      Declaration.firstResult_cons rfl (absurd · (by decide))]
    exact (Declaration.firstResult_cons_self rfl (by decide)).mpr rfl

end Compositor

end HubKeeper.Stack
