import HubKeeper.Proofs.Collections.Lookup
import HubKeeper.Stack.Composition

/-!
What composition makes of a snapshot.

An environment holds variables with a valid name and a value that is not empty.  Composing
one succeeds unless an explicit variable has an invalid name or a computed rule fails.
-/

namespace HubKeeper.Stack

variable {snapshot : Snapshot} {vars inherited result : Dict String} {key value : String}

/-- Every key is the name of an environment variable. -/
def Named (vars : Dict String) : Prop :=
  ∀ key value, vars.get? key = some value → isEnvKey key = true

namespace Named

theorem empty : Named .empty :=
  fun _ _ present => nomatch present

theorem insert (named : Named vars) (valid : isEnvKey key = true) :
    Named (vars.insert key value) := by
  intro other found present
  rw [Dict.get?_insert] at present
  split at present
  · rename_i same
    exact same ▸ valid
  · exact named other found present

theorem foldl_insert {entries : List (String × String)} (named : Named vars)
    (valid : ∀ entry ∈ entries, isEnvKey entry.1 = true) :
    Named (entries.foldl (fun vars entry => vars.insert entry.1 entry.2) vars) := by
  induction entries generalizing vars with
  | nil => exact named
  | cons entry rest ih =>
      exact ih (named.insert (valid entry List.mem_cons_self)) fun entry member =>
        valid entry (List.mem_cons_of_mem _ member)

end Named

/-- What an environment may hold: variables with a valid name and a value. -/
def Proper (vars : Dict String) : Prop :=
  ∀ key value, vars.get? key = some value → isEnvKey key = true ∧ value ≠ ""

theorem Proper.empty : Proper .empty :=
  fun _ _ present => nomatch present

theorem Proper.named (proper : Proper vars) : Named vars :=
  fun key value present => (proper key value present).1

/-- A rule that does not fail on the snapshot, whatever the variables so far. -/
def DefaultRule.Answers (rule : DefaultRule) (snapshot : Snapshot) : Prop :=
  ∀ vars, ∃ value, Declaration.ruleValue snapshot vars rule = .ok value

theorem DefaultRule.answers_setting (name : String) : (setting name).Answers snapshot :=
  fun _ => ⟨_, rfl⟩

namespace Declaration

variable {declaration : Declaration} {rules : List (String × DefaultRule)}

/-- The variables that the override setting gives. -/
def explicit (declaration : Declaration) (snapshot : Snapshot) : Dict String :=
  (declaration.overrides.bind snapshot.map?).getD .empty

/-- Other variables with the explicit ones on top. -/
def overridden (declaration : Declaration) (snapshot : Snapshot) (inherited : Dict String) :
    Dict String :=
  (declaration.explicit snapshot).entries.foldl
    (fun vars entry => vars.insert entry.1 entry.2) inherited

theorem withOverrides_ok_iff :
    declaration.withOverrides snapshot inherited = .ok vars ↔
      Named (declaration.explicit snapshot) ∧ vars = declaration.overridden snapshot inherited := by
  simp only [overridden]
  cases listed : declaration.overrides with
  | none =>
      have nothing : declaration.explicit snapshot = .empty := by simp [explicit, listed]
      rw [nothing]
      simp [withOverrides, listed, Named.empty, show (Dict.empty : Dict String).entries = [] from rfl,
        eq_comm]
  | some setting =>
      have given : declaration.explicit snapshot = (snapshot.map? setting).getD .empty := by
        simp [explicit, listed]
      rw [given]
      simp only [withOverrides, listed]
      cases invalid : ((snapshot.map? setting).getD .empty).entries.find?
          fun entry => !isEnvKey entry.1 with
      | some entry =>
          have refused : isEnvKey entry.1 = false := by
            simpa using List.find?_some invalid
          have present := lookupEntry_of_mem ((snapshot.map? setting).getD .empty).ascending
            (List.mem_of_find?_eq_some invalid)
          simp only [reduceCtorEq, false_iff, not_and]
          intro named
          simp [named _ _ present] at refused
      | none =>
          have named : Named ((snapshot.map? setting).getD .empty) := by
            intro key value present
            simpa using List.find?_eq_none.mp invalid _ (mem_of_lookupEntry present)
          simp [named, eq_comm]

theorem overridden_named (named : Named inherited)
    (valid : Named (declaration.explicit snapshot)) :
    Named (declaration.overridden snapshot inherited) :=
  named.foldl_insert fun entry member =>
    valid entry.1 entry.2 (lookupEntry_of_mem (declaration.explicit snapshot).ascending member)

theorem fill_named (valid : ∀ entry ∈ rules, isEnvKey entry.1 = true) (named : Named vars)
    (filled : fill snapshot rules vars = .ok result) : Named result := by
  induction rules generalizing vars with
  | nil =>
      cases filled
      exact named
  | cons entry rest ih =>
      obtain ⟨key, rule⟩ := entry
      have here : isEnvKey key = true := valid (key, rule) List.mem_cons_self
      have further : ∀ entry ∈ rest, isEnvKey entry.1 = true := fun entry member =>
        valid entry (List.mem_cons_of_mem _ member)
      simp only [fill] at filled
      split at filled
      · exact ih further named filled
      · split at filled
        · cases filled
        · exact ih further named filled
        · exact ih further (named.insert here) filled

theorem exists_fill (answers : ∀ entry ∈ rules, entry.2.Answers snapshot) (vars : Dict String) :
    ∃ result, fill snapshot rules vars = .ok result := by
  induction rules generalizing vars with
  | nil => exact ⟨vars, rfl⟩
  | cons entry rest ih =>
      obtain ⟨key, rule⟩ := entry
      have further := ih fun entry member => answers entry (List.mem_cons_of_mem _ member)
      obtain ⟨value, answered⟩ := answers (key, rule) List.mem_cons_self vars
      simp only [fill, answered]
      split
      · exact further vars
      · cases value with
        | none => exact further vars
        | some value => exact further (vars.insert key value)

/-- What the rules leave, without what is empty. -/
theorem extend_ok (extended : declaration.extend snapshot inherited = .ok vars) :
    Named (declaration.explicit snapshot) ∧
      ∃ full, fill snapshot declaration.defaults (declaration.overridden snapshot inherited) =
        .ok full ∧
        ∀ key value, vars.get? key = some value ↔ full.get? key = some value ∧ value ≠ "" := by
  simp only [extend] at extended
  split at extended
  · cases extended
  · rename_i start applied
    obtain ⟨valid, rfl⟩ := withOverrides_ok_iff.mp applied
    cases filled :
        fill snapshot declaration.defaults (declaration.overridden snapshot inherited) with
    | error e => simp [filled, Except.map] at extended
    | ok full =>
        rw [filled] at extended
        cases extended
        refine ⟨valid, full, rfl, fun key value => ?_⟩
        rw [Dict.get?_filter, Option.filter_eq_some_iff]
        simp

/-- An environment on top of a proper one is proper. -/
theorem extend_proper (valid : ∀ entry ∈ declaration.defaults, isEnvKey entry.1 = true)
    (named : Named inherited) (extended : declaration.extend snapshot inherited = .ok vars) :
    Proper vars := by
  obtain ⟨explicit, full, filled, kept⟩ := extend_ok extended
  intro key value present
  obtain ⟨inFull, notEmpty⟩ := (kept key value).mp present
  exact ⟨fill_named valid (overridden_named named explicit) filled key value inFull, notEmpty⟩

theorem exists_extend (named : Named (declaration.explicit snapshot))
    (answers : ∀ entry ∈ declaration.defaults, entry.2.Answers snapshot) (inherited : Dict String) :
    ∃ vars, declaration.extend snapshot inherited = .ok vars := by
  have applied : declaration.withOverrides snapshot inherited =
      .ok (declaration.overridden snapshot inherited) := withOverrides_ok_iff.mpr ⟨named, rfl⟩
  obtain ⟨full, filled⟩ := exists_fill answers (declaration.overridden snapshot inherited)
  simp only [extend, applied, filled]
  exact ⟨_, rfl⟩

end Declaration

namespace Compositor

variable {compositor : Compositor} {declarations : List Declaration} {name : String}

theorem mem_of_mem_lineage {declaration : Declaration}
    (member : declaration ∈ lineage declarations name) : declaration ∈ declarations := by
  induction declarations generalizing name with
  | nil => cases member
  | cons latest earlier ih =>
      simp only [lineage] at member
      split at member
      · split at member
        · exact List.mem_singleton.mp member ▸ List.mem_cons_self
        · rcases List.mem_append.mp member with elder | self
          · exact List.mem_cons_of_mem _ (ih elder)
          · exact List.mem_singleton.mp self ▸ List.mem_cons_self
      · exact List.mem_cons_of_mem _ (ih member)

theorem extendAll_proper {declarations : List Declaration}
    (valid : ∀ declaration ∈ declarations, ∀ entry ∈ declaration.defaults,
      isEnvKey entry.1 = true) (proper : Proper inherited)
    (extended : extendAll snapshot declarations inherited = .ok vars) : Proper vars := by
  induction declarations generalizing inherited with
  | nil =>
      cases extended
      exact proper
  | cons declaration rest ih =>
      simp only [extendAll] at extended
      split at extended
      · cases extended
      · rename_i next here
        exact ih (fun other member => valid other (List.mem_cons_of_mem _ member))
          (declaration.extend_proper (valid declaration List.mem_cons_self) proper.named here)
          extended

theorem exists_extendAll {declarations : List Declaration}
    (named : ∀ declaration ∈ declarations, Named (declaration.explicit snapshot))
    (answers : ∀ declaration ∈ declarations, ∀ entry ∈ declaration.defaults,
      entry.2.Answers snapshot) (inherited : Dict String) :
    ∃ vars, extendAll snapshot declarations inherited = .ok vars := by
  induction declarations generalizing inherited with
  | nil => exact ⟨inherited, rfl⟩
  | cons declaration rest ih =>
      obtain ⟨next, extended⟩ := declaration.exists_extend
        (named declaration List.mem_cons_self) (answers declaration List.mem_cons_self) inherited
      simp only [extendAll, extended]
      exact ih (fun other member => named other (List.mem_cons_of_mem _ member))
        (fun other member => answers other (List.mem_cons_of_mem _ member)) next

theorem isSome_get? : (compositor.get? name).isSome = true ↔ name ∈ compositor.names := by
  simp [get?, names, List.find?_isSome]

/-- Checking declarations takes no notice of the order in which settings are evaluated. -/
theorem firstFault_congr {left right : Schema} (same : left.settings = right.settings) :
    firstFault left seen declarations = firstFault right seen declarations := by
  have found : left.get? = right.get? := by
    funext name
    simp only [Schema.get?, same]
  induction declarations generalizing seen with
  | nil => rfl
  | cons declaration rest ih =>
      have defaults : defaultFault left declaration.name = defaultFault right declaration.name := by
        funext entry
        simp only [defaultFault, Schema.contains, found]
        rfl
      simp only [firstFault, fault, overridesFault, found, defaults, ih]

theorem build_ok {schema : Schema} (accepted : build schema declarations = .ok compositor) :
    compositor.declarations = declarations ∧
      ∀ declaration ∈ declarations, ∀ entry ∈ declaration.defaults, isEnvKey entry.1 = true := by
  have faultless : ∀ (seen : List String) (declarations : List Declaration),
      firstFault schema seen declarations = none →
      ∀ declaration ∈ declarations, ∀ entry ∈ declaration.defaults, isEnvKey entry.1 = true := by
    intro seen declarations accepted
    induction declarations generalizing seen with
    | nil => exact List.forall_mem_nil _
    | cons declaration rest ih =>
        simp only [firstFault, Option.or_eq_none_iff, fault, List.findSome?_eq_none_iff] at accepted
        obtain ⟨⟨_, _, defaults, _⟩, later⟩ := accepted
        refine List.forall_mem_cons.mpr ⟨fun entry member => ?_, ih _ later⟩
        have checked := defaults entry member
        simp only [defaultFault] at checked
        split at checked
        · cases checked
        · rename_i valid
          simpa using valid
  simp only [build] at accepted
  split at accepted
  · cases accepted
  · rename_i none
    cases accepted
    exact ⟨rfl, faultless [] declarations none⟩

theorem compose_ok {env : StackEnvironment}
    (composed : compositor.compose snapshot name = .ok env) :
    env.name = name ∧
      extendAll snapshot (lineage compositor.declarations.reverse name) .empty = .ok env.vars := by
  simp only [compose] at composed
  split at composed
  · cases composed
  · cases extended : extendAll snapshot (lineage compositor.declarations.reverse name) .empty with
    | error e => simp [extended, Except.map] at composed
    | ok vars =>
        rw [extended] at composed
        cases composed
        exact ⟨rfl, rfl⟩

theorem forall_mem_lineage {holds : Declaration → Prop}
    (each : ∀ declaration ∈ compositor.declarations, holds declaration) :
    ∀ declaration ∈ lineage compositor.declarations.reverse name, holds declaration :=
  fun declaration member => each declaration (List.mem_reverse.mp (mem_of_mem_lineage member))

theorem compose_proper {env : StackEnvironment}
    (valid : ∀ declaration ∈ compositor.declarations, ∀ entry ∈ declaration.defaults,
      isEnvKey entry.1 = true)
    (composed : compositor.compose snapshot name = .ok env) : Proper env.vars :=
  extendAll_proper (forall_mem_lineage valid) .empty (compose_ok composed).2

theorem exists_compose
    (named : ∀ declaration ∈ compositor.declarations, Named (declaration.explicit snapshot))
    (answers : ∀ declaration ∈ compositor.declarations, ∀ entry ∈ declaration.defaults,
      entry.2.Answers snapshot) (declared : name ∈ compositor.names) :
    ∃ env, compositor.compose snapshot name = .ok env := by
  obtain ⟨declaration, found⟩ := Option.isSome_iff_exists.mp (isSome_get?.mpr declared)
  obtain ⟨vars, extended⟩ : ∃ vars,
      extendAll snapshot (lineage compositor.declarations.reverse name) .empty = .ok vars :=
    exists_extendAll (forall_mem_lineage named) (forall_mem_lineage answers) .empty
  refine ⟨⟨name, vars⟩, ?_⟩
  simp only [compose, found, extended, Except.map]

theorem mapM_ok {f : α → Except ε β} {origin : β → α} {as : List α}
    (each : ∀ a ∈ as, ∃ b, f a = .ok b ∧ origin b = a) :
    ∃ bs, as.mapM f = .ok bs ∧ bs.map origin = as ∧ ∀ b ∈ bs, f (origin b) = .ok b := by
  induction as with
  | nil => exact ⟨[], rfl, rfl, List.forall_mem_nil _⟩
  | cons a rest ih =>
      obtain ⟨b, here, rfl⟩ := each a List.mem_cons_self
      obtain ⟨bs, done, origins, made⟩ := ih fun a member => each a (List.mem_cons_of_mem _ member)
      refine ⟨b :: bs, ?_, by rw [List.map_cons, origins], List.forall_mem_cons.mpr ⟨here, made⟩⟩
      simp [List.mapM_cons, here, done, bind, Except.bind, pure, Except.pure]

theorem exists_composeAll
    (named : ∀ declaration ∈ compositor.declarations, Named (declaration.explicit snapshot))
    (answers : ∀ declaration ∈ compositor.declarations, ∀ entry ∈ declaration.defaults,
      entry.2.Answers snapshot) :
    ∃ envs, compositor.composeAll snapshot = .ok envs ∧ envs.map (·.name) = compositor.names ∧
      ∀ env ∈ envs, compositor.compose snapshot env.name = .ok env :=
  mapM_ok fun _ declared =>
    have ⟨env, composed⟩ := exists_compose named answers declared
    ⟨env, composed, (compose_ok composed).1⟩

end Compositor

end HubKeeper.Stack
