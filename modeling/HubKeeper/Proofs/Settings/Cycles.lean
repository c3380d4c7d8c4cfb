import HubKeeper.Proofs.Settings.Locality
import Mathlib.Data.List.Chain
import Mathlib.Data.List.Nodup
import Mathlib.Data.List.Perm.Subperm

/-!
Dependencies that run in a circle.

When no setting can be taken any more, every setting that waits reads another one that
waits.  A walk along such dependencies goes on for ever, and as there are finitely many
names it comes to one for the second time: the part of the walk in between is the cycle
that is reported.  What leads to the cycle is not part of it.
-/

namespace HubKeeper.Schema

variable {settings waiting taken order left : List Setting} {schema : Schema} {steps : Nat}
variable {path cycle : List String} {reader current name : String}

/-- A setting reads a name directly. -/
def Reads (settings : List Setting) (reader name : String) : Prop :=
  ∃ setting ∈ settings, setting.name = reader ∧ name ∈ setting.dependencies

/-- A walk along dependencies that ends where it began and comes to no name twice before. -/
structure IsCycle (settings : List Setting) (cycle : List String) : Prop where
  long : 2 ≤ cycle.length
  closed : cycle.head? = cycle.getLast?
  simple : cycle.dropLast.Nodup
  reads : cycle.IsChain (Reads settings)

theorem Reads.dependsOn (reads : Reads settings reader name) : DependsOn settings reader name := by
  obtain ⟨setting, member, rfl, dependency⟩ := reads
  exact .directly member dependency

theorem DependsOn.first (depends : DependsOn settings reader name) :
    ∃ between, Reads settings reader between ∧
      (between = name ∨ DependsOn settings between name) := by
  cases depends with
  | directly member reads => exact ⟨_, ⟨_, member, rfl, reads⟩, .inl rfl⟩
  | through member reads further => exact ⟨_, ⟨_, member, rfl, reads⟩, .inr further⟩

theorem DependsOn.trans (first : DependsOn settings reader current)
    (second : DependsOn settings current name) : DependsOn settings reader name := by
  induction first with
  | directly member reads => exact .through member reads second
  | through member reads _ ih => exact .through member reads (ih second)

instance : Trans (DependsOn settings) (DependsOn settings) (DependsOn settings) := ⟨.trans⟩

theorem IsCycle.split (isCycle : IsCycle settings cycle) :
    ∃ start inner, cycle = start :: inner ++ [start] := by
  obtain ⟨long, closed, _, _⟩ := isCycle
  cases cycle with
  | nil => simp at long
  | cons start rest =>
      rcases List.eq_nil_or_concat rest with rfl | ⟨inner, last, rfl⟩
      · simp at long
      · rw [List.concat_eq_append, List.head?_cons, ← List.cons_append, List.getLast?_concat] at closed
        exact ⟨start, inner, by rw [Option.some.inj closed, List.concat_eq_append]; rfl⟩

/-- Any name on a cycle depends on any other, and on itself. -/
theorem IsCycle.dependsOn (isCycle : IsCycle settings cycle) (member : name ∈ cycle)
    (target : current ∈ cycle) : DependsOn settings name current := by
  have depends : cycle.Pairwise (DependsOn settings) :=
    (isCycle.reads.imp fun _ _ => Reads.dependsOn).pairwise
  obtain ⟨start, inner, rfl⟩ := isCycle.split
  have around : DependsOn settings start start :=
    (List.pairwise_cons.mp depends).1 start (List.mem_concat_self ..)
  have fromStart : ∀ other ∈ start :: inner ++ [start], DependsOn settings start other := by
    rw [List.cons_append, List.forall_mem_cons]
    exact ⟨around, (List.pairwise_cons.mp depends).1⟩
  have toStart : ∀ other ∈ start :: inner ++ [start], DependsOn settings other start := by
    rw [List.forall_mem_append, List.forall_mem_singleton]
    exact ⟨fun other before =>
      (List.pairwise_append.mp depends).2.2 other before start (List.mem_singleton_self start), around⟩
  exact (toStart name member).trans (fromStart current target)

/-! ### Orders leave no room for a cycle -/

/-- In a schema nothing depends on itself. -/
theorem WellOrdered.not_dependsOn_self (wellOrdered : schema.WellOrdered) :
    ¬DependsOn schema.settings name name := by
  intro loop
  have declared : name ∈ schema.names := by
    obtain ⟨_, ⟨setting, member, rfl, _⟩, _⟩ := loop.first
    exact List.mem_map_of_mem member
  have accessible := wellOrdered.forall_names
    (Acc fun name reader => DependsOn schema.settings reader name) ?_ name declared
  · clear declared
    induction accessible with
    | intro name _ ih => exact ih name loop loop
  · intro setting member known
    refine .intro _ fun name depends => ?_
    obtain ⟨between, ⟨other, listed, same, reads⟩, rest⟩ := depends.first
    obtain rfl : other = setting := List.inj_on_of_nodup_map wellOrdered.distinct listed member same
    rcases rest with rfl | further
    · exact known between reads
    · exact (known between reads).inv further

/-! ### What waits when nothing can be taken -/

theorem repeatedName?_of_nodup {seen : List String} (distinct : (settings.map (·.name)).Nodup)
    (unseen : ∀ setting ∈ settings, setting.name ∉ seen) : repeatedName? seen settings = none := by
  induction settings generalizing seen with
  | nil => rfl
  | cons first rest ih =>
      obtain ⟨unlike, restDistinct⟩ := List.nodup_cons.mp distinct
      have fresh : seen.contains first.name = false := by
        simpa using unseen first List.mem_cons_self
      rw [repeatedName?, fresh, if_neg Bool.false_ne_true]
      refine ih restDistinct fun setting later => ?_
      rw [List.mem_cons, not_or]
      exact ⟨fun same => unlike (List.mem_map.mpr ⟨setting, later, same⟩),
        unseen setting (List.mem_cons_of_mem _ later)⟩

def Closed (settings : List Setting) : Prop :=
  ∀ setting ∈ settings, ∀ name ∈ setting.dependencies, name ∈ settings.map (·.name)

theorem unknownDependency?_of_closed (closed : Closed settings) :
    unknownDependency? settings = none := by
  refine List.findSome?_eq_none_iff.mpr fun setting member => ?_
  rw [Option.map_eq_none_iff, List.find?_eq_none]
  intro name dependency
  simp [Option.isNone_iff_eq_none, find?_eq_none, closed setting member name dependency]

/-- When every waiting setting has had its turn, none that still waits is ready. -/
theorem takeReady_stuck (run : takeReady steps taken waiting = (order, left))
    (enough : waiting.length ≤ steps) :
    ∀ setting ∈ left, isReady (order.map (·.name)) setting = false := by
  induction steps generalizing taken waiting with
  | zero =>
      cases run
      rw [List.length_eq_zero_iff.mp (Nat.le_zero.mp enough)]
      exact List.forall_mem_nil _
  | succ steps ih =>
      simp only [takeReady] at run
      split at run
      · rename_i none
        cases run
        simpa using List.find?_eq_none.mp none
      · rename_i setting found
        refine ih run (Nat.le_of_lt_succ (Nat.lt_of_lt_of_le ?_ enough))
        exact List.length_filter_lt_length_iff_exists.mpr
          ⟨setting, List.mem_of_find?_eq_some found, by simp⟩

/-- The first dependency of a setting that waits as well. -/
def nextWaiting (waiting : List Setting) (current : String) : Option String :=
  (find? waiting current).bind fun setting =>
    setting.dependencies.find? fun name => (find? waiting name).isSome

/-- No setting that waits is free to be taken. -/
def Blocked (waiting : List Setting) : Prop :=
  ∀ name ∈ waiting.map (·.name), (nextWaiting waiting name).isSome = true

theorem nextWaiting_spec (found : nextWaiting waiting current = some name) :
    Reads waiting current name ∧ name ∈ waiting.map (·.name) := by
  obtain ⟨setting, isCurrent, dependency⟩ := Option.bind_eq_some_iff.mp found
  refine ⟨⟨setting, List.mem_of_find?_eq_some isCurrent, ?_, List.mem_of_find?_eq_some dependency⟩,
    isSome_find?.mp (by simpa using List.find?_some dependency)⟩
  simpa using List.find?_some isCurrent

theorem blocked_of_takeReady (distinct : (settings.map (·.name)).Nodup) (closed : Closed settings)
    (run : takeReady settings.length [] settings = (order, left)) : Blocked left := by
  obtain ⟨ready, rfl, complete, _⟩ := takeReady_ready run (by simpa using distinct)
  intro name waits
  obtain ⟨setting, isSetting⟩ := Option.isSome_iff_exists.mp (isSome_find?.mpr waits)
  have member := List.mem_of_find?_eq_some isSetting
  have unready := takeReady_stuck run (Nat.le_refl _) setting member
  obtain ⟨dependency, reads, untaken⟩ := List.all_eq_false.mp unready
  have declared : dependency ∈ settings.map (·.name) :=
    closed setting (complete.mem_iff.mp (List.mem_append_right _ member)) dependency reads
  rw [← (complete.map (·.name)).mem_iff, List.map_append, List.mem_append] at declared
  have waitsToo : dependency ∈ left.map (·.name) := declared.resolve_left (by simpa using untaken)
  rw [nextWaiting, isSetting, Option.bind_some, List.find?_isSome]
  exact ⟨dependency, reads, isSome_find?.mpr waitsToo⟩

/-! ### The walk -/

/-- The path behind the walk and the name that it has come to. -/
inductive Walks (waiting : List Setting) : List String → String → Prop
  | start {setting : Setting} (first : waiting.head? = some setting) :
      Walks waiting [] setting.name
  | onward {behind : List String} {here next : String} (walks : Walks waiting behind here)
      (fresh : here ∉ behind) (found : nextWaiting waiting here = some next) :
      Walks waiting (behind ++ [here]) next

theorem Walks.nodup (walks : Walks waiting path current) : path.Nodup := by
  induction walks with
  | start first => exact List.nodup_nil
  | onward walks fresh found ih =>
      refine List.nodup_append.mpr ⟨ih, List.nodup_singleton _, ?_⟩
      intro name member _ isHere same
      exact fresh (List.mem_singleton.mp isHere ▸ same ▸ member)

theorem Walks.waits (walks : Walks waiting path current) :
    ∀ name ∈ path ++ [current], name ∈ waiting.map (·.name) := by
  induction walks with
  | start first => simpa using List.mem_map_of_mem (List.mem_of_head? first)
  | onward walks fresh found ih =>
      rw [List.forall_mem_append]
      exact ⟨ih, List.forall_mem_singleton.mpr (nextWaiting_spec found).2⟩

theorem Walks.chain (walks : Walks waiting path current) :
    (path ++ [current]).IsChain (Reads waiting) := by
  induction walks with
  | start first => exact .singleton _
  | onward walks fresh found ih =>
      refine List.isChain_append.mpr ⟨ih, .singleton _, ?_⟩
      simpa using (nextWaiting_spec found).1

theorem followCycle_succ {steps : Nat} :
    followCycle waiting (steps + 1) path current =
      if path.contains current then path.dropWhile (· != current) ++ [current]
      else match nextWaiting waiting current with
        | none => path ++ [current]
        | some name => followCycle waiting steps (path ++ [current]) name :=
  rfl

/-- Where every setting that waits leads to another one, the walk ends at a name that it has
come to before; there are fewer names than steps. -/
theorem followCycle_closes (blocked : Blocked waiting) (walks : Walks waiting path current)
    (enough : waiting.length < path.length + steps) :
    ∃ behind again, Walks waiting behind again ∧ again ∈ behind ∧
      followCycle waiting steps path current = behind.dropWhile (· != again) ++ [again] := by
  induction steps generalizing path current with
  | zero =>
      have inside : path ⊆ waiting.map (·.name) := fun name member =>
        walks.waits name (List.mem_append_left _ member)
      have short := (List.subperm_of_subset walks.nodup inside).length_le
      rw [List.length_map] at short
      exact absurd enough (by simpa using short)
  | succ steps ih =>
      rw [followCycle_succ]
      by_cases seen : current ∈ path
      · exact ⟨path, current, walks, seen, if_pos (List.contains_iff_mem.mpr seen)⟩
      · rw [if_neg (by simpa using seen)]
        obtain ⟨name, found⟩ := Option.isSome_iff_exists.mp
          (blocked current (walks.waits current (List.mem_concat_self ..)))
        rw [found]
        exact ih (walks.onward seen found) (by simp; omega)

/-- What is walked between two visits of a name is a cycle. -/
theorem Walks.isCycle (walks : Walks waiting path current) (again : current ∈ path) :
    IsCycle waiting (path.dropWhile (· != current) ++ [current]) := by
  obtain ⟨before, after, rfl⟩ := List.append_of_mem again
  have unlike : ∀ name ∈ before, (name != current) = true := by
    intro name member
    rw [bne_iff_ne]
    exact (List.nodup_append.mp walks.nodup).2.2 name member current List.mem_cons_self
  have cut : (before ++ current :: after).dropWhile (· != current) = current :: after := by
    rw [List.dropWhile_append_of_pos unlike, List.dropWhile_cons_of_neg (by simp)]
  rw [cut]
  refine ⟨by simp, by rw [List.getLast?_concat]; rfl, ?_, ?_⟩
  · rw [List.dropLast_concat]
    exact (List.nodup_append.mp walks.nodup).2.1
  · have chain := walks.chain
    rw [List.append_assoc] at chain
    exact chain.suffix (List.suffix_append ..)

theorem IsCycle.mono (isCycle : IsCycle waiting cycle) (among : waiting ⊆ settings) :
    IsCycle settings cycle where
  long := isCycle.long
  closed := isCycle.closed
  simple := isCycle.simple
  reads := isCycle.reads.imp fun _ _ ⟨setting, member, reads⟩ => ⟨setting, among member, reads⟩

/-! ### The report -/

/-- What `build` makes of declarations that name each other properly. -/
theorem build_eq (distinct : (settings.map (·.name)).Nodup) (closed : Closed settings) :
    build settings =
      match takeReady settings.length [] settings with
      | (order, []) => .ok ⟨settings, order⟩
      | (_, waiting) => .error (.schemaCycle (cycleOf waiting)) := by
  have noRepeat : repeatedName? [] settings = none :=
    repeatedName?_of_nodup distinct fun _ _ => List.not_mem_nil
  unfold build
  obtain ⟨order, waiting⟩ := takeReady settings.length [] settings
  cases waiting <;> simp only [noRepeat, unknownDependency?_of_closed closed]

section

variable (distinct : (settings.map (·.name)).Nodup) (closed : Closed settings)
  (run : takeReady settings.length [] settings = (order, waiting)) (stuck : waiting ≠ [])

include distinct closed run stuck

/-- Where settings are left waiting, the walk from the first of them comes to a name again. -/
theorem cycleOf_closes : ∃ path current, Walks waiting path current ∧ current ∈ path ∧
    cycleOf waiting = path.dropWhile (· != current) ++ [current] := by
  obtain ⟨first, rest, rfl⟩ := List.exists_cons_of_ne_nil stuck
  exact followCycle_closes (blocked_of_takeReady distinct closed run) (.start rfl) (by simp)

theorem isCycle_cycleOf : IsCycle settings (cycleOf waiting) := by
  obtain ⟨path, current, walks, again, found⟩ := cycleOf_closes distinct closed run stuck
  obtain ⟨_, _, complete, _⟩ := takeReady_ready run (by simpa using distinct)
  have among : waiting ⊆ settings := fun setting member =>
    complete.mem_iff.mp (List.mem_append_right _ member)
  exact found ▸ (walks.isCycle again).mono among

end

/-- Declarations whose dependencies run in a circle are refused with a cycle of them.  The walk
that finds it never comes to a setting from which it cannot go on. -/
theorem build_eq_schemaCycle (distinct : (settings.map (·.name)).Nodup) (closed : Closed settings)
    (circular : ∃ name, DependsOn settings name name) :
    ∃ order waiting cycle, takeReady settings.length [] settings = (order, waiting) ∧
      build settings = .error (.schemaCycle cycle) ∧
      IsCycle settings cycle ∧
      (∀ name ∈ cycle, ∀ other ∈ cycle, DependsOn settings other name) ∧
      (∃ path current, Walks waiting path current ∧ current ∈ path ∧
        cycle = path.dropWhile (· != current) ++ [current]) ∧
      ∀ path current, Walks waiting path current → (nextWaiting waiting current).isSome = true := by
  obtain ⟨name, loop⟩ := circular
  cases run : takeReady settings.length [] settings with
  | mk order waiting =>
      have stuck : waiting ≠ [] := by
        rintro rfl
        have accepted : build settings = .ok ⟨settings, order⟩ := by
          rw [build_eq distinct closed, run]
        exact (build_wellOrdered accepted).not_dependsOn_self loop
      have isCycle := isCycle_cycleOf distinct closed run stuck
      refine ⟨order, waiting, cycleOf waiting, rfl, ?_, isCycle,
        fun _ member _ other => isCycle.dependsOn other member,
        cycleOf_closes distinct closed run stuck, ?_⟩
      · obtain ⟨first, rest, rfl⟩ := List.exists_cons_of_ne_nil stuck
        rw [build_eq distinct closed, run]
      · intro path current walks
        exact blocked_of_takeReady distinct closed run current
          (walks.waits current (List.mem_concat_self ..))

def circularSettings : List Setting :=
  [(Setting.declare "outer" .text).fallback "a", (Setting.declare "a" .text).fallback "b",
    (Setting.declare "b" .text).fallback "a"]

/-- The setting outside the cycle is not reported. -/
theorem circularSettings_build :
    (circularSettings.map (·.name)).Nodup ∧ Closed circularSettings ∧
      (∃ name, DependsOn circularSettings name name) ∧
      build circularSettings = .error (.schemaCycle ["a", "b", "a"]) ∧
      IsCycle circularSettings ["a", "b", "a"] := by
  have distinct : (circularSettings.map (·.name)).Nodup := by decide
  have closed : Closed circularSettings := by unfold Closed; decide
  have there : Reads circularSettings "a" "b" :=
    ⟨circularSettings[1], by simp [circularSettings], rfl, List.mem_singleton_self _⟩
  have back : Reads circularSettings "b" "a" :=
    ⟨circularSettings[2], by simp [circularSettings], rfl, List.mem_singleton_self _⟩
  have circular : DependsOn circularSettings "a" "a" := there.dependsOn.trans back.dependsOn
  have reported : build circularSettings = .error (.schemaCycle ["a", "b", "a"]) := rfl
  obtain ⟨_, _, cycle, _, refused, isCycle, _⟩ :=
    build_eq_schemaCycle distinct closed ⟨"a", circular⟩
  cases reported.symm.trans refused
  exact ⟨distinct, closed, ⟨"a", circular⟩, reported, isCycle⟩

end HubKeeper.Schema
