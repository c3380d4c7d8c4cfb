import HubKeeper.Settings.Schema

/-!
Schemas that `Schema.build` accepts.  Their settings have distinct names and declared
dependencies, and the evaluation order lists each of them once, behind everything it
depends on.
-/

namespace HubKeeper.Schema

/-- Each setting finds its dependencies among `taken` and the names listed before it. -/
def ReadyAfter (taken : List String) : List Setting → Prop
  | [] => True
  | setting :: rest =>
      (∀ name ∈ setting.dependencies, name ∈ taken) ∧ ReadyAfter (taken ++ [setting.name]) rest

/-- What `build` guarantees of a schema. -/
structure WellOrdered (schema : Schema) : Prop where
  distinct : schema.names.Nodup
  declared : ∀ setting ∈ schema.settings, ∀ name ∈ setting.dependencies, name ∈ schema.names
  complete : schema.order.Perm schema.settings
  ready : ReadyAfter [] schema.order

theorem readyAfter_iff {order : List Setting} {taken : List String} :
    ReadyAfter taken order ↔ ∀ before setting after, order = before ++ setting :: after →
      ∀ name ∈ setting.dependencies, name ∈ taken ++ before.map (·.name) := by
  induction order generalizing taken with
  | nil => simp [ReadyAfter]
  | cons first rest ih =>
      rw [ReadyAfter, ih]
      constructor
      · rintro ⟨own, later⟩ before setting after split
        cases before with
        | nil =>
            cases split
            simpa using own
        | cons _ before =>
            cases split
            simpa using later before setting after rfl
      · intro listed
        refine ⟨by simpa using listed [] first rest rfl, fun before setting after split => ?_⟩
        simpa using listed (first :: before) setting after (by rw [split, List.cons_append])

/-- What holds of a name once it holds of all that is read for it holds of all names that
are taken in order. -/
theorem ReadyAfter.forall_names {holds : String → Prop} {order : List Setting}
    {taken : List String} (ready : ReadyAfter taken order) (known : ∀ name ∈ taken, holds name)
    (step : ∀ setting ∈ order, (∀ name ∈ setting.dependencies, holds name) → holds setting.name) :
    ∀ setting ∈ order, holds setting.name := by
  induction order generalizing taken with
  | nil => exact fun _ member => absurd member List.not_mem_nil
  | cons first rest ih =>
      obtain ⟨dependencies, later⟩ := ready
      have own : holds first.name := step first List.mem_cons_self fun name dependency =>
        known name (dependencies name dependency)
      have knownNext : ∀ name ∈ taken ++ [first.name], holds name := by
        intro name member
        rcases List.mem_append.mp member with early | here
        · exact known name early
        · cases List.mem_singleton.mp here
          exact own
      intro setting member
      rcases List.mem_cons.mp member with rfl | member
      · exact own
      · exact ih later knownNext (fun other listed => step other (List.mem_cons_of_mem _ listed))
          setting member

/-- Induction over the settings of a schema, dependencies first. -/
theorem WellOrdered.forall_names {schema : Schema} (wellOrdered : schema.WellOrdered)
    (holds : String → Prop)
    (step : ∀ setting ∈ schema.settings, (∀ name ∈ setting.dependencies, holds name) →
      holds setting.name) :
    ∀ name ∈ schema.names, holds name := by
  intro name declared
  obtain ⟨setting, member, rfl⟩ := List.mem_map.mp declared
  exact wellOrdered.ready.forall_names (fun _ none => absurd none List.not_mem_nil)
    (fun other listed => step other (wellOrdered.complete.mem_iff.mp listed)) setting
    (wellOrdered.complete.mem_iff.mpr member)

theorem repeatedName?_eq_none {settings : List Setting} {seen : List String}
    (none : repeatedName? seen settings = none) :
    (settings.map (·.name)).Nodup ∧ ∀ setting ∈ settings, setting.name ∉ seen := by
  induction settings generalizing seen with
  | nil => simp
  | cons first rest ih =>
      simp only [repeatedName?] at none
      split at none
      · contradiction
      · rename_i fresh
        obtain ⟨distinct, unseen⟩ := ih none
        constructor
        · rw [List.map_cons, List.nodup_cons]
          refine ⟨?_, distinct⟩
          intro member
          obtain ⟨later, found, same⟩ := List.mem_map.mp member
          exact unseen later found (same ▸ List.mem_cons_self)
        · intro setting member
          rcases List.mem_cons.mp member with rfl | later
          · simpa using fresh
          · exact fun seenBefore => unseen setting later (List.mem_cons_of_mem _ seenBefore)

theorem find?_eq_none {settings : List Setting} {name : String} :
    find? settings name = none ↔ name ∉ settings.map (·.name) := by
  simp only [find?, List.find?_eq_none, beq_iff_eq, List.mem_map, not_exists, not_and]

theorem isSome_find? {settings : List Setting} {name : String} :
    (find? settings name).isSome = true ↔ name ∈ settings.map (·.name) := by
  rw [Option.isSome_iff_ne_none, ne_eq, find?_eq_none, Decidable.not_not]

theorem contains_iff {schema : Schema} {name : String} :
    schema.contains name = true ↔ name ∈ schema.names :=
  isSome_find?

theorem unknownDependency?_eq_none {settings : List Setting}
    (none : unknownDependency? settings = none) :
    ∀ setting ∈ settings, ∀ name ∈ setting.dependencies, name ∈ settings.map (·.name) := by
  intro setting member name dependency
  have known := List.findSome?_eq_none_iff.mp none setting member
  rw [Option.map_eq_none_iff, List.find?_eq_none] at known
  have present := known name dependency
  rw [Option.isNone_iff_eq_none, find?_eq_none] at present
  exact Decidable.not_not.mp present

/-- Taking out the setting with a name leaves all others, if names are distinct. -/
theorem perm_cons_filter_name {settings : List Setting} {setting : Setting}
    (distinct : (settings.map (·.name)).Nodup) (member : setting ∈ settings) :
    (setting :: settings.filter fun s => s.name != setting.name).Perm settings := by
  induction settings with
  | nil => cases member
  | cons first rest ih =>
      obtain ⟨unlike, restDistinct⟩ := List.nodup_cons.mp distinct
      rcases List.mem_cons.mp member with rfl | later
      · have kept : rest.filter (fun s => s.name != setting.name) = rest := by
          refine List.filter_eq_self.mpr fun other found => ?_
          simp only [bne_iff_ne]
          exact fun same => unlike (List.mem_map.mpr ⟨other, found, same⟩)
        simp [kept]
      · have different : first.name ≠ setting.name := fun same =>
          unlike (List.mem_map.mpr ⟨setting, later, same.symm⟩)
        simp only [List.filter_cons, bne_iff_ne, ne_eq, different, not_false_eq_true, ↓reduceIte]
        exact (List.Perm.swap ..).trans ((ih restDistinct later).cons first)

/-- Everything taken was ready when it was taken, and nothing is lost. -/
theorem takeReady_ready {steps : Nat} {taken waiting order left : List Setting}
    (run : takeReady steps taken waiting = (order, left))
    (distinct : ((taken ++ waiting).map (·.name)).Nodup) :
    ∃ ready, order = taken ++ ready ∧ (ready ++ left).Perm waiting ∧
      ReadyAfter (taken.map (·.name)) ready := by
  induction steps generalizing taken waiting with
  | zero =>
      cases run
      exact ⟨[], by simp, .refl _, trivial⟩
  | succ steps ih =>
      simp only [takeReady] at run
      split at run
      · cases run
        exact ⟨[], by simp, .refl _, trivial⟩
      · rename_i setting found
        have waitingDistinct : (waiting.map (·.name)).Nodup := by
          rw [List.map_append] at distinct
          exact (List.nodup_append.mp distinct).2.1
        have rest := perm_cons_filter_name waitingDistinct (List.mem_of_find?_eq_some found)
        have moved : ((taken ++ [setting]) ++ waiting.filter fun s => s.name != setting.name).Perm
            (taken ++ waiting) := by
          simpa using rest.append_left taken
        obtain ⟨ready, orderEq, complete, behind⟩ :=
          ih run ((moved.map (·.name)).nodup_iff.mpr distinct)
        refine ⟨setting :: ready, by simp [orderEq], (complete.cons setting).trans rest, ?_, ?_⟩
        · intro name dependency
          have isReady := List.find?_some found
          simpa using List.all_eq_true.mp isReady name dependency
        · simpa using behind

variable {settings : List Setting} {schema : Schema}

theorem build_eq_ok (accepted : build settings = .ok schema) :
    repeatedName? [] settings = none ∧ unknownDependency? settings = none ∧
      schema.settings = settings ∧ takeReady settings.length [] settings = (schema.order, []) := by
  unfold build at accepted
  split at accepted
  · cases accepted
  · rename_i distinct
    split at accepted
    · cases accepted
    · rename_i declared
      split at accepted
      · rename_i order taken
        cases accepted
        exact ⟨distinct, declared, rfl, taken⟩
      · cases accepted

theorem build_settings (accepted : build settings = .ok schema) : schema.settings = settings :=
  (build_eq_ok accepted).2.2.1

theorem build_wellOrdered (accepted : build settings = .ok schema) : schema.WellOrdered := by
  obtain ⟨unrepeated, known, same, taken⟩ := build_eq_ok accepted
  have distinct := (repeatedName?_eq_none unrepeated).1
  obtain ⟨ready, orderEq, complete, behind⟩ := takeReady_ready taken (by simpa using distinct)
  have order : schema.order = ready := by simpa using orderEq
  exact {
    distinct := by simpa [names, same] using distinct
    declared := by simpa [names, same] using unknownDependency?_eq_none known
    complete := by simpa [order, same] using complete
    ready := by simpa [order] using behind }

end HubKeeper.Schema
