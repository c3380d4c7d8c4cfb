import HubKeeper.Proofs.Settings.Counting

/-!
The order in which settings are evaluated.

It lists every setting behind all that it reads, and of all such orders it is the first:
where another one differs from it for the first time, that one takes a setting that is
declared later.  There is such an order exactly if no setting depends on itself.
-/

namespace HubKeeper.Schema

variable {settings waiting taken ready others order : List Setting} {steps : Nat}

/-- Every setting stands behind everything that it reads. -/
def DependenciesFirst (order : List Setting) : Prop :=
  ∀ before setting after, order = before ++ setting :: after →
    ∀ name ∈ setting.dependencies, name ∈ before.map (·.name)

theorem dependenciesFirst_iff : DependenciesFirst order ↔ ReadyAfter [] order := by
  rw [readyAfter_iff]
  rfl

/-- Always taking the first setting that is ready makes the first order, by any rank that
ascends among those that wait. -/
theorem takeReady_le {rank : Setting → Nat}
    (run : takeReady steps taken waiting = (taken ++ ready, []))
    (distinct : ((taken ++ waiting).map (·.name)).Nodup)
    (ranked : waiting.Pairwise fun a b => rank a < rank b) (complete : others.Perm waiting)
    (behind : ReadyAfter (taken.map (·.name)) others) :
    ready = others ∨ List.Lex (fun a b => rank a < rank b) ready others := by
  induction steps generalizing taken waiting ready others with
  | zero =>
      simp only [takeReady, Prod.mk.injEq] at run
      obtain ⟨nothing, rfl⟩ := run
      exact .inl (by rw [complete.eq_nil, List.self_eq_append_right.mp nothing])
  | succ steps ih =>
      simp only [takeReady] at run
      split at run
      · obtain ⟨nothing, rfl⟩ := Prod.mk.inj run
        exact .inl (by rw [complete.eq_nil, List.self_eq_append_right.mp nothing])
      · rename_i setting found
        have member := List.mem_of_find?_eq_some found
        have waitingDistinct : (waiting.map (·.name)).Nodup := by
          rw [List.map_append] at distinct
          exact (List.nodup_append.mp distinct).2.1
        have rest := perm_cons_filter_name waitingDistinct member
        have moved : ((taken ++ [setting]) ++ waiting.filter fun s => s.name != setting.name).Perm
            (taken ++ waiting) := by
          simpa using rest.append_left taken
        have movedDistinct := (moved.map (·.name)).nodup_iff.mpr distinct
        obtain ⟨readyRest, same, _⟩ := takeReady_ready run movedDistinct
        obtain rfl : ready = setting :: readyRest := by simpa using same
        cases others with
        | nil => exact absurd (complete.nil_eq ▸ member) List.not_mem_nil
        | cons first others =>
            obtain ⟨own, later⟩ := behind
            -- The other order starts with a setting that is ready too.
            have firstReady : isReady (taken.map (·.name)) first = true :=
              List.all_eq_true.mpr fun name dependency => by simpa using own name dependency
            obtain ⟨_, before, after, rfl, unready⟩ := List.find?_eq_some_iff_append.mp found
            rcases List.mem_append.mp (complete.mem_iff.mp List.mem_cons_self) with early | late
            · exact absurd (unready first early) (by simp [firstReady])
            · rcases List.mem_cons.mp late with rfl | late
              · have othersRest := (complete.trans rest.symm).cons_inv
                rcases ih (by simpa using run) movedDistinct (ranked.filter _) othersRest
                  (by simpa using later) with rfl | less
                · exact .inl rfl
                · exact .inr (.cons less)
              · have ascending := (List.pairwise_append.mp ranked).2.1
                exact .inr (.rel ((List.pairwise_cons.mp ascending).1 first late))

/-- Declarations are accepted with an order that lists each of them once, behind everything
that it reads, and that is the first of all such orders by the places of declaration; counting
down makes the same order.  Declarations that name each other properly are accepted unless one
depends on itself. -/
theorem build_order (settings : List Setting) :
    (∀ schema, build settings = .ok schema →
      schema.order.Perm settings ∧ DependenciesFirst schema.order ∧
        (∀ order, order.Perm settings → DependenciesFirst order →
          schema.order = order ∨
            List.Lex (fun a b => place settings a < place settings b) schema.order order) ∧
        ∃ final, Countdown.run (placesRead settings) settings.length
            (.start (placesRead settings)) = some final ∧
          final.taken = schema.order.map (place settings)) ∧
      ((settings.map (·.name)).Nodup → Closed settings →
        ((∃ schema, build settings = .ok schema) ↔ ∀ name, ¬DependsOn settings name name)) := by
  refine ⟨fun schema accepted => ?_, fun distinct closed => ⟨?_, fun acyclic => ?_⟩⟩
  · obtain ⟨_, _, rfl, taken⟩ := build_eq_ok accepted
    have wellOrdered := build_wellOrdered accepted
    have distinct : (schema.settings.map (·.name)).Nodup := wellOrdered.distinct
    obtain ⟨final, ran, _, same⟩ := run_start distinct wellOrdered.declared taken
    refine ⟨wellOrdered.complete, dependenciesFirst_iff.mpr wellOrdered.ready, ?_, final, ran, same⟩
    intro order complete first
    exact takeReady_le taken (by simpa using distinct) (pairwise_place distinct) complete
      (dependenciesFirst_iff.mp first)
  · rintro ⟨schema, accepted⟩ name
    exact build_settings accepted ▸ (build_wellOrdered accepted).not_dependsOn_self
  · cases run : takeReady settings.length [] settings with
    | mk order waiting =>
        cases waiting with
        | nil => exact ⟨_, by rw [build_eq distinct closed, run]⟩
        | cons first rest =>
            have isCycle := isCycle_cycleOf distinct closed run (List.cons_ne_nil first rest)
            obtain ⟨start, inner, same⟩ := isCycle.split
            have member : start ∈ cycleOf (first :: rest) := same ▸ List.mem_concat_self ..
            exact absurd (isCycle.dependsOn member member) (acyclic start)

/-- The last setting is read twice by the first one, which therefore counts it twice. -/
def twiceReadSettings : List Setting :=
  [(Setting.declare "c" .text).derive ["a", "a"] fun _ => pure none, .declare "b" .text,
    .declare "a" .text]

/-- The setting in the middle waits for nothing and is taken first. -/
theorem twiceReadSettings_order :
    ∃ schema, build twiceReadSettings = .ok schema ∧
      schema.order.map (·.name) = ["b", "a", "c"] ∧
      (∀ order, order.Perm twiceReadSettings → DependenciesFirst order →
        schema.order = order ∨ List.Lex
          (fun a b => place twiceReadSettings a < place twiceReadSettings b) schema.order order) ∧
      ∀ name, ¬DependsOn twiceReadSettings name name := by
  have distinct : (twiceReadSettings.map (·.name)).Nodup := by decide
  have closed : Closed twiceReadSettings := by unfold Closed; decide
  have accepted : ∃ schema, build twiceReadSettings = .ok schema ∧
      schema.order.map (·.name) = ["b", "a", "c"] := ⟨_, rfl, rfl⟩
  obtain ⟨schema, isSchema, names⟩ := accepted
  obtain ⟨_, _, least, _⟩ := (build_order twiceReadSettings).1 schema isSchema
  exact ⟨schema, isSchema, names, least,
    ((build_order twiceReadSettings).2 distinct closed).mp ⟨schema, isSchema⟩⟩

end HubKeeper.Schema
