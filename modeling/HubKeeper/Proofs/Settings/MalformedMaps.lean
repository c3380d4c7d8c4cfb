import HubKeeper.Proofs.Settings.Coercion
import HubKeeper.Proofs.Settings.Refusal
import HubKeeper.Proofs.Settings.Variables

/-!
Texts for maps that write no object.

Alone, such a text is the raw value of the map: coercion refuses it unless there are only blanks
around an object that JSON does not know.  Next to variables for entries it is dropped, and the map
starts from the entries as if the variable for the whole map were not there.
-/

namespace HubKeeper

namespace Schema

/-- A resolution fails on a name, or on a setting that is evaluated before a certain one. -/
inductive FailsBefore (schema : Schema) (probe : HostProbe) (layers : List Layer)
    (setting : Setting) : Error → Prop
  | undeclared (refused : Layer.undeclared? schema layers = some (layer, name)) :
      FailsBefore schema probe layers setting
        (.unknownSetting name ("supplied by " ++ layer ++ " but not a known setting"))
  | earlier (order : schema.order = before ++ setting :: after)
      (failed : (evaluateAll layers probe before .empty).result = .error e) :
      FailsBefore schema probe layers setting e

variable {schema : Schema} {setting : Setting} {layers : List Layer} {probe : HostProbe}
  {own : Error}

/-- A resolution gets no further than a setting that cannot be evaluated. -/
theorem resolve_error_of_evaluate (listed : setting ∈ schema.order)
    (fails : ∀ values, (setting.evaluate (Layer.winner? layers setting.name) values probe).result =
      .error own) :
    ∃ e, (schema.resolve probe layers).result = .error e ∧
      (schema.FailsBefore probe layers setting e ∨ e = own) := by
  obtain ⟨before, after, order⟩ := List.append_of_mem listed
  cases refused : Layer.undeclared? schema layers with
  | some refusal => exact ⟨_, by rw [resolve, refused]; rfl, .inl (.undeclared refused)⟩
  | none =>
      have passed {e : Error} (failed : (evaluateAll layers probe schema.order .empty).result =
          .error e) : (schema.resolve probe layers).result = .error e := by
        simp only [resolve, refused, Probed.result_bind, failed]
        rfl
      cases evaluated : (evaluateAll layers probe before .empty).result with
      | error e =>
          obtain ⟨early, other, late, reached, split, done, failed⟩ :=
            evaluateAll_error_iff.mp evaluated
          refine ⟨e, passed (evaluateAll_error_iff.mpr ⟨early, other, late ++ setting :: after,
            reached, by simp [order, split], done, failed⟩), .inl (.earlier order evaluated)⟩
      | ok reached =>
          exact ⟨own, passed (evaluateAll_error_iff.mpr ⟨before, setting, after, reached, order,
            evaluated, fails reached⟩), .inr rfl⟩

end Schema

theorem Setting.evaluate_refused {setting : Setting} {raw : Json}
    (refused : setting.kind.coerce? raw = none) (values : Dict Value) (probe : HostProbe) :
    (setting.evaluate (some raw) values probe).result =
      .error (.invalidSetting setting.name
        (if setting.sensitive then redactedText else raw.shortText)
        ("expected a " ++ setting.kind.title)) := by
  simp only [evaluate, initial, Kind.coerce, refused, redact, Probed.result_bind]
  rfl

namespace Environment

variable {schema : Schema} {lead : String} {vars : List (String × String)} {name text : String}

theorem withEntries_of_objectFields (unread : objectFields text = []) (inner : Dict String) :
    withEntries (some text) inner = (Value.textMap inner).toJson := by
  obtain ⟨fields, whole, looked⟩ := exists_withEntries (some text) inner
  have same : fields = inner.map fun _ s => .str s := by
    refine Dict.ext_get? fun key => ?_
    rw [looked, Dict.get?_map]
    simp [unread, lookupEntry]
  rw [whole, same]
  rfl

/-- The variables that do not aim at a certain whole setting. -/
def withoutText (schema : Schema) (lead name : String) (vars : List (String × String)) :
    List (String × String) :=
  vars.filter fun assignment => target schema lead.toList assignment.1.toList != .setting name

theorem withoutText_concat (assignment : String × String) :
    withoutText schema lead name (vars ++ [assignment]) =
      if target schema lead.toList assignment.1.toList = .setting name then
        withoutText schema lead name vars
      else withoutText schema lead name vars ++ [assignment] := by
  rw [withoutText, List.filter_append, ← withoutText]
  split
  · rename_i aim
    simp [aim]
  · rename_i aim
    simp [aim]

theorem supplied_withoutText : supplied schema lead (withoutText schema lead name vars) =
    ⟨(supplied schema lead vars).texts.erase name, (supplied schema lead vars).entries⟩ := by
  induction vars using List.reverseRecOn with
  | nil => rfl
  | append_singleton earlier assignment ih =>
      rw [withoutText_concat, supplied_concat]
      cases aim : target schema lead.toList assignment.1.toList with
      | nothing => simp [aim, Supplied.add, supplied_concat, ih]
      | entry own key => simp [aim, Supplied.add, supplied_concat, ih]
      | setting own =>
          by_cases same : own = name
          · simp [aim, Supplied.add, same, ih, Dict.erase_insert_self]
          · simp [aim, Supplied.add, same, supplied_concat, ih, Dict.erase_insert_of_ne same]

/-- Next to entries, a text that writes no object might as well not be there. -/
theorem values_withoutText (plain : LastValue (AimsAt schema lead (.setting name)) vars text)
    (unread : objectFields text = [])
    (keyed : ∃ assignment ∈ vars, ∃ key, AimsAt schema lead (.entry name key) assignment.1) :
    values schema lead (withoutText schema lead name vars) = values schema lead vars := by
  obtain ⟨inner, found⟩ := Option.isSome_iff_exists.mp (isSome_entries_iff.mpr keyed)
  refine Dict.ext_get? fun other => ?_
  rw [get?_values, get?_values, supplied_withoutText, Dict.get?_erase]
  split
  · rename_i same
    subst same
    have bare : withEntries none inner = withEntries (some text) inner := by
      simp only [withEntries, unread]
    rw [get?_texts_iff.mpr plain, found, Option.map_some, Option.map_some, Option.some_or,
      Option.some_or, bare]
  · rfl

/-- What variables supply, those of the process or of a dotenv file, between other layers. -/
def stacked (above : List Layer) (source : String) (schema : Schema) (lead : String)
    (vars : List (String × String)) (below : List Layer) : List Layer :=
  above ++ ⟨source, values schema lead vars⟩ :: below

section Stacked

variable {setting : Setting} {above below : List Layer} {source : String} {raw : Json}

theorem supplies_stacked (unsupplied : ∀ json, ¬ Layer.Supplies name above json)
    (found : (values schema lead vars).get? name = some raw) (present : raw.isNull = false) :
    Layer.Supplies name (stacked above source schema lead vars below) raw :=
  (Layer.supplies_append unsupplied).mpr (.here found present)

theorem get?_values_of_text (plain : LastValue (AimsAt schema lead (.setting name)) vars text)
    (alone : ∀ assignment ∈ vars, ∀ key, ¬ AimsAt schema lead (.entry name key) assignment.1) :
    (values schema lead vars).get? name = some (.str text) := by
  have bare : (supplied schema lead vars).entries.get? name = none := by
    rw [← Option.not_isSome_iff_eq_none, isSome_entries_iff]
    rintro ⟨assignment, member, key, aimed⟩
    exact alone assignment member key aimed
  rw [get?_values, bare, get?_texts_iff.mpr plain]
  rfl

theorem get?_values_of_entries
    (plain : LastValue (AimsAt schema lead (.setting name)) vars text)
    (unread : objectFields text = [])
    (keyed : ∃ assignment ∈ vars, ∃ key, AimsAt schema lead (.entry name key) assignment.1) :
    ∃ entries : Dict String,
      (values schema lead vars).get? name = some (Value.textMap entries).toJson ∧
      ∀ key value, entries.get? key = some value ↔
        LastValue (AimsAt schema lead (.entry name key)) vars value := by
  obtain ⟨inner, found⟩ := Option.isSome_iff_exists.mp (isSome_entries_iff.mpr keyed)
  refine ⟨inner, ?_, fun key value => get?_entries_iff found⟩
  rw [get?_values, found, get?_texts_iff.mpr plain, Option.map_some,
    withEntries_of_objectFields unread]
  rfl

/-- A map whose value comes from variables, and whose text writes no object.  Without entries the
text is coerced like any other, and refused unless taking off blanks leaves an object of scalars.
With entries it is dropped. -/
theorem malformed_map (settings : List Setting) (schema : Schema) (setting : Setting)
    (name source lead text : String) (vars : List (String × String)) (above below : List Layer)
    (accepted : Schema.build settings = .ok schema) (known : schema.get? name = some setting)
    (isMap : setting.kind = .textMap) (unsupplied : ∀ json, ¬ Layer.Supplies name above json)
    (plain : LastValue (AimsAt schema lead (.setting name)) vars text)
    (malformed : ∀ fields, Json.parse? text ≠ some (.obj fields)) :
    ((∀ assignment ∈ vars, ∀ key, ¬ AimsAt schema lead (.entry name key) assignment.1) →
      ((Json.str text).textMap? = none → ∀ probe, ∃ e,
        (schema.resolve probe (stacked above source schema lead vars below)).result = .error e ∧
        (schema.FailsBefore probe (stacked above source schema lead vars below) setting e ∨
          e = .invalidSetting name
            (if setting.sensitive then redactedText else (Json.str text).shortText)
            "expected a string map")) ∧
      ∀ entries, (Json.str text).textMap? = some entries → ∀ probe reached,
        setting.Starts (stacked above source schema lead vars below) probe reached
          (some (.textMap entries))) ∧
    ((∃ assignment ∈ vars, ∃ key, AimsAt schema lead (.entry name key) assignment.1) →
      values schema lead (withoutText schema lead name vars) = values schema lead vars ∧
      ∃ entries : Dict String,
        (∀ key value, entries.get? key = some value ↔
          LastValue (AimsAt schema lead (.entry name key)) vars value) ∧
        ∀ probe reached, setting.Starts (stacked above source schema lead vars below) probe reached
          (some (.textMap entries))) := by
  obtain rfl : setting.name = name := by simpa using List.find?_some known
  refine ⟨fun alone => ?_, fun keyed => ?_⟩
  · have supplies : Layer.Supplies setting.name (stacked above source schema lead vars below)
        (.str text) := supplies_stacked unsupplied (get?_values_of_text plain alone) rfl
    refine ⟨fun refused probe => ?_, fun entries read probe reached => ?_⟩
    · have uncoerced : setting.kind.coerce? (.str text) = none := by
        simp [isMap, Kind.coerce?, refused]
      have listed : setting ∈ schema.order :=
        (Schema.build_wellOrdered accepted).complete.mem_iff.mpr (List.mem_of_find?_eq_some known)
      refine Schema.resolve_error_of_evaluate listed fun reached => ?_
      rw [Layer.winner?_eq_some_iff.mpr supplies, Setting.evaluate_refused uncoerced, isMap]
      rfl
    · exact .supplied supplies (by simp [isMap, Kind.coerce?, read])
  · have unread : objectFields text = [] := by
      unfold objectFields
      split
      · rename_i fields read
        exact absurd read (malformed fields)
      · rfl
    obtain ⟨entries, found, looked⟩ := get?_values_of_entries plain unread keyed
    have read : (Value.textMap entries).toJson.textMap? = some entries :=
      Json.objectTexts?_ofDict entries
    have coerced : setting.kind.coerce? (Value.textMap entries).toJson =
        some (.textMap entries) := by
      simp [isMap, Kind.coerce?, read]
    exact ⟨values_withoutText plain unread keyed, entries, looked,
      fun probe reached => .supplied (supplies_stacked unsupplied found rfl) coerced⟩

end Stacked

/-- A text for the map that writes no object, and an entry. -/
def unreadVariables : List (String × String) :=
  [("HUB_STACK_ENV", "A=1"), ("HUB_STACK_ENV__B", "2")]

theorem target_stackEnv : target stackSchema "HUB_".toList "HUB_STACK_ENV".toList =
    .setting "stack_env" := by
  cbv

theorem target_stackEnvEntry : target stackSchema "HUB_".toList "HUB_STACK_ENV__B".toList =
    .entry "stack_env" "B" := by
  cbv

theorem parse?_assignment : Json.parse? "A=1" = none := by
  cbv

theorem aloneText_refused :
    Schema.build stackSchema.settings = .ok stackSchema ∧
      (∀ json, ¬ Layer.Supplies "stack_env" [] json) ∧
      LastValue (AimsAt stackSchema "HUB_" (.setting "stack_env")) [("HUB_STACK_ENV", "A=1")]
        "A=1" ∧
      (∀ fields, Json.parse? "A=1" ≠ some (.obj fields)) ∧
      (Json.str "A=1").textMap? = none ∧
      ∀ probe, ∃ e, (stackSchema.resolve probe
          (stacked [] "environment" stackSchema "HUB_" [("HUB_STACK_ENV", "A=1")] [])).result =
        .error e ∧ (stackSchema.FailsBefore probe
          (stacked [] "environment" stackSchema "HUB_" [("HUB_STACK_ENV", "A=1")] [])
          (.declare "stack_env" .textMap) e ∨
        e = .invalidSetting "stack_env" "A=1" "expected a string map") := by
  have unsupplied : ∀ json, ¬ Layer.Supplies "stack_env" [] json := nofun
  have plain : LastValue (AimsAt stackSchema "HUB_" (.setting "stack_env"))
      [("HUB_STACK_ENV", "A=1")] "A=1" :=
    ⟨[], _, [], rfl, target_stackEnv, List.forall_mem_nil _⟩
  have malformed : ∀ fields, Json.parse? "A=1" ≠ some (.obj fields) := by
    simp [parse?_assignment]
  have refused : (Json.str "A=1").textMap? = none := by
    cbv
  have alone : ∀ assignment ∈ [("HUB_STACK_ENV", "A=1")], ∀ key,
      ¬ AimsAt stackSchema "HUB_" (.entry "stack_env" key) assignment.1 := by
    intro assignment member key aimed
    cases List.mem_singleton.mp member
    cases target_stackEnv.symm.trans aimed
  have outcome := (malformed_map stackSchema.settings stackSchema (.declare "stack_env" .textMap)
    "stack_env" "environment" "HUB_" "A=1" [("HUB_STACK_ENV", "A=1")] [] [] rfl rfl rfl unsupplied
    plain malformed).1 alone
  exact ⟨rfl, unsupplied, plain, malformed, refused, outcome.1 refused⟩

/-- The text is not read, and nobody is told. -/
theorem unreadVariables_resolved :
    Schema.build stackSchema.settings = .ok stackSchema ∧
      LastValue (AimsAt stackSchema "HUB_" (.setting "stack_env")) unreadVariables "A=1" ∧
      (∀ fields, Json.parse? "A=1" ≠ some (.obj fields)) ∧
      ∀ probe, (stackSchema.resolve probe [layer stackSchema "HUB_" unreadVariables]).result =
        .ok ⟨⟨[("stack_env", .textMap ⟨[("B", "2")], by decide⟩)], by decide⟩, .empty⟩ := by
  have supplies : values stackSchema "HUB_" unreadVariables =
      ⟨[("stack_env", .obj [("B", .str "2")])], by decide⟩ := by
    simp only [values, unreadVariables, List.foldl_cons, List.foldl_nil, Supplied.add,
      target_stackEnv, target_stackEnvEntry]
    refine Dict.ext ?_
    simp [withEntries, objectFields, parse?_assignment, Dict.insert, Dict.empty, Dict.map,
      Dict.get?, insertEntry, lookupEntry]
  refine ⟨rfl, ⟨[], _, [("HUB_STACK_ENV__B", "2")], rfl, target_stackEnv, ?_⟩, ?_, fun probe => ?_⟩
  · intro later member aimed
    cases List.mem_singleton.mp member
    cases target_stackEnvEntry.symm.trans aimed
  · simp [parse?_assignment]
  · rw [layer, supplies]
    rfl

end Environment

end HubKeeper
