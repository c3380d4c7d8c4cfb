import HubKeeper.Proofs.Settings.Constraints
import HubKeeper.Proofs.Settings.Locality
import Mathlib.Data.List.Forall2

/-!
What errors and renderings tell of a setting that is never shown.

Two stacks of layers that differ in the raw value of one such setting are resolved side by
side.  Where both fail on it at the same check, the messages are the same but for what the
check discloses: the kind of a derived value, and the member of a collection that a
constraint quotes.  Where both succeed, the renderings are the same.
-/

namespace HubKeeper

theorem Error.message_invalidSetting (name value constraint : String) :
    (invalidSetting name value constraint).message =
      "Invalid value for setting '" ++ name ++ "' (" ++ value ++ "): " ++ constraint := rfl

/-! ### Failing on a setting -/

inductive Check
  | coercion
  | kind
  | constraint (which : StandardValidator)
deriving DecidableEq

/-- A failed check, with the derived kind or the value it failed on. -/
inductive Fault
  | coercion
  | kind (derived : Kind)
  | constraint (which : StandardValidator) (value : Value)

namespace Fault

def check : Fault → Check
  | coercion => .coercion
  | kind _ => .kind
  | constraint which _ => .constraint which

/-- What a message tells of the value that is not shown. -/
def disclosed : Fault → Option String
  | coercion => none
  | kind derived => some derived.title
  | constraint which value => which.quoted value

end Fault

namespace Setting

variable {setting : Setting} {layers : List Layer} {probe : HostProbe} {values others : Dict Value}

/-- A setting fails a check, given the values of its dependencies. -/
inductive Breaks (setting : Setting) (layers : List Layer) (probe : HostProbe)
    (values : Dict Value) : Fault → String → Prop
  | coercion (supplied : Layer.Supplies setting.name layers raw)
      (refused : setting.kind.coerce? raw = none) :
      Breaks setting layers probe values .coercion ("expected a " ++ setting.kind.title)
  | kind (starts : setting.Starts layers probe values start)
      (normalizes : setting.Normalizes probe values start (some value))
      (other : value.kind ≠ setting.kind) :
      Breaks setting layers probe values (.kind value.kind)
        ("expected a " ++ setting.kind.title ++ ", derived a " ++ value.kind.title)
  | constraint (starts : setting.Starts layers probe values start)
      (normalizes : setting.Normalizes probe values start (some value))
      (fits : value.kind = setting.kind) (checked : setting.validator = some which.validator)
      (broken : which.validator value = .error constraint) :
      Breaks setting layers probe values (.constraint which value) constraint

theorem evaluate_of_breaks (sensitive : setting.sensitive = true)
    (breaks : setting.Breaks layers probe values fault constraint) :
    (setting.evaluate (Layer.winner? layers setting.name) values probe).result =
      .error (.invalidSetting setting.name redactedText constraint) := by
  have failsLate {start : Option Value} {value : Value}
      (starts : setting.Starts layers probe values start)
      (normalizes : setting.Normalizes probe values start (some value))
      (checked : setting.check value =
        .error (.invalidSetting setting.name redactedText constraint)) :
      (setting.evaluate (Layer.winner? layers setting.name) values probe).result =
        .error (.invalidSetting setting.name redactedText constraint) := by
    simp only [evaluate, Probed.result_bind]
    simp only [initial_ok_iff.mpr starts, normalized_ok_iff.mpr normalizes, bind, Except.bind]
    show setting.settled (some value) = _
    rw [settled, checked]
    rfl
  cases breaks with
  | coercion supplied refused =>
      simp only [evaluate, Probed.result_bind]
      simp only [initial, Layer.winner?_eq_some_iff.mpr supplied, Kind.coerce, refused, redact,
        sensitive, if_true, Probed.error, bind, Except.bind]
  | kind starts normalizes other =>
      refine failsLate starts normalizes ?_
      simp only [check, if_pos other, shownValue, sensitive, if_true]
  | constraint starts normalizes fits checked broken =>
      refine failsLate starts normalizes ?_
      simp only [check, fits, ne_eq, not_true_eq_false, if_false, checked, broken, shownValue,
        sensitive, if_true]

/-- Two faults at one check are told in the same words if they disclose the same. -/
theorem Breaks.constraint_eq_iff {left right : List Layer}
    (leftBreaks : setting.Breaks left probe values leftFault leftConstraint)
    (rightBreaks : setting.Breaks right probe others rightFault rightConstraint)
    (sameCheck : leftFault.check = rightFault.check) :
    leftConstraint = rightConstraint ↔ leftFault.disclosed = rightFault.disclosed := by
  cases leftBreaks with
  | coercion _ _ =>
      cases rightBreaks with
      | coercion _ _ => exact iff_of_true rfl rfl
      | kind _ _ _ => cases sameCheck
      | constraint _ _ _ _ _ => cases sameCheck
  | kind _ _ _ =>
      cases rightBreaks with
      | coercion _ _ => cases sameCheck
      | kind _ _ _ => simp [Fault.disclosed]
      | constraint _ _ _ _ _ => cases sameCheck
  | constraint _ _ leftFits _ leftBroken =>
      cases rightBreaks with
      | coercion _ _ => cases sameCheck
      | kind _ _ _ => cases sameCheck
      | constraint _ _ rightFits _ rightBroken =>
          cases sameCheck
          exact StandardValidator.constraint_eq_iff (leftFits.trans rightFits.symm) leftBroken
            rightBroken

theorem Satisfied.isSome (satisfied : setting.Satisfied layers probe values)
    (supplied : Layer.Supplies setting.name layers raw) :
    (values.get? setting.name).isSome = true := by
  obtain ⟨start, starts, normalizes, _⟩ := satisfied
  obtain ⟨value, _, rfl⟩ := (starts_iff_of_supplies supplied).mp starts
  generalize values.get? setting.name = outcome at normalizes
  cases normalizes <;> rfl

end Setting

/-! ### Two stacks of layers -/

/-- Two layers differ in one name at most. -/
structure Layer.AgreesBut (name : String) (left right : Layer) : Prop where
  named : left.name = right.name
  agrees : ∀ other, other ≠ name → left.values.get? other = right.values.get? other

theorem Layer.winner?_eq_of_agreesBut {left right : List Layer} {name other : String}
    (twins : List.Forall₂ (Layer.AgreesBut name) left right) (different : other ≠ name) :
    winner? left other = winner? right other := by
  induction twins with
  | nil => rfl
  | cons layers _ ih =>
      simp only [winner?, List.findSome?_cons, layers.agrees other different] at ih ⊢
      rw [ih]

namespace Schema

variable {schema : Schema} {setting : Setting} {left right : List Layer} {probe : HostProbe}

/-- Resolution gets to a setting and fails a check there. -/
inductive FailsOn (schema : Schema) (probe : HostProbe) (layers : List Layer)
    (setting : Setting) (fault : Fault) (constraint : String) : Prop
  | intro (declared : Layer.undeclared? schema layers = none)
      (order : schema.order = before ++ setting :: after)
      (reached : (evaluateAll layers probe before .empty).result = .ok values)
      (breaks : setting.Breaks layers probe values fault constraint)

theorem evaluateAll_append {layers : List Layer} (before after : List Setting)
    (values : Dict Value) :
    (evaluateAll layers probe (before ++ after) values).result =
      (evaluateAll layers probe before values).result >>= fun reached =>
        (evaluateAll layers probe after reached).result := by
  induction before generalizing values with
  | nil => rfl
  | cons first rest ih =>
      simp only [List.cons_append, evaluateAll, Probed.result_bind]
      cases (first.evaluate (Layer.winner? layers first.name) values probe).result with
      | error e => rfl
      | ok outcome =>
          cases outcome with
          | none => exact ih values
          | some value => exact ih _

theorem FailsOn.resolve {layers : List Layer} (sensitive : setting.sensitive = true)
    (fails : schema.FailsOn probe layers setting fault constraint) :
    (schema.resolve probe layers).result =
      .error (.invalidSetting setting.name redactedText constraint) := by
  obtain ⟨declared, order, reached, breaks⟩ := fails
  simp only [Schema.resolve, declared, Probed.result_bind, order, evaluateAll_append, reached,
    evaluateAll]
  simp only [Setting.evaluate_of_breaks sensitive breaks, bind, Except.bind]

end Schema

/-! ### Renderings -/

namespace Snapshot

theorem listing_eq (snapshot : Snapshot) :
    snapshot.listing = Text.braced ((snapshot.values.map fun name value =>
      if snapshot.isSensitive name then Text.listed redactedText else value.listing).entries.map
        fun entry => Text.listed entry.1 ++ ": " ++ entry.2) := by
  simp only [listing, Dict.map, List.map_map, Function.comp_def]

/-- A rendering that hides a name is the same of values that differ there. -/
theorem map_eq_of_hidden {left right : Dict Value} {name : String} {shown : String → Value → α}
    (agree : ∀ other, other ≠ name → left.get? other = right.get? other)
    (leftPresent : (left.get? name).isSome = true) (rightPresent : (right.get? name).isSome = true)
    (hidden : ∀ value other, shown name value = shown name other) :
    left.map shown = right.map shown := by
  refine Dict.ext_get? fun key => ?_
  rw [Dict.get?_map, Dict.get?_map]
  by_cases same : key = name
  · subst same
    obtain ⟨leftValue, leftFound⟩ := Option.isSome_iff_exists.mp leftPresent
    obtain ⟨rightValue, rightFound⟩ := Option.isSome_iff_exists.mp rightPresent
    rw [leftFound, rightFound, Option.map_some, Option.map_some, hidden leftValue rightValue]
  · rw [agree key same]

theorem renderings_eq {left right : Snapshot} {name : String}
    (sensitive : left.sensitive = right.sensitive) (isHidden : right.isSensitive name = true)
    (agree : ∀ other, other ≠ name → left.values.get? other = right.values.get? other)
    (leftPresent : (left.values.get? name).isSome = true)
    (rightPresent : (right.values.get? name).isSome = true) :
    left.toRedactedJson = right.toRedactedJson ∧ left.listing = right.listing := by
  have sameHidden : left.isSensitive = right.isSensitive := by
    funext other
    simp only [isSensitive, sensitive]
  constructor
  · rw [toRedactedJson, toRedactedJson, sameHidden]
    exact congrArg Json.ofDict (map_eq_of_hidden agree leftPresent rightPresent fun _ _ => by
      simp only [isHidden, if_true])
  · rw [listing_eq, listing_eq, sameHidden,
      map_eq_of_hidden agree leftPresent rightPresent fun _ _ => by simp only [isHidden, if_true]]

end Snapshot

namespace Schema

theorem mem_sensitiveNames {schema : Schema} {setting : Setting}
    (member : setting ∈ schema.settings) (sensitive : setting.sensitive = true) :
    setting.name ∈ schema.sensitiveNames.items :=
  TextSet.mem_ofList.mpr
    (List.mem_map_of_mem (List.mem_filter.mpr ⟨member, by simpa using sensitive⟩))

/-- Of two stacks that differ in a sensitive setting only, errors at one check differ exactly
in what the check discloses, and the renderings of what they resolve to are the same. -/
theorem redacted_resolutions {settings : List Setting} {schema : Schema} {setting : Setting}
    {left right : List Layer} {leftRaw rightRaw : Json}
    (accepted : Schema.build settings = .ok schema) (member : setting ∈ settings)
    (sensitive : setting.sensitive = true)
    (unread : ∀ other ∈ settings, other.name ≠ setting.name → setting.name ∉ other.dependencies)
    (twins : List.Forall₂ (Layer.AgreesBut setting.name) left right)
    (leftSupplied : Layer.Supplies setting.name left leftRaw)
    (rightSupplied : Layer.Supplies setting.name right rightRaw) (probe : HostProbe) :
    (∀ leftFault leftConstraint rightFault rightConstraint,
      schema.FailsOn probe left setting leftFault leftConstraint →
      schema.FailsOn probe right setting rightFault rightConstraint →
      leftFault.check = rightFault.check →
        ∃ leftError rightError, (schema.resolve probe left).result = .error leftError ∧
          (schema.resolve probe right).result = .error rightError ∧
          (leftError.message = rightError.message ↔
            leftFault.disclosed = rightFault.disclosed)) ∧
    ∀ leftSnapshot rightSnapshot, (schema.resolve probe left).result = .ok leftSnapshot →
      (schema.resolve probe right).result = .ok rightSnapshot →
        leftSnapshot.toRedactedJson = rightSnapshot.toRedactedJson ∧
          leftSnapshot.listing = rightSnapshot.listing := by
  have wellOrdered := build_wellOrdered accepted
  have same := build_settings accepted
  subst same
  refine ⟨?_, ?_⟩
  · intro leftFault leftConstraint rightFault rightConstraint leftFails rightFails sameCheck
    refine ⟨_, _, leftFails.resolve sensitive, rightFails.resolve sensitive, ?_⟩
    obtain ⟨_, _, _, leftBreaks⟩ := leftFails
    obtain ⟨_, _, _, rightBreaks⟩ := rightFails
    rw [← leftBreaks.constraint_eq_iff rightBreaks sameCheck, Error.message_invalidSetting,
      Error.message_invalidSetting, String.append_right_inj]
  · intro leftSnapshot rightSnapshot leftResolved rightResolved
    have leftHidden := (resolve_ok leftResolved).1
    have rightHidden := (resolve_ok rightResolved).1
    have leftSolution := solution_of_resolve wellOrdered leftResolved
    have rightSolution := solution_of_resolve wellOrdered rightResolved
    refine Snapshot.renderings_eq (leftHidden.trans rightHidden.symm) ?_ (fun other different => ?_)
      ((leftSolution.satisfied setting member).isSome leftSupplied)
      ((rightSolution.satisfied setting member).isSome rightSupplied)
    · simpa [Snapshot.isSensitive, rightHidden] using mem_sensitiveNames member sensitive
    · refine Solution.agree (· ≠ setting.name) wellOrdered ?_ (fun other _ apart raw => ?_)
        leftSolution rightSolution different
      · rintro other listed apart read reads rfl
        exact unread other listed apart reads
      · rw [← Layer.winner?_eq_some_iff, ← Layer.winner?_eq_some_iff,
          Layer.winner?_eq_of_agreesBut twins apart]

def hiddenHosts : Setting :=
  ((Setting.declare "hosts" .textSet).validate .hostNames).secret

def hostLayers (host : String) : List Layer :=
  [⟨"overrides", ⟨[("hosts", .arr [.str host])], by simp [AscendingKeys]⟩⟩]

theorem hiddenHosts_build : build [hiddenHosts] = .ok ⟨[hiddenHosts], [hiddenHosts]⟩ := rfl

theorem hostLayers_supplies (host : String) :
    Layer.Supplies hiddenHosts.name (hostLayers host) (.arr [.str host]) :=
  .here rfl rfl

theorem hostLayers_agreesBut (left right : String) :
    List.Forall₂ (Layer.AgreesBut hiddenHosts.name) (hostLayers left) (hostLayers right) := by
  refine .cons ⟨rfl, fun other different => ?_⟩ .nil
  have absent : other ≠ "hosts" := different
  simp [Dict.get?, lookupEntry, absent]

theorem hiddenHosts_failsOn (host : String) (refused : Validator.isHostName host = false) :
    FailsOn ⟨[hiddenHosts], [hiddenHosts]⟩ (.fixed none none) (hostLayers host) hiddenHosts
      (.constraint .hostNames (.textSet (.ofList [host])))
      ("'" ++ host ++ "' is not a host name or DNS name") := by
  have found : (TextSet.ofList [host]).items.find? (fun host => !Validator.isHostName host) =
      some host := by
    show [host].find? _ = _
    simp [refused]
  have order : [hiddenHosts] = [] ++ hiddenHosts :: [] := rfl
  refine .intro rfl order rfl (.constraint (.supplied (hostLayers_supplies host) rfl)
    (.kept rfl) rfl rfl ?_)
  simp only [StandardValidator.validator, Validator.hostNames, found]

def hostSnapshot (host : String) : Snapshot :=
  ⟨⟨[("hosts", .textSet (.ofList [host]))], by simp [AscendingKeys]⟩, .ofList ["hosts"]⟩

/-- Refused hosts are told apart by their messages, accepted ones are not by renderings. -/
theorem hiddenHosts_redacted :
    (∃ left right : Error,
      (resolve ⟨[hiddenHosts], [hiddenHosts]⟩ (.fixed none none) (hostLayers "s3cret!")).result =
          .error left ∧
        (resolve ⟨[hiddenHosts], [hiddenHosts]⟩ (.fixed none none) (hostLayers "0ther!")).result =
          .error right ∧
        (left.message = right.message ↔ some "s3cret!" = some "0ther!")) ∧
    (resolve ⟨[hiddenHosts], [hiddenHosts]⟩ (.fixed none none) (hostLayers "box")).result =
        .ok (hostSnapshot "box") ∧
      (resolve ⟨[hiddenHosts], [hiddenHosts]⟩ (.fixed none none) (hostLayers "nas")).result =
        .ok (hostSnapshot "nas") ∧
      (hostSnapshot "box").toRedactedJson = (hostSnapshot "nas").toRedactedJson ∧
      (hostSnapshot "box").listing = (hostSnapshot "nas").listing := by
  have unread : ∀ other ∈ [hiddenHosts], other.name ≠ hiddenHosts.name →
      hiddenHosts.name ∉ other.dependencies := by decide
  refine ⟨?_, rfl, rfl, ?_⟩
  · exact (redacted_resolutions hiddenHosts_build List.mem_cons_self rfl unread
      (hostLayers_agreesBut _ _) (hostLayers_supplies _) (hostLayers_supplies _) _).1 _ _ _ _
      (hiddenHosts_failsOn "s3cret!" (by decide +kernel))
      (hiddenHosts_failsOn "0ther!" (by decide +kernel)) rfl
  · exact (redacted_resolutions hiddenHosts_build List.mem_cons_self rfl unread
      (hostLayers_agreesBut "box" "nas") (hostLayers_supplies "box") (hostLayers_supplies "nas")
      (.fixed none none)).2 (hostSnapshot "box") (hostSnapshot "nas") rfl rfl

theorem hiddenHosts_disclosed :
    ¬∀ (settings : List Setting) (schema : Schema) (setting : Setting) (left right : List Layer)
      (leftRaw rightRaw : Json) (probe : HostProbe) (leftFault rightFault : Fault)
      (leftConstraint rightConstraint : String) (leftError rightError : Error),
      Schema.build settings = .ok schema → setting ∈ settings → setting.sensitive = true →
      (∀ other ∈ settings, other.name ≠ setting.name → setting.name ∉ other.dependencies) →
      List.Forall₂ (Layer.AgreesBut setting.name) left right →
      Layer.Supplies setting.name left leftRaw → Layer.Supplies setting.name right rightRaw →
      schema.FailsOn probe left setting leftFault leftConstraint →
      schema.FailsOn probe right setting rightFault rightConstraint →
      leftFault.check = rightFault.check →
      (schema.resolve probe left).result = .error leftError →
      (schema.resolve probe right).result = .error rightError →
        leftError.message = rightError.message := by
  intro claim
  have first := hiddenHosts_failsOn "s3cret!" (by decide +kernel)
  have second := hiddenHosts_failsOn "0ther!" (by decide +kernel)
  have same := claim _ _ hiddenHosts _ _ _ _ _ _ _ _ _ _ _ hiddenHosts_build List.mem_cons_self
    rfl (by decide) (hostLayers_agreesBut _ _) (hostLayers_supplies _) (hostLayers_supplies _)
    first second rfl (first.resolve rfl) (second.resolve rfl)
  revert same
  decide +kernel

end Schema

end HubKeeper
