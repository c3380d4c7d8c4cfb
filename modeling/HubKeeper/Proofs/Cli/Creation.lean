import HubKeeper.Cli.Run
import HubKeeper.Proofs.Dns.Grounds
import HubKeeper.Proofs.Dns.Placement
import HubKeeper.Proofs.Dns.SelfAlias
import HubKeeper.Proofs.Settings.Completeness

/-!
Creating a record from the settings alone.

Without options, a label is placed under the domain of the hub and made an alias of its
stable public name.  What the settings are checked for is enough for the reconciler: it
refuses neither the name nor the target nor the time to live, unless the name is the target
itself.
-/

namespace HubKeeper

/-- Errors about the request itself, which it meets again whenever it is repeated. -/
def Error.isRefusal : Error → Bool
  | .invalidInput _ | .config _ => true
  | _ => false

namespace Dns

namespace Dialogue

/-- Whether a dialogue whose calls are answered fails with certain errors only. -/
def FailsOnly (own : Error → Prop) : Dialogue α → Prop
  | .done result => ∀ e, result = .error e → own e
  | .ask _ next => ∀ answer, (next answer).FailsOnly own

variable {own : Error → Prop} {first dialogue : Dialogue α} {next : α → Dialogue β}

theorem FailsOnly.bind (firstOnly : first.FailsOnly own) (nextOnly : ∀ a, (next a).FailsOnly own) :
    (first >>= next).FailsOnly own := by
  induction first with
  | done result =>
      cases result with
      | error e =>
          rintro _ ⟨rfl⟩
          exact firstOnly e rfl
      | ok a => exact nextOnly a
  | ask call answered ih => exact fun answer => ih answer (firstOnly answer)

theorem failsOnly_call (own : Error → Prop) (call : Call) : (Dialogue.call call).FailsOnly own :=
  fun _ => nofun

theorem FailsOnly.transcript (failsOnly : dialogue.FailsOnly own)
    (said : dialogue.Transcript heard (.error e)) :
    own e ∨ ∃ call, ⟨call, .error e⟩ ∈ heard := by
  generalize isError : Except.error e = result at said
  induction said with
  | done result => exact .inl (failsOnly e isError.symm)
  | refused call failure =>
      cases isError
      exact .inr ⟨call, List.mem_singleton_self _⟩
  | answered call answer _ ih =>
      rcases ih (failsOnly answer) isError with own | ⟨call, refused⟩
      · exact .inl own
      · exact .inr ⟨call, List.mem_cons_of_mem _ refused⟩

end Dialogue

theorem chooseZone_error {zones : List Zone} (refused : chooseZone zones fqdn = .error e)
    (isRefusal : e.isRefusal = true) : ∃ zone ∈ zones, zone.apex = fqdn := by
  simp only [chooseZone] at refused
  split at refused
  · cases refused
    cases isRefusal
  · rename_i zone longest
    split at refused
    · rename_i same
      exact ⟨zone, (List.mem_filter.mp (mem_of_longest? longest)).1, same⟩
    · cases refused

theorem soleRecord_error {records : List Record} (failed : soleRecord fqdn records = .error e) :
    e.isRefusal = false := by
  simp only [soleRecord] at failed
  split at failed <;> cases failed
  rfl

namespace Reconciliation

theorem planUpdate_error {desired : Record} (failed : planUpdate policy present desired = .error e) :
    e.isRefusal = false := by
  simp only [planUpdate] at failed
  repeat' split at failed
  all_goals cases failed
  all_goals rfl

theorem findZone_refused (said : (findZone fqdn).Transcript heard (.error e))
    (isRefusal : e.isRefusal = true) :
    (∃ call, ⟨call, .error e⟩ ∈ heard) ∨
      ∃ zones : List Zone, ⟨.listZones, .ok zones⟩ ∈ heard ∧ ∃ zone ∈ zones, zone.apex = fqdn := by
  rcases said.of_bind with ⟨_, failed, ⟨rfl⟩⟩ | ⟨zones, before, after, rfl, listed, chosen⟩
  · exact .inl (((Dialogue.failsOnly_call (fun _ => False) _).transcript failed).resolve_left id)
  · have heardZones : ⟨.listZones, .ok zones⟩ ∈ before ++ after := by
      rw [listed.of_call]
      exact List.mem_cons_self
    exact .inr ⟨zones, heardZones, chooseZone_error chosen.of_done.2.symm isRefusal⟩

theorem failsOnly_findRecord (zone : Zone) (fqdn : String) :
    (findRecord zone fqdn).FailsOnly (·.isRefusal = false) :=
  (Dialogue.failsOnly_call _ _).bind fun _ _ => soleRecord_error

theorem failsOnly_carryOut (zone : Zone) (plan : Plan) :
    (carryOut zone plan).FailsOnly (·.isRefusal = false) := by
  cases plan with
  | settled outcome => exact nofun
  | change batch outcome => exact (Dialogue.failsOnly_call _ _).bind fun _ => nofun

/-- A request with an acceptable name, target and policy is refused by the account only, or
because the name is that of a zone. -/
theorem createOrUpdate_refused {name target : String} {policy : Policy}
    (valid : policy.validate = .ok ()) (unverified : policy.verifyTarget = false)
    (normalized : normalizeName name = .ok fqdn)
    (classified : ∀ zone, ∃ value, classifyTarget zone target = .ok (.canonicalName, value) ∧
      value ≠ fqdn)
    (said : (createOrUpdate name target policy).Transcript heard (.error e))
    (isRefusal : e.isRefusal = true) :
    (∃ call, ⟨call, .error e⟩ ∈ heard) ∨
      ∃ zones : List Zone, ⟨.listZones, .ok zones⟩ ∈ heard ∧ ∃ zone ∈ zones, zone.apex = fqdn := by
  have byCall : ∀ {heard : List Exchange},
      e.isRefusal = false ∨ (∃ call, ⟨call, .error e⟩ ∈ heard) →
        ∃ call, ⟨call, .error e⟩ ∈ heard := fun failed =>
    failed.resolve_left (by simp [isRefusal])
  rcases said.of_bind with ⟨_, failed, ⟨rfl⟩⟩ | ⟨_, before, after, rfl, _, carried⟩
  · simp only [decideUpdate, valid, normalized, Dialogue.lift_eq, Dialogue.done_ok_bind] at failed
    rcases failed.of_bind with ⟨_, unfound, ⟨rfl⟩⟩ | ⟨zone, before, after, rfl, _, read⟩
    · exact findZone_refused unfound isRefusal
    · obtain ⟨value, isAlias, different⟩ := classified zone
      simp only [isAlias, Dialogue.done_ok_bind, different, and_false, if_false, unverified,
        Bool.false_eq_true] at read
      have onlyReads : (do
          let present ← findRecord zone fqdn
          let plan ← planUpdate policy present ⟨fqdn, .canonicalName, policy.ttl, value, none⟩
          return (zone, plan)).FailsOnly (·.isRefusal = false) :=
        (failsOnly_findRecord zone fqdn).bind fun _ => .bind (fun _ => planUpdate_error) fun _ => nofun
      obtain ⟨call, refused⟩ := byCall (onlyReads.transcript read)
      exact .inl ⟨call, List.mem_append_right _ refused⟩
  · obtain ⟨call, refused⟩ := byCall ((failsOnly_carryOut _ _).transcript carried)
    exact .inl ⟨call, List.mem_append_right _ refused⟩

end Reconciliation

end Dns

/-! ### What the settings are checked for -/

theorem Setting.Admits.text {setting : Setting} {value : Value} {test : String → Bool}
    (admits : setting.Admits value)
    (validator : setting.validator = some (Validator.onText test constraint)) :
    ∃ s, value = .text s ∧ test s = true := by
  have passed := admits.2 _ validator
  cases value with
  | text s =>
      simp only [Validator.onText] at passed
      split at passed
      · rename_i fits
        exact ⟨s, rfl, fits⟩
      · cases passed
  | _ => cases passed

theorem Setting.Admits.integer {setting : Setting} {value : Value} {low high : Int}
    (admits : setting.Admits value)
    (validator : setting.validator = some (Validator.between low high)) :
    ∃ n, value = .integer n ∧ low ≤ n ∧ n ≤ high := by
  have passed := admits.2 _ validator
  cases value with
  | integer n =>
      simp only [Validator.between] at passed
      split at passed
      · rename_i fits
        exact ⟨n, rfl, by simpa using fits⟩
      · cases passed
  | _ => cases passed

namespace Hub

section

variable {schema : Schema} {layers : List Layer} {probe : HostProbe} {snapshot : Snapshot}
variable (accepted : Hub.schema = .ok schema)
  (resolved : (schema.resolve probe layers).result = .ok snapshot)

include accepted resolved

/-- Every setting of the hub has a value that it admits. -/
theorem get?_admits {setting : Setting} (member : setting ∈ settings) :
    ∃ value, snapshot.get? setting.name = some value ∧ setting.Admits value := by
  have wellOrdered := Schema.build_wellOrdered accepted
  rw [← Schema.build_settings accepted] at member
  obtain ⟨value, found⟩ := Option.isSome_iff_exists.mp
    (isSome_get? accepted resolved setting.name (List.mem_map_of_mem member))
  obtain ⟨_, _, _, settles⟩ := (Schema.solution_of_resolve wellOrdered resolved).satisfied setting member
  rw [show snapshot.values.get? setting.name = some value from found] at settles
  exact ⟨value, found, settles⟩

theorem text?_parentDomain :
    ∃ parent, snapshot.text? "parent_dns_domain" = some parent ∧ Dns.isName parent = true := by
  have member : domainSettings[1] ∈ settings := by simp [settings]
  obtain ⟨value, found, admits⟩ := get?_admits accepted resolved member
  obtain ⟨parent, rfl, isName⟩ := admits.text rfl
  exact ⟨parent, congrArg (·.bind Value.asText?) found, isName⟩

theorem text?_stableName :
    ∃ stable, snapshot.text? "stable_public_dns_name" = some stable ∧ Dns.isName stable = true := by
  have member : nameSettings[0] ∈ settings := by simp [settings]
  obtain ⟨value, found, admits⟩ := get?_admits accepted resolved member
  obtain ⟨stable, rfl, isName⟩ := admits.text rfl
  exact ⟨stable, congrArg (·.bind Value.asText?) found, isName⟩

theorem integer?_ttl :
    ∃ ttl : Nat, snapshot.integer? "dns_ttl" = some (ttl : Int) ∧ 60 ≤ ttl ∧ ttl ≤ 86400 := by
  have member : hostSettings[3] ∈ settings := by simp [settings]
  obtain ⟨value, found, admits⟩ := get?_admits accepted resolved member
  obtain ⟨n, rfl, low, high⟩ := admits.integer rfl
  refine ⟨n.toNat, ?_, by omega, by omega⟩
  rw [Int.toNat_of_nonneg (by omega)]
  exact congrArg (·.bind Value.asInteger?) found

end

end Hub

namespace Cli

/-! ### The command -/

theorem Shape.of_isLabel {label : String} (isLabel : Dns.isLabel label = true) :
    Shape.of label = .plain := by
  have started : label.toList.head? ≠ some '-' := by
    simp only [Dns.isLabel, Dns.isLabelChars, Bool.and_eq_true, bne_iff_ne] at isLabel
    exact isLabel.1.1.2
  rw [Shape.of]
  split
  · rename_i chars
    exact absurd (congrArg List.head? chars) started
  · rename_i chars
    exact absurd (congrArg List.head? chars) started
  · rename_i chars
    exact absurd (congrArg List.head? chars) started
  · rfl

theorem readLevels_below {vars : Dict String} {depth : Nat}
    (level : readLevel path .nothing arguments = .ok (given, some (name, rest)))
    (read : readLevels vars (depth + 1) path arguments = .ok (command, levels)) :
    ∃ lower, readLevels vars depth (path ++ [name]) rest = .ok (command, lower) ∧
      levels = given :: lower := by
  simp only [readLevels, level, bind, Except.bind, pure, Except.pure] at read
  split at read
  · cases read
  · rename_i found below
    split at read
    · cases read
    · cases read
      exact ⟨found.2, below, rfl⟩

theorem readLevels_last {vars : Dict String} {depth : Nat}
    (level : readLevel path .nothing arguments = .ok (given, none))
    (read : readLevels vars (depth + 1) path arguments = .ok (command, levels)) :
    command = path ∧ levels = [given] := by
  simp only [readLevels, level, bind, Except.bind, pure, Except.pure] at read
  split at read
  · cases read
  · split at read
    · cases read
    · cases read
      exact ⟨rfl, rfl⟩

theorem readLevels_create {vars : Dict String} {label : String} (isLabel : Dns.isLabel label = true)
    (read : readLevels vars 3 [] ["dns", "create", label] = .ok (path, levels)) :
    path = ["dns", "create"] ∧ levels = [.nothing, .nothing, ⟨[], [], [label]⟩] := by
  have outer : readLevel [] .nothing ["dns", "create", label] =
      .ok (.nothing, some ("dns", ["create", label])) := rfl
  have middle : readLevel ["dns"] .nothing ["create", label] =
      .ok (.nothing, some ("create", [label])) := rfl
  have inner : readLevel ["dns", "create"] .nothing [label] = .ok (⟨[], [], [label]⟩, none) := by
    have noneBelow : commandsBelow ["dns", "create"] = [] := rfl
    simp only [readLevel, Shape.of_isLabel isLabel, noneBelow, List.contains_nil, Bool.false_eq_true,
      if_false, bne_self_eq_false, Bool.and_false]
    rfl
  obtain ⟨_, below, rfl⟩ := readLevels_below outer read
  obtain ⟨_, lowest, rfl⟩ := readLevels_below middle below
  obtain ⟨rfl, rfl⟩ := readLevels_last inner lowest
  exact ⟨rfl, rfl⟩

theorem parse_create {vars : Dict String} {label : String} (isLabel : Dns.isLabel label = true)
    (parsed : Invocation.parse vars ["dns", "create", label] = .ok invocation) :
    ∃ access, invocation.command = .createRecord label none none false true false access := by
  simp only [Invocation.parse, bind, Except.bind] at parsed
  split at parsed
  · cases parsed
  · rename_i found read
    obtain ⟨path, levels⟩ := found
    obtain ⟨rfl, rfl⟩ := readLevels_create isLabel read
    split at parsed
    · cases parsed
    · rename_i command isCommand
      cases parsed
      cases isCommand
      exact ⟨_, rfl⟩

theorem qualifyName_label {settings : Snapshot} {label : String} (isLabel : Dns.isLabel label = true)
    (parent : settings.text? "parent_dns_domain" = some domain) :
    qualifyName settings label = .ok (label ++ "." ++ domain) := by
  obtain ⟨_, plain⟩ := Dns.isLabel_plain isLabel
  have trimmed : Text.trimEndOf '.' (Text.trim label) = label := by
    rw [Text.trim_eq_self fun c member => (plain c member).2]
    exact Dns.trimEndOf_plain fun last => (plain '.' (List.mem_of_getLast? last)).1 rfl
  have bare : label.toList.contains '.' = false := by
    simpa using Dns.not_mem_of_isLabel isLabel
  simp only [qualifyName, trimmed, bare, parent]
  rfl

theorem defaultTtl_of_le {settings : Snapshot} {ttl : Nat}
    (found : settings.integer? "dns_ttl" = some (ttl : Int)) (high : ttl ≤ 86400) :
    defaultTtl settings = .ok ttl := by
  have fits : (0 ≤ (ttl : Int) && (ttl : Int) < UInt32.size) = true := by
    simp [UInt32.size]
    omega
  simp only [defaultTtl, found, fits, if_true, Int.toNat_natCast]

theorem validate_withTtl {ttl : Nat} (low : 60 ≤ ttl) (high : ttl ≤ 86400) :
    (Dns.Policy.default.withTtl ttl).validate = .ok () := by
  have inside : (decide ((Dns.Policy.default.withTtl ttl).ttl < 60) ||
      decide (86400 < (Dns.Policy.default.withTtl ttl).ttl)) = false := by
    rw [Bool.or_eq_false_iff, decide_eq_false_iff_not, decide_eq_false_iff_not]
    exact ⟨Nat.not_lt.mpr low, Nat.not_lt.mpr high⟩
  rw [Dns.Policy.validate, inside]
  rfl

/-- Whatever the settings of the hub resolve to, a label without options makes a request that
the reconciler accepts, unless it is that of the stable name. -/
theorem creation_accepted {schema : Schema} {layers : List Layer} {probe : HostProbe}
    {settings : Snapshot} {label : String} (accepted : Hub.schema = .ok schema)
    (resolved : (schema.resolve probe layers).result = .ok settings)
    (isLabel : Dns.isLabel label = true) :
    ∃ parent stable name fqdn ttl policy dialogue,
      settings.text? "parent_dns_domain" = some parent ∧
      settings.text? "stable_public_dns_name" = some stable ∧
      settings.integer? "dns_ttl" = some (Int.ofNat ttl) ∧
      (∀ vars invocation, Invocation.parse vars ["dns", "create", label] = .ok invocation →
        ∃ access, invocation.command = .createRecord label none none false true false access) ∧
      creation label none none false true false settings = .ok dialogue ∧
      dialogue = Dns.Reconciliation.createOrUpdate name stable policy ∧
      name = label ++ "." ++ parent ∧ qualifyName settings label = .ok name ∧
      Dns.normalizeName name = .ok fqdn ∧
      defaultTtl settings = .ok ttl ∧ ttl < UInt32.size ∧
      policy = Dns.Policy.default.withTtl ttl ∧ policy.validate = .ok () ∧
      targetOf settings none = .ok stable ∧
      (∀ zone, ∃ value, Dns.classifyTarget zone stable = .ok (.canonicalName, value) ∧
        (value = fqdn ↔ Dns.Alike name stable)) ∧
      (¬Dns.Alike name stable → ∀ (σ : Type) (service : Dns.Service σ) (state : σ) (e : Error),
        (dialogue.run service state).result = .error e → e.isRefusal = true →
        (∃ call, ⟨call, .error e⟩ ∈ dialogue.exchanges service state) ∨
        ∃ zones : List Dns.Zone, ⟨.listZones, .ok zones⟩ ∈ dialogue.exchanges service state ∧
          ∃ zone ∈ zones, zone.apex = fqdn) := by
  obtain ⟨parent, isParent, parentName⟩ := Hub.text?_parentDomain accepted resolved
  obtain ⟨stable, isStable, stableName⟩ := Hub.text?_stableName accepted resolved
  obtain ⟨ttl, isTtl, low, high⟩ := Hub.integer?_ttl accepted resolved
  have named := qualifyName_label isLabel isParent
  have normalized := Dns.normalizeName_under isLabel parentName
  have ttlFits := defaultTtl_of_le isTtl high
  have small : ttl < UInt32.size := Nat.lt_of_le_of_lt high (by decide)
  have valid := validate_withTtl low high
  have target : targetOf settings none = .ok stable := by simp only [targetOf, isStable]; rfl
  have created : creation label none none false true false settings =
      .ok (Dns.Reconciliation.createOrUpdate (label ++ "." ++ parent) stable
        (Dns.Policy.default.withTtl ttl)) := by
    simp only [creation, named, target, ttlFits]
    rfl
  have classified := Dns.classifyTarget_of_isName stableName
  refine ⟨parent, stable, _, _, ttl, _, _, isParent, isStable, isTtl, fun _ _ => parse_create isLabel,
    created, rfl, rfl, named, normalized, ttlFits, small, rfl, valid, target,
    fun zone => ⟨_, classified zone, ?_⟩, ?_⟩
  · rw [Dns.qualified_withoutPoint_eq_iff]
    exact eq_comm
  · intro different σ service state e failed isRefusal
    have said := Dns.Dialogue.transcript_run
      (Dns.Reconciliation.createOrUpdate (label ++ "." ++ parent) stable
        (Dns.Policy.default.withTtl ttl)) service state
    rw [failed] at said
    -- The target is a name wherever it is placed, so only an alias of its own is refused.
    refine Dns.Reconciliation.createOrUpdate_refused valid rfl normalized (fun zone => ?_) said isRefusal
    refine ⟨_, classified zone, fun same => different ?_⟩
    exact Eq.symm (Dns.qualified_withoutPoint_eq_iff.mp same)

theorem minimalLayers_values :
    ∃ schema settings, Hub.schema = .ok schema ∧
      (schema.resolve Hub.minimalProbe Hub.minimalLayers).result = .ok settings ∧
      settings.text? "parent_dns_domain" = some "example.com" ∧
      settings.text? "stable_public_dns_name" = some "ddns.example.com" := by
  have computed : (Hub.schema.toOption.bind fun schema =>
      (schema.resolve Hub.minimalProbe Hub.minimalLayers).result.toOption.map fun settings =>
        (settings.text? "parent_dns_domain", settings.text? "stable_public_dns_name")) =
      some (some "example.com", some "ddns.example.com") := by decide +kernel
  obtain ⟨schema, accepted, computed⟩ := Option.bind_eq_some_iff.mp computed
  obtain ⟨settings, resolved, values⟩ := Option.map_eq_some_iff.mp computed
  refine ⟨schema, settings, ?_, ?_, (Prod.mk.injEq ..).mp values⟩
  · cases read : Hub.schema with
    | error e => cases read ▸ accepted
    | ok built =>
        cases read ▸ accepted
        rfl
  · cases read : (schema.resolve Hub.minimalProbe Hub.minimalLayers).result with
    | error e => cases read ▸ resolved
    | ok made =>
        cases read ▸ resolved
        rfl

/-- A label in capitals, from the least that a hub has to be told. -/
theorem minimalLayers_creation :
    ∃ schema settings fqdn ttl, Hub.schema = .ok schema ∧
      (schema.resolve Hub.minimalProbe Hub.minimalLayers).result = .ok settings ∧
      Dns.isLabel "NAS" = true ∧ ¬Dns.Alike "NAS.example.com" "ddns.example.com" ∧
      Dns.normalizeName "NAS.example.com" = .ok fqdn ∧
      creation "NAS" none none false true false settings =
        .ok (Dns.Reconciliation.createOrUpdate "NAS.example.com" "ddns.example.com"
          (Dns.Policy.default.withTtl ttl)) ∧
      ∀ zone, ∃ value, Dns.classifyTarget zone "ddns.example.com" = .ok (.canonicalName, value) ∧
        value ≠ fqdn := by
  obtain ⟨schema, settings, accepted, resolved, isParent, isStable⟩ := minimalLayers_values
  have isLabel : Dns.isLabel "NAS" = true := by decide
  have different : ¬Dns.Alike "NAS.example.com" "ddns.example.com" := by decide +kernel
  obtain ⟨_, _, _, fqdn, ttl, _, _, parent, stable, _, _, created, rfl, rfl, _, normalized, _, _, rfl,
    _, _, classified, _⟩ := creation_accepted accepted resolved isLabel
  cases isParent.symm.trans parent
  cases isStable.symm.trans stable
  refine ⟨schema, settings, fqdn, ttl, accepted, resolved, isLabel, different, normalized, created,
    fun zone => ?_⟩
  obtain ⟨value, isAlias, same⟩ := classified zone
  exact ⟨value, isAlias, fun equal => different (same.mp equal)⟩

end Cli

end HubKeeper
