import HubKeeper.Settings.Validator

/-!
What a broken constraint tells of the value that breaks it.

Most constraints are told by the kind of the value alone.  Those on the members of a
collection quote the first member that breaks them.
-/

namespace HubKeeper

/-- The constraints that settings are declared with. -/
inductive StandardValidator
  | dnsName
  | dnsLabel
  | hostName
  | hostNames
  | email
  | htpasswd
  | secretToken
  | certResolver
  | logLevel
  | portNumber
  | ttl
  | ipv4
  | envVarMap
deriving DecidableEq

namespace StandardValidator

def validator : StandardValidator → Validator
  | dnsName => .dnsName
  | dnsLabel => .dnsLabel
  | hostName => .hostName
  | hostNames => .hostNames
  | email => .email
  | htpasswd => .htpasswd
  | secretToken => .secretToken
  | certResolver => .certResolver
  | logLevel => .logLevel
  | portNumber => .portNumber
  | ttl => .ttl
  | ipv4 => .ipv4
  | envVarMap => .envVarMap

/-- The part of a value that a broken constraint quotes. -/
def quoted : StandardValidator → Value → Option String
  | hostNames, .textSet hosts => hosts.items.find? fun host => !Validator.isHostName host
  | envVarMap, .textMap map => map.keys.find? fun key => !isEnvKey key
  | _, _ => none

end StandardValidator

namespace Validator

/-- A constraint that is told by the kind of the value alone. -/
def Discreet (validator : Validator) : Prop :=
  ∃ told : Kind → String, ∀ value constraint,
    validator value = .error constraint → constraint = told value.kind

theorem discreet_onText (test : String → Bool) (constraint : String) :
    (onText test constraint).Discreet := by
  refine ⟨fun kind => if kind = .text then constraint else "expected a string, got a " ++ kind.title,
    fun value told broken => ?_⟩
  cases value with
  | text s =>
      simp only [onText] at broken
      split at broken <;> cases broken
      rfl
  | _ =>
      cases broken
      rfl

theorem discreet_between (low high : Int) : (between low high).Discreet := by
  refine ⟨fun kind => if kind = .integer then
    "must be between " ++ Text.intText low ++ " and " ++ Text.intText high
    else "expected an integer, got a " ++ kind.title, fun value told broken => ?_⟩
  cases value with
  | integer n =>
      simp only [between] at broken
      split at broken <;> cases broken
      rfl
  | _ =>
      cases broken
      rfl

/-- A constraint that quotes a member of the value, if it has the kind it should have. -/
def Quotes (validator : Validator) (quoted : Value → Option String) : Prop :=
  ∃ ending expected, ∀ value constraint, validator value = .error constraint →
    constraint = match quoted value with
      | some bad => "'" ++ bad ++ ending
      | none => "expected a " ++ expected ++ ", got a " ++ value.kind.title

theorem Quotes.constraint_eq_iff {validator : Validator} (quotes : validator.Quotes quoted)
    (sameKind : left.kind = right.kind) (leftBroken : validator left = .error leftConstraint)
    (rightBroken : validator right = .error rightConstraint) :
    leftConstraint = rightConstraint ↔ quoted left = quoted right := by
  obtain ⟨ending, expected, told⟩ := quotes
  rw [told left _ leftBroken, told right _ rightBroken, sameKind]
  cases quoted left with
  | none =>
      cases quoted right with
      | none => simp
      | some bad =>
          refine iff_of_false (fun same => ?_) nofun
          simpa using congrArg (·.toList.head?) same
  | some bad =>
      cases quoted right with
      | none =>
          refine iff_of_false (fun same => ?_) nofun
          simpa using congrArg (·.toList.head?) same
      | some other => simp

end Validator

namespace StandardValidator

variable {which : StandardValidator} {left right : Value}

theorem quoted_of_discreet (notHosts : which ≠ hostNames) (notKeys : which ≠ envVarMap)
    (value : Value) : which.quoted value = none := by
  cases which <;> first | rfl | contradiction

theorem discreet (notHosts : which ≠ hostNames) (notKeys : which ≠ envVarMap) :
    which.validator.Discreet := by
  cases which with
  | hostNames => contradiction
  | envVarMap => contradiction
  | portNumber => exact Validator.discreet_between ..
  | ttl => exact Validator.discreet_between ..
  | _ => exact Validator.discreet_onText ..

theorem quotes_hostNames : Validator.hostNames.Quotes hostNames.quoted := by
  refine ⟨"' is not a host name or DNS name", "string set", fun value constraint broken => ?_⟩
  cases value with
  | textSet hosts =>
      simp only [Validator.hostNames] at broken
      split at broken
      · rename_i bad found
        cases broken
        simp only [quoted, found]
      · cases broken
  | _ =>
      cases broken
      rfl

theorem quotes_envVarMap : Validator.envVarMap.Quotes envVarMap.quoted := by
  refine ⟨"' is not a valid environment variable name", "string map",
    fun value constraint broken => ?_⟩
  cases value with
  | textMap map =>
      simp only [Validator.envVarMap] at broken
      split at broken
      · rename_i bad found
        cases broken
        simp only [quoted, found]
      · cases broken
  | _ =>
      cases broken
      rfl

/-- Two values of one kind break a constraint with the same text if it quotes the same. -/
theorem constraint_eq_iff (sameKind : left.kind = right.kind)
    (leftBroken : which.validator left = .error leftConstraint)
    (rightBroken : which.validator right = .error rightConstraint) :
    leftConstraint = rightConstraint ↔ which.quoted left = which.quoted right := by
  by_cases hosts : which = hostNames
  · subst hosts
    exact quotes_hostNames.constraint_eq_iff sameKind leftBroken rightBroken
  · by_cases keys : which = envVarMap
    · subst keys
      exact quotes_envVarMap.constraint_eq_iff sameKind leftBroken rightBroken
    · obtain ⟨told, tells⟩ := discreet hosts keys
      rw [tells left _ leftBroken, tells right _ rightBroken, sameKind,
        quoted_of_discreet hosts keys, quoted_of_discreet hosts keys]
      exact iff_of_true rfl rfl

end StandardValidator

end HubKeeper
