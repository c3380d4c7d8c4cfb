import HubKeeper.Settings.Coercion
import HubKeeper.Settings.Snapshot

/-!
Resolution of settings from ranked layers.

For every setting the first layer with a value that is not null supplies it.  The
settings are then evaluated in the schema's order: a supplied value is coerced to
the setting's kind, a missing one comes from the rule; the normalizer changes it;
its kind and the validator are checked.  Layers may name declared settings only.
-/

namespace HubKeeper

/-- Raw values from one source, the higher ranked layer first in a stack. -/
structure Layer where
  name : String
  values : Dict Json
deriving DecidableEq

namespace Layer

/-- The first name in a stack of layers that the schema does not declare. -/
def undeclared? (schema : Schema) (layers : List Layer) : Option (String × String) :=
  layers.findSome? fun layer =>
    (layer.values.keys.find? fun name => !schema.contains name).map fun name => (layer.name, name)

/-- The first value in a stack of layers that is not null. -/
def winner? (layers : List Layer) (name : String) : Option Json :=
  layers.findSome? fun layer => (layer.values.get? name).filter fun raw => !raw.isNull

end Layer

namespace Setting

def redact (setting : Setting) : Error → Error
  | .invalidSetting name value constraint =>
      .invalidSetting name (if setting.sensitive then redactedText else value) constraint
  | e => e

def shownValue (setting : Setting) (value : Value) : String :=
  if setting.sensitive then redactedText else value.toJson.shortText

def check (setting : Setting) (value : Value) : Except Error Unit :=
  if value.kind ≠ setting.kind then
    .error (.invalidSetting setting.name (setting.shownValue value)
      ("expected a " ++ setting.kind.title ++ ", derived a " ++ value.kind.title))
  else
    match setting.validator with
    | none => .ok ()
    | some validator =>
        match validator value with
        | .ok () => .ok ()
        | .error constraint =>
            .error (.invalidSetting setting.name (setting.shownValue value) constraint)

def context (setting : Setting) (values : Dict Value) (probe : HostProbe) : Context :=
  .restrict setting.name setting.dependencies values probe

/-- Value of a setting that no source supplies. -/
def derived (setting : Setting) (values : Dict Value) (probe : HostProbe) :
    Probed (Option Value) :=
  match setting.rule with
  | .explicit => .ok none
  | .constant value => .ok (some value)
  | .fallback sibling => .ok ((setting.context values probe).values.get? sibling)
  | .computed _ compute => compute (setting.context values probe)

/-- Value before normalization: the supplied one or that of the rule. -/
def initial (setting : Setting) (supplied : Option Json) (values : Dict Value)
    (probe : HostProbe) : Probed (Option Value) :=
  match supplied with
  | some raw =>
      match setting.kind.coerce setting.name raw with
      | .ok value => .ok (some value)
      | .error e => .error (setting.redact e)
  | none => setting.derived values probe

def normalized (setting : Setting) (value : Option Value) (values : Dict Value)
    (probe : HostProbe) : Probed (Option Value) :=
  match value, setting.normalizer with
  | some value, some normalizer => do
      let changed ← normalizer.apply value (setting.context values probe)
      return some changed
  | value, _ => .ok value

def settled (setting : Setting) : Option Value → Except Error (Option Value)
  | some value => (setting.check value).map fun () => some value
  | none =>
      match setting.requiredHint with
      | some hint => .error (.missingSetting setting.name hint)
      | none => .ok none

/-- The value of one setting, given those of its dependencies. -/
def evaluate (setting : Setting) (supplied : Option Json) (values : Dict Value)
    (probe : HostProbe) : Probed (Option Value) := do
  let value ← setting.initial supplied values probe
  let value ← setting.normalized value values probe
  setting.settled value

end Setting

namespace Schema

/-- Evaluates settings one after the other, each on the values before it. -/
def evaluateAll (layers : List Layer) (probe : HostProbe) :
    List Setting → Dict Value → Probed (Dict Value)
  | [], values => .ok values
  | setting :: rest, values => do
      match ← setting.evaluate (Layer.winner? layers setting.name) values probe with
      | some value => evaluateAll layers probe rest (values.insert setting.name value)
      | none => evaluateAll layers probe rest values

def resolve (schema : Schema) (probe : HostProbe) (layers : List Layer) : Probed Snapshot :=
  match Layer.undeclared? schema layers with
  | some (layer, name) =>
      .error (.unknownSetting name ("supplied by " ++ layer ++ " but not a known setting"))
  | none => do
      let values ← evaluateAll layers probe schema.order .empty
      return ⟨values, schema.sensitiveNames⟩

end Schema

end HubKeeper
