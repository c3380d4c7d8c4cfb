import HubKeeper.Settings.Probe
import HubKeeper.Settings.Validator

/-!
Declarations of settings, and the order in which they are evaluated.

A setting that no source supplies gets its value from its rule.  Rules and
normalizers read other settings through a `Context`, which holds the values of
the declared dependencies and nothing else.  `Schema.build` accepts a list of
declarations whose names are distinct, whose dependencies are declared and whose
dependencies have no cycle; it evaluates the settings in the order that always
takes the earliest declared setting whose dependencies have all been taken.
-/

namespace HubKeeper

structure Context where
  setting : String
  readable : List String
  values : Dict Value
  probe : HostProbe

namespace Context

/-- The context of a setting that declares `readable`: all other values are
hidden. -/
def restrict (setting : String) (readable : List String) (values : Dict Value)
    (probe : HostProbe) : Context where
  setting := setting
  readable := readable
  values := values.filter fun name _ => readable.contains name
  probe := probe

/-- Value of a declared dependency. -/
def get (context : Context) (name : String) : Except Error (Option Value) :=
  if context.readable.contains name then .ok (context.values.get? name)
  else
    .error (.schema ("setting '" ++ context.setting ++ "' reads '" ++ name ++
      "' without declaring it as a dependency"))

def text? (context : Context) (name : String) : Except Error (Option String) :=
  (context.get name).map fun value => value.bind Value.asText?

/-- Text of a declared dependency that has to be there. -/
def requireText (context : Context) (name : String) : Except Error String :=
  match context.text? name with
  | .error e => .error e
  | .ok (some text) => .ok text
  | .ok none =>
      .error (.missingSetting name ("needed to derive '" ++ context.setting ++ "'"))

end Context

/-- How a setting that no source supplies gets its value. -/
inductive Rule
  | explicit
  | constant (value : Value)
  | fallback (sibling : String)
  | computed (dependencies : List String) (compute : Context → Probed (Option Value))

/-- A change made to every value of a setting, supplied or not. -/
structure Normalizer where
  dependencies : List String
  apply : Value → Context → Probed Value

structure Setting where
  name : String
  kind : Kind
  requiredHint : Option String
  rule : Rule
  normalizer : Option Normalizer
  validator : Option Validator
  sensitive : Bool
  description : String

namespace Setting

/-- A setting that only sources supply. -/
def declare (name : String) (kind : Kind) : Setting where
  name := name
  kind := kind
  requiredHint := none
  rule := .explicit
  normalizer := none
  validator := none
  sensitive := false
  description := ""

def required (setting : Setting) (hint : String) : Setting :=
  { setting with requiredHint := some hint }

def default (setting : Setting) (value : Value) : Setting :=
  { setting with rule := .constant value }

def fallback (setting : Setting) (sibling : String) : Setting :=
  { setting with rule := .fallback sibling }

def derive (setting : Setting) (dependencies : List String)
    (compute : Context → Probed (Option Value)) : Setting :=
  { setting with rule := .computed dependencies compute }

def normalize (setting : Setting) (dependencies : List String)
    (apply : Value → Context → Probed Value) : Setting :=
  { setting with normalizer := some ⟨dependencies, apply⟩ }

def validate (setting : Setting) (validator : Validator) : Setting :=
  { setting with validator := some validator }

def secret (setting : Setting) : Setting :=
  { setting with sensitive := true }

def describe (setting : Setting) (description : String) : Setting :=
  { setting with description := description }

def isRequired (setting : Setting) : Bool :=
  setting.requiredHint.isSome

def ruleDependencies (setting : Setting) : List String :=
  match setting.rule with
  | .explicit | .constant _ => []
  | .fallback sibling => [sibling]
  | .computed dependencies _ => dependencies

def addNew (listed : List String) : List String → List String
  | [] => listed
  | name :: rest =>
      if listed.contains name then addNew listed rest else addNew (listed ++ [name]) rest

def dependencies (setting : Setting) : List String :=
  match setting.normalizer with
  | none => setting.ruleDependencies
  | some normalizer => addNew setting.ruleDependencies normalizer.dependencies

end Setting

/-- Accepted declarations and their evaluation order. -/
structure Schema where
  settings : List Setting
  order : List Setting

namespace Schema

def find? (settings : List Setting) (name : String) : Option Setting :=
  settings.find? fun setting => setting.name == name

def get? (schema : Schema) (name : String) : Option Setting :=
  find? schema.settings name

def contains (schema : Schema) (name : String) : Bool :=
  (schema.get? name).isSome

def names (schema : Schema) : List String :=
  schema.settings.map (·.name)

def sensitiveNames (schema : Schema) : TextSet :=
  .ofList ((schema.settings.filter (·.sensitive)).map (·.name))

def repeatedName? : (seen : List String) → List Setting → Option String
  | _, [] => none
  | seen, setting :: rest =>
      if seen.contains setting.name then some setting.name
      else repeatedName? (setting.name :: seen) rest

def unknownDependency? (settings : List Setting) : Option (String × String) :=
  settings.findSome? fun setting =>
    (setting.dependencies.find? fun name => (find? settings name).isNone).map
      fun name => (setting.name, name)

def isReady (taken : List String) (setting : Setting) : Bool :=
  setting.dependencies.all taken.contains

/-- Takes, up to `steps` times, the first waiting setting whose dependencies have
been taken.  Gives the settings taken, in order, and those still waiting. -/
def takeReady : (steps : Nat) → (taken waiting : List Setting) → List Setting × List Setting
  | 0, taken, waiting => (taken, waiting)
  | steps + 1, taken, waiting =>
      let names := taken.map (·.name)
      match waiting.find? (isReady names) with
      | none => (taken, waiting)
      | some setting =>
          takeReady steps (taken ++ [setting]) (waiting.filter fun s => s.name != setting.name)

/-- Follows from `current` each time the first dependency that waits, until a name
comes again.  Gives the part of the path from its first occurrence on. -/
def followCycle (waiting : List Setting) : (steps : Nat) → (path : List String) →
    (current : String) → List String
  | 0, path, _ => path
  | steps + 1, path, current =>
      if path.contains current then path.dropWhile (· != current) ++ [current]
      else
        let next := (find? waiting current).bind fun setting =>
          setting.dependencies.find? fun name => (find? waiting name).isSome
        match next with
        | none => path ++ [current]
        | some name => followCycle waiting steps (path ++ [current]) name

def cycleOf (waiting : List Setting) : List String :=
  match waiting.head? with
  | none => []
  | some first => followCycle waiting (waiting.length + 1) [] first.name

/-- Checks declarations and orders them for evaluation. -/
def build (settings : List Setting) : Except Error Schema :=
  match repeatedName? [] settings with
  | some name => .error (.schema ("setting '" ++ name ++ "' is declared more than once"))
  | none =>
      match unknownDependency? settings with
      | some (name, dependency) =>
          .error (.schema ("setting '" ++ name ++ "' depends on unknown setting '" ++
            dependency ++ "'"))
      | none =>
          match takeReady settings.length [] settings with
          | (order, []) => .ok ⟨settings, order⟩
          | (_, waiting) => .error (.schemaCycle (cycleOf waiting))

end Schema

end HubKeeper
