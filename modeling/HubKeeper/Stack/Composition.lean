import HubKeeper.Settings.Snapshot
import HubKeeper.Settings.Validator
import HubKeeper.Stack.Environment

/-!
Composition of stack environments.

An environment starts from its parent's, takes the explicit variables of its
override setting, fills keys that are absent or empty by its default rules in
declared order, and drops what is empty.  An explicit empty variable therefore
removes an inherited one unless a rule fills it again.  Parents are declared
before their children.
-/

namespace HubKeeper.Stack

/-- How a key that is absent or empty gets its value. -/
inductive DefaultRule
  | setting (name : String)
  | computed (compute : Snapshot → Dict String → Except Error (Option String))

structure Declaration where
  name : String
  parent : Option String
  overrides : Option String
  defaults : List (String × DefaultRule)

namespace Declaration

def withOverrides (declaration : Declaration) (snapshot : Snapshot) (vars : Dict String) :
    Except Error (Dict String) :=
  match declaration.overrides with
  | none => .ok vars
  | some setting =>
      let explicit := ((snapshot.map? setting).getD .empty).entries
      match explicit.find? fun entry => !isEnvKey entry.1 with
      | some (key, _) =>
          .error (.invalidSetting setting key
            "keys must be environment variable names ([A-Za-z_][A-Za-z0-9_]*)")
      | none => .ok (explicit.foldl (fun vars entry => vars.insert entry.1 entry.2) vars)

def isFilled (vars : Dict String) (key : String) : Bool :=
  (vars.get? key).any (· != "")

def ruleValue (snapshot : Snapshot) (vars : Dict String) : DefaultRule → Except Error (Option String)
  | .setting name => .ok ((snapshot.get? name).map Value.plain)
  | .computed compute => compute snapshot vars

def fill (snapshot : Snapshot) : List (String × DefaultRule) → Dict String →
    Except Error (Dict String)
  | [], vars => .ok vars
  | (key, rule) :: rest, vars =>
      if isFilled vars key then fill snapshot rest vars
      else
        match ruleValue snapshot vars rule with
        | .error e => .error e
        | .ok none => fill snapshot rest vars
        | .ok (some value) => fill snapshot rest (vars.insert key value)

/-- The environment of a declaration on top of its parent's. -/
def extend (snapshot : Snapshot) (inherited : Dict String) (declaration : Declaration) :
    Except Error (Dict String) :=
  match declaration.withOverrides snapshot inherited with
  | .error e => .error e
  | .ok vars => (fill snapshot declaration.defaults vars).map (·.filter fun _ value => value != "")

end Declaration

structure Compositor where
  declarations : List Declaration

namespace Compositor

def names (compositor : Compositor) : List String :=
  compositor.declarations.map (·.name)

def get? (compositor : Compositor) (name : String) : Option Declaration :=
  compositor.declarations.find? fun declaration => declaration.name == name

/-- A declaration and its ancestors, the eldest first, in a list with the latest
declaration first. -/
def lineage : List Declaration → String → List Declaration
  | [], _ => []
  | declaration :: earlier, name =>
      if declaration.name = name then
        match declaration.parent with
        | none => [declaration]
        | some parent => lineage earlier parent ++ [declaration]
      else lineage earlier name

def extendAll (snapshot : Snapshot) : List Declaration → Dict String → Except Error (Dict String)
  | [], vars => .ok vars
  | declaration :: rest, vars =>
      match declaration.extend snapshot vars with
      | .error e => .error e
      | .ok vars => extendAll snapshot rest vars

def compose (compositor : Compositor) (snapshot : Snapshot) (name : String) :
    Except Error StackEnvironment :=
  match compositor.get? name with
  | none => .error (.invalidInput ("Unknown environment dictionary '" ++ name ++ "'"))
  | some _ =>
      (extendAll snapshot (lineage compositor.declarations.reverse name) .empty).map
        fun vars => ⟨name, vars⟩

def composeAll (compositor : Compositor) (snapshot : Snapshot) :
    Except Error (List StackEnvironment) :=
  compositor.names.mapM (compositor.compose snapshot)

def parentFault (seen : List String) (declaration : Declaration) : Option String :=
  declaration.parent.bind fun parent =>
    if seen.contains parent then none
    else
      some ("Dictionary '" ++ declaration.name ++ "' inherits from '" ++ parent ++
        "', which is not declared before it")

def overridesFault (schema : Schema) (declaration : Declaration) : Option String :=
  declaration.overrides.bind fun name =>
    let start := "Dictionary '" ++ declaration.name ++ "' takes overrides from "
    match schema.get? name with
    | none => some (start ++ "unknown setting '" ++ name ++ "'")
    | some setting =>
        if setting.kind = .textMap then none
        else some (start ++ "'" ++ name ++ "', a " ++ setting.kind.title ++ " rather than a string map")

def defaultFault (schema : Schema) (name : String) (entry : String × DefaultRule) :
    Option String :=
  if !isEnvKey entry.1 then
    some ("Dictionary '" ++ name ++ "' declares invalid key '" ++ entry.1 ++ "'")
  else
    match entry.2 with
    | .computed _ => none
    | .setting setting =>
        if schema.contains setting then none
        else
          some ("Dictionary '" ++ name ++ "' key '" ++ entry.1 ++
            "' references unknown setting '" ++ setting ++ "'")

/-- The first fault of a declaration after those with the names `seen`. -/
def fault (schema : Schema) (seen : List String) (declaration : Declaration) : Option String :=
  (parentFault seen declaration).or
    ((overridesFault schema declaration).or
      ((declaration.defaults.findSome? (defaultFault schema declaration.name)).or
        (if seen.contains declaration.name then
          some ("Dictionary '" ++ declaration.name ++ "' declared twice")
        else none)))

def firstFault (schema : Schema) : (seen : List String) → List Declaration → Option String
  | _, [] => none
  | seen, declaration :: rest =>
      (fault schema seen declaration).or (firstFault schema (declaration.name :: seen) rest)

def build (schema : Schema) (declarations : List Declaration) : Except Error Compositor :=
  match firstFault schema [] declarations with
  | some reason => .error (.schema reason)
  | none => .ok ⟨declarations⟩

end Compositor

end HubKeeper.Stack
