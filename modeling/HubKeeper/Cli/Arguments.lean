import HubKeeper.Cli.Usage
import HubKeeper.Collections.Dict

/-!
Reading command lines.

At each level of the command tree options may stand before, between and after the
positional arguments; the options for the project directory and the log level are
known at every level, and the innermost one counts.  Some options fall back to an
environment variable.  A request for help or the version ends the reading at once,
and so does the first mistake.
-/

namespace HubKeeper.Cli

inductive Shape
  | separator
  | long (name : String) (attached : Option String)
  | short (first : Char)
  | plain
deriving DecidableEq

def Shape.of (argument : String) : Shape :=
  match argument.toList with
  | ['-', '-'] => .separator
  | '-' :: '-' :: rest =>
      let name := rest.takeWhile (· != '=')
      match rest.dropWhile (· != '=') with
      | [] => .long (.ofList name) none
      | _ :: value => .long (.ofList name) (some (.ofList value))
  | '-' :: c :: _ => .short c
  | _ => .plain

/-- What one level of commands was given. -/
structure Given where
  values : List (String × String)
  switches : List String
  positionals : List String
deriving DecidableEq, Inhabited

namespace Given

def nothing : Given := ⟨[], [], []⟩

def value? (given : Given) (option : String) : Option String :=
  (given.values.find? fun entry => entry.1 == option).map (·.2)

def has (given : Given) (switch : String) : Bool :=
  given.switches.contains switch

def takeValue (given : Given) (option value : String) : Except Stop Given :=
  if (given.value? option).isSome then .error (.usage (.repeated option))
  else if accepts option value then
    .ok { given with values := given.values ++ [(option, value)] }
  else .error (.usage (.invalidValue option value))

def takeSwitch (given : Given) (switch : String) : Except Stop Given :=
  if given.has switch then .error (.usage (.repeated switch))
  else .ok { given with switches := given.switches ++ [switch] }

def takePositional (path : CommandPath) (given : Given) (argument : String) :
    Except Stop Given :=
  if given.positionals.length < (Cli.positionals path).length then
    .ok { given with positionals := given.positionals ++ [argument] }
  else if (commandsBelow path).isEmpty then .error (.usage (.unexpected argument))
  else .error (.usage (.unknownCommand argument))

end Given

def helpOn (path : CommandPath) : List String → Stop
  | [] => .help path
  | name :: rest =>
      if (commandsBelow path).contains name then helpOn (path ++ [name]) rest
      else if name = "help" && commandsBelow path != [] then helpOn path rest
      else .usage (.unknownCommand name)

/-- The end of a level: what it was given, and the next command with its arguments. -/
abbrev LevelEnd := Given × Option (String × List String)

def readLevel (path : CommandPath) (given : Given) : List String → Except Stop LevelEnd
  | [] => .ok (given, none)
  | argument :: rest =>
      match Shape.of argument with
      -- Behind the separator everything is positional.
      | .separator => do
          let given ← rest.foldlM (Given.takePositional path) given
          return (given, none)
      | .short c =>
          if c = 'h' then .error (.help path)
          else if c = 'V' && path = [] then .error .version
          else .error (.usage (.unexpected argument))
      | .plain =>
          if (commandsBelow path).contains argument then .ok (given, some (argument, rest))
          else if argument = "help" && commandsBelow path != [] then .error (helpOn path rest)
          else do
            let given ← given.takePositional path argument
            readLevel path given rest
      | .long name attached =>
          if (valueOptions path).contains name then
            match attached with
            | some value => do
                let given ← given.takeValue name value
                readLevel path given rest
            | none =>
                match rest with
                | [] => .error (.usage (.missingValue name))
                | value :: rest =>
                    -- What looks like an option has to be attached to be a value.
                    if Shape.of value != .plain then .error (.usage (.missingValue name))
                    else do
                      let given ← given.takeValue name value
                      readLevel path given rest
          else if attached.isSome then .error (.usage (.unexpected argument))
          else if name = "help" then .error (.help path)
          else if name = "version" && path = [] then .error .version
          else if (switches path).contains name then do
            let given ← given.takeSwitch name
            readLevel path given rest
          else .error (.usage (.unexpected argument))

/-- Value of an option that was not given, from its environment variable. -/
def fromVariable? (vars : Dict String) (option : String) : Option String :=
  (variableOf? option).bind vars.get?

/-- Checks the environment variables that a level needs for what it was not given. -/
def checkVariables (vars : Dict String) (path : CommandPath) (given : Given) :
    Except Stop Unit :=
  (valueOptions path).forM fun option =>
    match given.value? option, fromVariable? vars option with
    | none, some value =>
        if accepts option value then .ok () else .error (.usage (.invalidValue option value))
    | _, _ => .ok ()

def checkComplete (path : CommandPath) (given : Given) : Except Stop Unit :=
  let missing := (positionals path).drop given.positionals.length
  if commandsBelow path != [] then .error (.usage (.missingCommand path))
  else if missing.isEmpty then .ok ()
  else .error (.usage (.missingArguments missing))

/-- Reads the arguments level by level: the path to the command, and what each level
was given, the outermost first. -/
def readLevels (vars : Dict String) :
    (depth : Nat) → CommandPath → List String → Except Stop (CommandPath × List Given)
  | 0, path, _ => .error (.help path)
  | depth + 1, path, arguments => do
      let (given, next) ← readLevel path .nothing arguments
      match next with
      | some (name, rest) =>
          let (command, levels) ← readLevels vars depth (path ++ [name]) rest
          checkVariables vars path given
          return (command, given :: levels)
      | none =>
          checkVariables vars path given
          checkComplete path given
          return (path, [given])

end HubKeeper.Cli
