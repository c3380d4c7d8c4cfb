import HubKeeper.Cli.Arguments

/-!
Commands that the command line can ask for.
-/

namespace HubKeeper.Cli

structure AccountAccess where
  token : Option String
  accountId : Option String
  dryRun : Bool
deriving DecidableEq

inductive Command
  | createDocument
  | printValue (path : String)
  | storeValue (path value : String)
  | printSettings (secrets : Bool)
  | environment (dictionary : String) (file : Option String)
  | createRecord (name : String) (target : Option String) (ttl : Option Nat)
      (overwrite allowExisting verify : Bool) (access : AccountAccess)
  | deleteRecord (name : String) (allowMissing : Bool) (access : AccountAccess)
deriving DecidableEq

/-- A command with what holds for every command. -/
structure Invocation where
  projectDir : String
  logLevel : String
  command : Command
deriving DecidableEq

/-- The innermost value of an option, or that of its environment variable. -/
def valueOf? (vars : Dict String) (levels : List Given) (option : String) : Option String :=
  match levels.reverse.findSome? fun given => given.value? option with
  | some value => some value
  | none => fromVariable? vars option

def commandOf? (vars : Dict String) (path : CommandPath) (given : Given) : Option Command :=
  let access : AccountAccess :=
    ⟨valueOf? vars [given] "api-token", valueOf? vars [given] "account-id",
      given.has "dry-run"⟩
  match path, given.positionals with
  | ["config", "init"], [] => some .createDocument
  | ["config", "get"], [path] => some (.printValue path)
  | ["config", "set"], [path, value] => some (.storeValue path value)
  | ["config", "show"], [] => some (.printSettings (given.has "show-secrets"))
  | ["env"], [dictionary] => some (.environment dictionary (given.value? "write"))
  | ["dns", "create"], [name] =>
      some (.createRecord name (given.value? "target") ((given.value? "ttl").bind ttl?)
        (given.has "overwrite") (!given.has "no-allow-existing") (given.has "verify") access)
  | ["dns", "delete"], [name] =>
      some (.deleteRecord name (!given.has "require-existing") access)
  | _, _ => none

def Invocation.parse (vars : Dict String) (arguments : List String) :
    Except Stop Invocation := do
  let (path, levels) ← readLevels vars 3 [] arguments
  match commandOf? vars path (levels.getLast?.getD .nothing) with
  | none => .error (.usage (.missingCommand path))
  | some command =>
      return ⟨(valueOf? vars levels "project-dir").getD ".",
        (valueOf? vars levels "log-level").getD "warn", command⟩

end HubKeeper.Cli
