import HubKeeper.Cli.Command
import HubKeeper.Cloudflare.Service
import HubKeeper.Dns.Reconciliation
import HubKeeper.Settings.Hub
import HubKeeper.Stack.Hub
import HubKeeper.Store.Provider
import HubKeeper.Text.Alphanumeric
import HubKeeper.Text.LowerCase

/-!
Running commands.

A command works on the files of the project and may send requests; it prints to the
standard output, or tells its error and exits with a code other than zero.
-/

namespace HubKeeper.Cli

inductive Failure
  | error (e : Error)
  | unresolved (setting : String)
deriving DecidableEq

namespace Failure

/-- An error with its cause, if it has one of its own. -/
def message : Failure → String
  | error (.files reason) => (Error.files reason).message ++ ": " ++ reason
  | error (.json reason) => (Error.json reason).message ++ ": " ++ reason
  | error e => e.message
  | unresolved setting => setting ++ " is not resolved"

def exitCode : Failure → Nat
  | error e => e.exitCode
  | unresolved _ => 2

end Failure

/-- What a command works with besides the files. -/
structure Surroundings (σ : Type) where
  vars : Dict String
  probe : HostProbe
  transport : Http.Transport σ

/-- State of a run: the provider's, with the files, and that of the transport. -/
structure RunState (σ : Type) where
  provider : Provider.State
  transport : σ

def storedValue (text : String) : Json :=
  if text = "null" then .null else .str text

/-- A value as it is printed: a text bare, everything else as JSON. -/
def printed : Json → String
  | .str s => s
  | value => value.compact

/-- A name to manage; a bare label is placed under the domain of the hub. -/
def qualifyName (settings : Snapshot) (name : String) : Except Failure String :=
  let name := Text.trimEndOf '.' (Text.trim name)
  if name.toList.contains '.' then .ok name
  else
    match settings.text? "parent_dns_domain" with
    | some parent => .ok (name ++ "." ++ parent)
    | none => .error (.unresolved "parent_dns_domain")

def defaultTtl (settings : Snapshot) : Except Failure Nat :=
  match settings.integer? "dns_ttl" with
  | none => .error (.unresolved "dns_ttl")
  | some ttl =>
      if 0 ≤ ttl && ttl < UInt32.size then .ok ttl.toNat
      else .error (.error (.config ("dns_ttl " ++ Text.intText ttl ++ " is out of range")))

/-- Target of a record: the one given, or the stable public name. -/
def targetOf (settings : Snapshot) (target : Option String) : Except Failure String :=
  match target.orElse fun _ => settings.text? "stable_public_dns_name" with
  | some target => .ok target
  | none => .error (.unresolved "stable_public_dns_name")

abbrev Ending := Except Failure String

def ended (result : Except Error α) (output : α → String) : Ending :=
  match result with
  | .ok a => .ok (output a)
  | .error e => .error (.error e)

def line (text : String) : String :=
  text ++ "\n"

section

variable (around : Surroundings σ) (layout : ProjectLayout) (provider : Provider)

def onStore (run : Store → Store.State → Store.State × Except Error α) (output : α → String)
    (state : RunState σ) : RunState σ × Ending :=
  let (store, result) := run provider.store state.provider.store
  ({ state with provider := { state.provider with store := store } }, ended result output)

def isThere (files : FileTree) (path : String) : Bool :=
  match files.locate path with
  | .ok location => (files.node? location).isSome
  | .error _ => false

def createDocument (state : RunState σ) : RunState σ × Ending :=
  let path := layout.settingsFile
  if isThere state.provider.store.files path then
    (state, .ok (line (path ++ " already exists; left unchanged")))
  else onStore provider Store.load (fun _ => line ("Created " ++ path)) state

def printValue (path : String) (state : RunState σ) : RunState σ × Ending :=
  onStore provider (fun store state => store.get state path)
    (fun
      | some value => line (printed value)
      | none => line (path ++ " is not set in " ++ provider.store.path))
    state

def storeValue (path value : String) (state : RunState σ) : RunState σ × Ending :=
  let (state', result) := provider.set state.provider path (storedValue value)
  ({ state with provider := state' },
    ended result fun _ => line ("Saved " ++ path ++ " to " ++ provider.store.path))

def onSettings (run : Snapshot → RunState σ → RunState σ × Ending) (state : RunState σ) :
    RunState σ × Ending :=
  let (state', resolved) := provider.get state.provider .empty
  let state := { state with provider := state' }
  match resolved.result with
  | .error e => (state, .error (.error e))
  | .ok settings => run settings state

def printSettings (secrets : Bool) (settings : Snapshot) (state : RunState σ) :
    RunState σ × Ending :=
  let json := if secrets then settings.toJson else settings.toRedactedJson
  (state, .ok (line json.pretty))

def composed (dictionary : String) (settings : Snapshot) : Except Error StackEnvironment := do
  let compositor ← Hub.compositor provider.store.schema
  compositor.compose settings dictionary

def printEnvironment (dictionary : String) (file : Option String) (settings : Snapshot)
    (state : RunState σ) : RunState σ × Ending :=
  match composed provider dictionary settings, file with
  | .error e, _ => (state, .error (.error e))
  | .ok environment, none => (state, .ok environment.toDotenv)
  | .ok environment, some path =>
      let store := state.provider.store
      let (files, result) := store.files.replaceText path environment.toDotenv
      let told := line ("Wrote " ++ Text.natText environment.vars.size ++ " variable(s) to " ++ path)
      ({ state with provider := { state.provider with store := { store with files := files } } },
        ended result fun _ => told)

def accountOf (access : AccountAccess) : Except Error Cloudflare.Account :=
  match access.token with
  | none =>
      .error (.config ("CLOUDFLARE_API_TOKEN is required for dns commands. " ++
        "Set it via: export CLOUDFLARE_API_TOKEN=your_token"))
  | some token => Cloudflare.Account.create token access.accountId access.dryRun

def reconcile (access : AccountAccess) (dialogue : Dns.Dialogue Dns.Outcome)
    (state : RunState σ) : RunState σ × Ending :=
  match accountOf access with
  | .error e => (state, .error (.error e))
  | .ok account =>
      let service := account.service .default around.transport
      let run := dialogue.run service state.transport
      ({ state with transport := run.state }, ended run.result fun outcome => line outcome.text)

def creation (name : String) (target : Option String) (ttl : Option Nat)
    (overwrite allowExisting verify : Bool) (settings : Snapshot) :
    Except Failure (Dns.Dialogue Dns.Outcome) := do
  let fqdn ← qualifyName settings name
  let target ← targetOf settings target
  let ttl ← match ttl with
    | some ttl => .ok ttl
    | none => defaultTtl settings
  let policy := (Dns.Policy.default.withTtl ttl).overwrite overwrite
  let policy := { policy with allowExisting := allowExisting }
  let policy := if verify then policy.verifyAgainst none else policy
  return Dns.Reconciliation.createOrUpdate fqdn target policy

def deletion (name : String) (allowMissing : Bool) (settings : Snapshot) :
    Except Failure (Dns.Dialogue Dns.Outcome) := do
  let fqdn ← qualifyName settings name
  return Dns.Reconciliation.delete fqdn { Dns.Policy.default with allowMissing := allowMissing }

/-- Runs a reconciliation that the settings tell. -/
def reconcileWith (access : AccountAccess)
    (dialogue : Snapshot → Except Failure (Dns.Dialogue Dns.Outcome)) (settings : Snapshot)
    (state : RunState σ) : RunState σ × Ending :=
  match dialogue settings with
  | .error failure => (state, .error failure)
  | .ok dialogue => reconcile around access dialogue state

def runCommand : Command → RunState σ → RunState σ × Ending
  | .createDocument => createDocument layout provider
  | .printValue path => printValue provider path
  | .storeValue path value => storeValue provider path value
  | .printSettings secrets => onSettings provider (printSettings secrets)
  | .environment dictionary file =>
      onSettings provider (printEnvironment provider dictionary file)
  | .createRecord name target ttl overwrite allowExisting verify access =>
      onSettings provider
        (reconcileWith around access (creation name target ttl overwrite allowExisting verify))
  | .deleteRecord name allowMissing access =>
      onSettings provider (reconcileWith around access (deletion name allowMissing))

end

def providerOf (around : Surroundings σ) (layout : ProjectLayout) : Except Error Provider := do
  layout.validate
  let schema ← Hub.schema
  return {
    store := ⟨layout.settingsFile, schema⟩
    probe := around.probe
    vars := around.vars.entries
    lead := layout.lead
    dotenvFile := some layout.dotenvFile
    dotenvLead := layout.lead
    secretsDir := some layout.secretsDir
    surrounding := around.vars }

def logLevels : List String := ["trace", "debug", "info", "warn", "error"]

def lowerLevel (level : String) : String :=
  .ofList (Text.lowerCaseChars Text.isAlphanumeric false level.toList)

structure Finish (σ : Type) where
  exitCode : Nat
  output : String
  errors : String
  files : FileTree
  transport : σ

/-- Runs a command that was read from a command line. -/
def Invocation.run (around : Surroundings σ) (invocation : Invocation) (files : FileTree)
    (transport : σ) : Finish σ :=
  let level := lowerLevel invocation.logLevel
  let layout := ProjectLayout.standard invocation.projectDir
  if !logLevels.contains level then
    ⟨1, "", line ("HUBCTL_LOG_LEVEL '" ++ level ++
      "' is not valid. Valid levels: trace, debug, info, warn, error"), files, transport⟩
  else
    match providerOf around layout with
    | .error e =>
        ⟨e.exitCode, "", line ("error: " ++ (Failure.error e).message), files, transport⟩
    | .ok provider =>
        let (state, ending) :=
          runCommand around layout provider invocation.command ⟨.fresh files, transport⟩
        let files := state.provider.store.files
        match ending with
        | .ok output => ⟨0, output, "", files, state.transport⟩
        | .error failure =>
            ⟨failure.exitCode, "", line ("error: " ++ failure.message), files, state.transport⟩

end HubKeeper.Cli
