import HubKeeper.Number.Scan
import HubKeeper.Text.Listing

/-!
What the command line offers: the tree of commands, the options and positional
arguments of each, and how help and mistakes read.
-/

namespace HubKeeper.Cli

def programName : String := "hubctl"

def versionText : String := programName ++ " 0.1.0\n"

/-- Names of the commands on the way to a command. -/
abbrev CommandPath := List String

def commandsBelow : CommandPath → List String
  | [] => ["config", "env", "dns"]
  | ["config"] => ["init", "get", "set", "show"]
  | ["dns"] => ["create", "delete"]
  | _ => []

/-- Options with a value that every command knows. -/
def globalOptions : List String := ["project-dir", "log-level"]

def valueOptions : CommandPath → List String
  | ["env"] => "write" :: globalOptions
  | ["dns", "create"] => "target" :: "ttl" :: "api-token" :: "account-id" :: globalOptions
  | ["dns", "delete"] => "api-token" :: "account-id" :: globalOptions
  | _ => globalOptions

/-- Options without a value of a command. -/
def switches : CommandPath → List String
  | ["config", "show"] => ["show-secrets"]
  | ["dns", "create"] => ["overwrite", "no-allow-existing", "verify", "dry-run"]
  | ["dns", "delete"] => ["require-existing", "dry-run"]
  | _ => []

/-- Positional arguments of a command, all of them required. -/
def positionals : CommandPath → List String
  | ["config", "get"] => ["PATH"]
  | ["config", "set"] => ["PATH", "VALUE"]
  | ["env"] => ["DICTIONARY"]
  | ["dns", "create"] | ["dns", "delete"] => ["NAME"]
  | _ => []

/-- Environment variable that an option falls back to. -/
def variableOf? : String → Option String
  | "project-dir" => some "HUBCTL_PROJECT_DIR"
  | "log-level" => some "HUBCTL_LOG_LEVEL"
  | "api-token" => some "CLOUDFLARE_API_TOKEN"
  | "account-id" => some "CLOUDFLARE_ACCOUNT_ID"
  | _ => none

def ttl? (value : String) : Option Nat :=
  Number.natBelow? UInt32.size value.toList

/-- Whether an option takes a value: a path is not empty, a time to live is a number. -/
def accepts (option value : String) : Bool :=
  if option = "project-dir" || option = "write" then value != ""
  else if option = "ttl" then (ttl? value).isSome
  else true

inductive Mistake
  | unexpected (argument : String)
  | unknownCommand (name : String)
  | missingCommand (path : CommandPath)
  | missingValue (option : String)
  | invalidValue (option value : String)
  | repeated (option : String)
  | missingArguments (names : List String)
deriving DecidableEq, Inhabited

/-- Why there is no command to run. -/
inductive Stop
  | help (path : CommandPath)
  | version
  | usage (mistake : Mistake)
deriving DecidableEq, Inhabited

def purpose : CommandPath → String
  | ["config"] => "Inspect and edit the settings document"
  | ["config", "init"] => "Create the settings document with every setting documented"
  | ["config", "get"] => "Print one stored value (a name or map_setting.KEY)"
  | ["config", "set"] => "Store one value, read as the setting's type; null removes it"
  | ["config", "show"] => "Print the fully resolved settings"
  | ["env"] => "Print or write the environment dictionary of one stack"
  | ["dns"] => "Manage DNS records at the provider"
  | ["dns", "create"] => "Point a name at a target"
  | ["dns", "delete"] => "Remove the A or CNAME record at a name"
  | _ => "Manage a service hub's settings, stack environments and DNS records"

def optionPurpose : String → String
  | "project-dir" => "Project directory holding hub.toml, .env and secrets/ (default: .)"
  | "log-level" => "Log level: trace, debug, info, warn or error (default: warn)"
  | "write" => "Write a dotenv file instead of printing"
  | "show-secrets" => "Print secrets as they are"
  | "target" => "IPv4 address or DNS name (default: stable_public_dns_name)"
  | "ttl" => "Record TTL in seconds (default: dns_ttl)"
  | "overwrite" => "Replace a record that differs from the desired one"
  | "no-allow-existing" => "Fail when an identical record already exists"
  | "verify" => "Require the target to resolve to the current public IP first"
  | "require-existing" => "Fail when there is no record to delete"
  | "api-token" => "API token of the DNS provider"
  | "account-id" => "Restrict zone lookup to one account"
  | "dry-run" => "Leave out the change itself"
  | _ => ""

def usageLine (path : CommandPath) : String :=
  let below := if (commandsBelow path).isEmpty then [] else ["<COMMAND>"]
  let words := programName :: path ++ ["[OPTIONS]"] ++ (positionals path).map (fun name =>
    "<" ++ name ++ ">") ++ below
  "Usage: " ++ " ".intercalate words

def shownOption (option : String) : String :=
  "--" ++ option

def helpEntry (name purpose : String) : String :=
  "  " ++ name ++ "".pushn ' ' (22 - name.length) ++ purpose ++ "\n"

def helpText (path : CommandPath) : String :=
  let commands := (commandsBelow path).map fun name => helpEntry name (purpose (path ++ [name]))
  let options := (valueOptions path ++ switches path).map fun option =>
    helpEntry (shownOption option) (optionPurpose option)
  purpose path ++ "\n\n" ++ usageLine path ++ "\n" ++
    (if commands.isEmpty then "" else "\nCommands:\n" ++ String.join commands) ++
    "\nOptions:\n" ++ String.join options ++ helpEntry "--help" "Print help" ++
    (if path.isEmpty then helpEntry "--version" "Print version" else "")

namespace Mistake

def message : Mistake → String
  | unexpected argument => "unexpected argument '" ++ argument ++ "' found"
  | unknownCommand name => "unrecognized command '" ++ name ++ "'"
  | missingCommand path =>
      "a command is required: " ++ ", ".intercalate (commandsBelow path)
  | missingValue option =>
      "a value is required for '" ++ shownOption option ++ "' but none was supplied"
  | invalidValue option value =>
      "invalid value '" ++ value ++ "' for '" ++ shownOption option ++ "'"
  | repeated option =>
      "the argument '" ++ shownOption option ++ "' cannot be used multiple times"
  | missingArguments names =>
      "the following required arguments were not provided: " ++ " ".intercalate names

end Mistake

namespace Stop

def exitCode : Stop → Nat
  | usage _ => 2
  | _ => 0

def output : Stop → String
  | help path => helpText path
  | version => versionText
  | usage _ => ""

def errors : Stop → String
  | usage mistake =>
      "error: " ++ mistake.message ++ "\n\nFor more information, try '--help'.\n"
  | _ => ""

end Stop

end HubKeeper.Cli
