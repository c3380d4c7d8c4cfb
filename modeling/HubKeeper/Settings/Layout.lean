import HubKeeper.Error
import HubKeeper.Files.Path
import HubKeeper.Json.Record
import HubKeeper.Settings.Validator

/-!
Where a project keeps its settings.
-/

namespace HubKeeper

structure ProjectLayout where
  projectDir : String
  settingsFile : String
  dotenvFile : String
  secretsDir : String
  lead : String
deriving DecidableEq

namespace ProjectLayout

/-- Lead of environment variables that supply settings. -/
def defaultLead : String := "HUB_"

def standard (directory : String) : ProjectLayout where
  projectDir := directory
  settingsFile := Path.join directory "hub.toml"
  dotenvFile := Path.join directory ".env"
  secretsDir := Path.join directory "secrets"
  lead := defaultLead

def validate (layout : ProjectLayout) : Except Error Unit :=
  if layout.settingsFile = "" then .error (.config "Settings file path cannot be empty")
  else if (Path.fileName? layout.settingsFile).isNone then
    .error (.config ("Settings file path " ++ layout.settingsFile ++ " does not name a file"))
  else if layout.lead = "" then .error (.config "Environment prefix cannot be empty")
  else if !isEnvKey layout.lead then
    .error (.config ("Environment prefix '" ++ layout.lead ++
      "' is not a valid variable name prefix"))
  else .ok ()

def fieldNames : List String :=
  ["project_dir", "settings_file", "dotenv_file", "secrets_dir", "env_prefix"]

def toJson (layout : ProjectLayout) : Json :=
  .obj [("project_dir", .str layout.projectDir), ("settings_file", .str layout.settingsFile),
    ("dotenv_file", .str layout.dotenvFile), ("secrets_dir", .str layout.secretsDir),
    ("env_prefix", .str layout.lead)]

def ofJson? (json : Json) : Option ProjectLayout :=
  match json.record? fieldNames with
  | some [project, settings, dotenv, secrets, lead] => do
      return ⟨← project.required? Json.text?, ← settings.required? Json.text?,
        ← dotenv.required? Json.text?, ← secrets.required? Json.text?,
        ← lead.withDefault? defaultLead Json.text?⟩
  | _ => none

end ProjectLayout

end HubKeeper
