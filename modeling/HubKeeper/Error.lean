import HubKeeper.Net.Ipv4

/-!
Everything that can go wrong, by cause, and how each cause is told.

The errors of settings, schemas and documents are configuration errors: they are
mended by editing settings, not by trying again.
-/

namespace HubKeeper

inductive Error
  | missingSetting (name hint : String)
  | invalidSetting (name value constraint : String)
  | unknownSetting (name hint : String)
  | schema (reason : String)
  | schemaCycle (cycle : List String)
  | persist (path reason : String)
  | document (path reason : String)
  | zoneNotFound (name : String)
  | ambiguousRecords (name : String) (count : Nat)
  | targetMismatch (target : String) (resolved : List Ipv4) (expected : Ipv4)
  | recordExists (name existing : String)
  | recordNotFound (name : String)
  | hostProbe (reason : String)
  | config (reason : String)
  | files (reason : String)
  | json (reason : String)
  | http (reason : String)
  | authentication (reason : String)
  | rateLimited (reason : String)
  | invalidInput (reason : String)
  | provider (provider reason : String)
  | other (reason : String)
deriving DecidableEq, Inhabited

namespace Error

def message : Error → String
  | missingSetting name hint => "Missing required setting '" ++ name ++ "': " ++ hint
  | invalidSetting name value constraint =>
      "Invalid value for setting '" ++ name ++ "' (" ++ value ++ "): " ++ constraint
  | unknownSetting name hint => "Unknown setting name '" ++ name ++ "': " ++ hint
  | schema reason => "Schema definition error: " ++ reason
  | schemaCycle cycle =>
      "Schema dependency cycle between settings: " ++ " -> ".intercalate cycle
  | persist path reason => "Failed to persist " ++ path ++ ": " ++ reason
  | document path reason => "Invalid settings document " ++ path ++ ": " ++ reason
  | zoneNotFound name => "No hosted zone found for DNS name '" ++ name ++ "'"
  | ambiguousRecords name count =>
      "Ambiguous record set at '" ++ name ++ "': " ++ Text.natText count ++
        " records found; resolve manually"
  | targetMismatch target resolved expected =>
      "Target '" ++ target ++ "' resolves to [" ++ ", ".intercalate (resolved.map Ipv4.text) ++
        "], expected exactly [" ++ expected.text ++ "]"
  | recordExists name existing =>
      "DNS record '" ++ name ++ "' already exists (" ++ existing ++ "); overwrite not allowed"
  | recordNotFound name => "DNS record '" ++ name ++ "' does not exist"
  | hostProbe reason => "Host probe failed: " ++ reason
  | config reason => "Configuration error: " ++ reason
  | files reason => "I/O error: " ++ reason
  | json reason => "JSON error: " ++ reason
  | http reason => "HTTP error: " ++ reason
  | authentication reason => "Authentication failed: " ++ reason
  | rateLimited reason => "Rate limited: " ++ reason
  | invalidInput reason => "Invalid input: " ++ reason
  | provider name reason => "Provider error (" ++ name ++ "): " ++ reason
  | other reason => reason

/-- Errors that are mended by editing settings. -/
def isConfiguration : Error → Bool
  | missingSetting .. | invalidSetting .. | unknownSetting .. | schema .. | schemaCycle ..
  | document .. | config .. => true
  | _ => false

def exitCode (e : Error) : Nat :=
  if e.isConfiguration then 1 else 2

end Error

end HubKeeper
