import HubKeeper.Document.Basic

/-!
The document a fresh installation starts with: every setting with its description,
constants as values and everything else as a placeholder in a comment.
-/

namespace HubKeeper.SettingsDocument

/-- Comment before the settings. -/
def introduction : List String :=
  ["# Service hub settings.",
    "#",
    "# Managed settings live in the [hub] table; anything else in this file is",
    "# kept as-is but ignored. This file can hold secrets: keep it private.",
    "",
    "version = \"1.0\"",
    "",
    "[" ++ hubName ++ "]"]

/-- Lines of a description without blank ones. -/
def descriptionLines (setting : Setting) : List String :=
  ((Text.lines setting.description.toList).map fun line => Text.trim (.ofList line)).filter (· != "")

/-- The value that is written for a setting: its constant, unless it is a secret. -/
def writtenConstant? (setting : Setting) : Option Value :=
  match setting.rule with
  | .constant value => if setting.sensitive then none else some value
  | _ => none

def settingLines (setting : Setting) : List String :=
  let required := if setting.isRequired then ", required" else ""
  let line := match writtenConstant? setting with
    | some value => setting.name ++ " = " ++ (nodeOf value).text
    | none => "# " ++ setting.name ++ " = <" ++ setting.kind.title ++ ">"
  "" :: (descriptionLines setting).map ("# " ++ ·) ++
    ["# (" ++ setting.kind.title ++ required ++ ")", line]

def canonicalText (schema : Schema) : String :=
  "\n".intercalate (introduction ++ schema.settings.flatMap settingLines) ++ "\n"

def canonical (schema : Schema) : Except Error SettingsDocument :=
  match Toml.Document.parse? (canonicalText schema) with
  | some document => .ok document
  | none =>
      .error (.schema "generated settings document does not parse: TOML parse error")

end HubKeeper.SettingsDocument
