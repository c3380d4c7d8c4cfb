import HubKeeper.Settings.Schema

/-!
Paths into a settings document: a setting, or a key of a setting that is a map.
-/

namespace HubKeeper

structure SettingPath where
  setting : String
  key : Option String
deriving DecidableEq

namespace SettingPath

/-- The path that a text names, checked against the schema. -/
def parse (schema : Schema) (text : String) : Except Error SettingPath :=
  let segments := Text.splitOn '.' text
  if segments.contains "" || 2 < segments.length then
    .error (.unknownSetting text "paths are 'setting' or 'setting.key' with non-empty segments")
  else
    let name := segments.headD ""
    let key := segments[1]?
    match schema.get? name with
    | none => .error (.unknownSetting text ("'" ++ name ++ "' is not a known setting"))
    | some setting =>
        if key.isSome && setting.kind != .textMap then
          .error (.unknownSetting text
            ("'" ++ name ++ "' is a " ++ setting.kind.title ++ ", only map settings have sub-keys"))
        else .ok ⟨name, key⟩

def text (path : SettingPath) : String :=
  match path.key with
  | some key => path.setting ++ "." ++ key
  | none => path.setting

end SettingPath

end HubKeeper
