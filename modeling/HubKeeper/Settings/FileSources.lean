import HubKeeper.Dotenv.Reader
import HubKeeper.Files.Tree
import HubKeeper.Settings.Environment

/-!
Settings from a dotenv file and from a directory of secrets.

A dotenv file is read like the environment.  A secrets directory holds one file
for each setting, named after it in upper or lower case; line breaks at the end of
the file do not count.  A file or directory that is missing supplies nothing.
-/

namespace HubKeeper.FileSources

def dotenv (tree : FileTree) (surrounding : Dict String) (path lead : String)
    (schema : Schema) : Except Error Layer :=
  let name := "dotenv file " ++ path
  match tree.readText path with
  | .error .notFound => .ok ⟨name, .empty⟩
  | .error fault => .error (.config ("Cannot read " ++ path ++ ": " ++ fault.message))
  | .ok text =>
      match Dotenv.read surrounding text with
      | .error e => .error (.config ("Cannot parse " ++ path ++ ": " ++ e.message))
      | .ok vars => .ok ⟨name, Environment.values schema lead vars⟩

/-- Text of a secret without line breaks at its end. -/
def secretText (text : String) : String :=
  .ofList (Text.dropEndWhile (fun c => c == '\r' || c == '\n') text.toList)

def secretValues (schema : Schema) : List (String × FileNode) → Dict Json →
    Except Error (Dict Json)
  | [], values => .ok values
  | (_, .directory) :: rest, values => secretValues schema rest values
  | (fileName, .file contents _) :: rest, values =>
      let name := Text.lower fileName
      if schema.contains name then
        match String.fromUTF8? contents with
        | none => .error (.files FileFault.invalidText.message)
        | some text => secretValues schema rest (values.insert name (.str (secretText text)))
      else secretValues schema rest values

def secrets (tree : FileTree) (path : String) (schema : Schema) : Except Error Layer :=
  let name := "secrets directory " ++ path
  match tree.list path with
  | .error .notFound => .ok ⟨name, .empty⟩
  | .error fault => .error (.files fault.message)
  | .ok entries => (secretValues schema entries .empty).map fun values => ⟨name, values⟩

end HubKeeper.FileSources
