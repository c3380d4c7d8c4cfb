import HubKeeper.Collections.Dict
import HubKeeper.Text.Fields

/-!
Writing dotenv files.

A value of letters, digits, underscores, points, colons, slashes and hyphens stands
as it is.  Any other value goes between single quotes, unless it holds one or a
line break; then it goes between double quotes with backslashes before what would
be read otherwise.
-/

namespace HubKeeper.Dotenv

def isBareChar (c : Char) : Bool :=
  c.isAlphanum || c == '_' || c == '.' || c == ':' || c == '/' || c == '-'

def escapeChar (c : Char) : List Char :=
  if c = '\\' then ['\\', '\\']
  else if c = '"' then ['\\', '"']
  else if c = '$' then ['\\', '$']
  else if c = '\n' then ['\\', 'n']
  else if c = '\r' then ['\\', 'r']
  else [c]

def quoteChars (value : List Char) : List Char :=
  if value != [] && value.all isBareChar then value
  else if !(value.contains '\'' || value.contains '\n' || value.contains '\r') then
    '\'' :: value ++ ['\'']
  else '"' :: value.flatMap escapeChar ++ ['"']

def quote (value : String) : String :=
  .ofList (quoteChars value.toList)

def assignments (entries : List (String × String)) : String :=
  String.join (entries.map fun (key, value) => key ++ "=" ++ quote value ++ "\n")

/-- A dotenv file with a heading and the variables in key order. -/
def render (heading : String) (vars : Dict String) : String :=
  "# " ++ heading ++ "\n" ++ assignments vars.entries

end HubKeeper.Dotenv
