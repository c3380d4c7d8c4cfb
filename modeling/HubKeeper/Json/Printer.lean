import HubKeeper.Json.Basic
import HubKeeper.Number.Notation

/-!
JSON text.

`Json.compact` writes no white space; `Json.pretty` puts every item and field on
a line of its own, two blanks deeper.  Quotes, backslashes and control characters
are escaped, all else stands for itself.
-/

namespace HubKeeper.Json

def escapeChar (c : Char) : List Char :=
  if c = '"' then ['\\', '"']
  else if c = '\\' then ['\\', '\\']
  else if c = '\n' then ['\\', 'n']
  else if c = '\r' then ['\\', 'r']
  else if c = '\t' then ['\\', 't']
  else if c = '\x08' then ['\\', 'b']
  else if c = '\x0c' then ['\\', 'f']
  else if c.toNat < 32 then
    ['\\', 'u', '0', '0', Text.hexDigit (c.toNat / 16), Text.hexDigit (c.toNat % 16)]
  else [c]

def stringChars (s : String) : List Char :=
  '"' :: s.toList.flatMap escapeChar ++ ['"']

def numberChars : JsonNumber → List Char
  | .int n => Text.intChars n
  | .double x => x.textChars .json

mutual

def compactChars : Json → List Char
  | .null => ['n', 'u', 'l', 'l']
  | .bool true => ['t', 'r', 'u', 'e']
  | .bool false => ['f', 'a', 'l', 's', 'e']
  | .num n => numberChars n
  | .str s => stringChars s
  | .arr items => '[' :: compactItems items
  | .obj fields => '\x7b' :: compactFields fields

/-- Items up to and with the closing bracket. -/
def compactItems : List Json → List Char
  | [] => [']']
  | [item] => compactChars item ++ [']']
  | item :: rest => compactChars item ++ ',' :: compactItems rest

/-- Fields up to and with the closing brace. -/
def compactFields : List (String × Json) → List Char
  | [] => ['\x7d']
  | [(key, value)] => stringChars key ++ ':' :: compactChars value ++ ['\x7d']
  | (key, value) :: rest =>
      stringChars key ++ ':' :: compactChars value ++ ',' :: compactFields rest

end

def compact (value : Json) : String :=
  .ofList value.compactChars

def newLine (depth : Nat) : List Char :=
  '\n' :: List.replicate (2 * depth) ' '

mutual

def prettyChars (depth : Nat) : Json → List Char
  | .arr [] => ['[', ']']
  | .obj [] => ['\x7b', '\x7d']
  | .arr items => '[' :: prettyItems (depth + 1) items ++ newLine depth ++ [']']
  | .obj fields => '\x7b' :: prettyFields (depth + 1) fields ++ newLine depth ++ ['\x7d']
  | .null => compactChars .null
  | .bool b => compactChars (.bool b)
  | .num n => numberChars n
  | .str s => stringChars s

def prettyItems (depth : Nat) : List Json → List Char
  | [] => []
  | [item] => newLine depth ++ prettyChars depth item
  | item :: rest => newLine depth ++ prettyChars depth item ++ ',' :: prettyItems depth rest

def prettyFields (depth : Nat) : List (String × Json) → List Char
  | [] => []
  | [(key, value)] => newLine depth ++ stringChars key ++ ':' :: ' ' :: prettyChars depth value
  | (key, value) :: rest =>
      newLine depth ++ stringChars key ++ ':' :: ' ' :: prettyChars depth value ++
        ',' :: prettyFields depth rest

end

/-- JSON text with one item or field a line. -/
def pretty (value : Json) : String :=
  .ofList (value.prettyChars 0)

end HubKeeper.Json
