import HubKeeper.Number.Notation
import HubKeeper.Toml.Basic

/-!
Spelling of keys and scalars that have none of their own.

A text is written in the first of these forms that can hold it: on one line
between double quotes without escapes, on one line between single quotes, over
several lines between triple double quotes without backslashes, over several
lines between triple single quotes; otherwise with escapes.
-/

namespace HubKeeper.Toml

def isBareKeyChar (c : Char) : Bool :=
  c.isAlphanum || c == '-' || c == '_'

/-- A control character that only an escape can write. -/
def needsEscape (c : Char) : Bool :=
  (c.toNat ≤ 0x1f && c != '\t' && c != '\n') || c.toNat = 0x7f

def longestRun (c : Char) : (current best : Nat) → List Char → Nat
  | _, best, [] => best
  | current, best, d :: rest =>
      if d = c then longestRun c (current + 1) (max best (current + 1)) rest
      else longestRun c 0 best rest

def escapedChar (c : Char) : List Char :=
  if c = '\x08' then ['\\', 'b']
  else if c = '\t' then ['\\', 't']
  else if c = '\n' then ['\\', 'n']
  else if c = '\x0c' then ['\\', 'f']
  else if c = '\r' then ['\\', 'r']
  else if c = '"' then ['\\', '"']
  else if c = '\\' then ['\\', '\\']
  else
    ['\\', 'u', '0', '0', Text.upperHexDigit (c.toNat / 16), Text.upperHexDigit (c.toNat % 16)]

def basicEscapes (c : Char) : Bool :=
  c.toNat ≤ 0x1f || c.toNat = 0x7f || c = '"' || c = '\\'

def basicBody (cs : List Char) : List Char :=
  cs.flatMap fun c => if basicEscapes c then escapedChar c else [c]

/-- Body of a string between triple double quotes: line feeds stand for themselves,
and so do up to two quotes in a row. -/
def multilineBody : (quotes : Nat) → List Char → List Char
  | _, [] => []
  | quotes, c :: rest =>
      if c = '"' then
        if quotes < 2 then '"' :: multilineBody (quotes + 1) rest
        else '\\' :: '"' :: multilineBody 0 rest
      else if c = '\n' then '\n' :: multilineBody 0 rest
      else if basicEscapes c then escapedChar c ++ multilineBody 0 rest
      else c :: multilineBody 0 rest

def tripleDouble : List Char := ['"', '"', '"']

def tripleSingle : List Char := ['\'', '\'', '\'']

/-- A line feed after the opening quotes of a text with line feeds. -/
def openingLine (cs : List Char) : List Char :=
  if cs.contains '\n' then ['\n'] else []

def basicChars (cs : List Char) : List Char :=
  '"' :: basicBody cs ++ ['"']

def multilineChars (cs : List Char) : List Char :=
  tripleDouble ++ openingLine cs ++ multilineBody 0 cs ++ tripleDouble

def textChars (cs : List Char) : List Char :=
  let controls := cs.any needsEscape
  let backslash := cs.contains '\\'
  let newline := cs.contains '\n'
  let doubles := longestRun '"' 0 0 cs
  let singles := longestRun '\'' 0 0 cs
  if !controls && !backslash && doubles = 0 && !newline then basicChars cs
  else if !controls && singles = 0 && !newline then '\'' :: cs ++ ['\'']
  else if !controls && !backslash && doubles ≤ 2 then multilineChars cs
  else if !controls && singles ≤ 2 then
    tripleSingle ++ openingLine cs ++ cs ++ tripleSingle
  else if newline then multilineChars cs
  else basicChars cs

/-- A name as a key: bare if it can be, else quoted on one line. -/
def keyChars (cs : List Char) : List Char :=
  let controls := cs.any fun c => needsEscape c || c == '\n'
  if cs != [] && cs.all isBareKeyChar then cs
  else if !controls && !cs.contains '\\' && !cs.contains '"' then basicChars cs
  else if !controls && !cs.contains '\'' then '\'' :: cs ++ ['\'']
  else basicChars cs

namespace Scalar

def spellingChars : Scalar → List Char
  | text s => textChars s.toList
  | integer n => Text.intChars n
  | float x => x.textChars .document
  | boolean true => ['t', 'r', 'u', 'e']
  | boolean false => ['f', 'a', 'l', 's', 'e']
  | moment m => m.chars

end Scalar

end HubKeeper.Toml
