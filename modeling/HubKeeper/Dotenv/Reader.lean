import HubKeeper.Collections.Dict
import HubKeeper.Text.Alphanumeric
import HubKeeper.Text.Ascii
import HubKeeper.Text.Blank
import HubKeeper.Text.Fields

/-!
Reading dotenv files.

A file is first cut into logical lines: a line feed inside quotes or after a
backslash continues the line, a comment after a blank ends it.  A logical line is
empty, a comment, or an assignment `NAME=value`, `export` before it or not.  A
value may be quoted in parts; outside single quotes a dollar sign puts in the
value of an earlier assignment or of the surrounding environment.
-/

namespace HubKeeper.Dotenv

/-- A line that is no assignment, with the place where reading it failed. -/
structure LineError where
  line : List Char
  place : Nat
deriving DecidableEq

namespace LineError

def message (e : LineError) : String :=
  "Error parsing line: '" ++ .ofList e.line ++ "', error at line index: " ++ Text.natText e.place

end LineError

/-- Where the scan of a logical line stands between two characters. -/
inductive ScanState
  | complete
  | escape
  | strong
  | strongEscape
  | weak
  | weakEscape
  | blank
deriving DecidableEq

/-- How a physical line leaves the scan: in some state, or at a comment that
starts after so many characters. -/
inductive ScanResult
  | state (state : ScanState)
  | comment (before : List Char)

def scanPlain (c : Char) : ScanState :=
  if c = '\\' then .escape
  else if c = '"' then .weak
  else if c = '\'' then .strong
  else .complete

def scanStep : ScanState → Char → ScanState
  | .blank, c => scanPlain c
  | .escape, _ => .complete
  | .complete, c =>
      if Text.isBlank c && c != '\n' && c != '\r' then .blank else scanPlain c
  | .weak, c => if c = '\\' then .weakEscape else if c = '"' then .complete else .weak
  | .weakEscape, _ => .weak
  | .strong, c => if c = '\\' then .strongEscape else if c = '\'' then .complete else .strong
  | .strongEscape, _ => .strong

def scanLine (state : ScanState) : List Char → ScanResult
  | [] => .state state
  | c :: rest =>
      if state = .blank && c = '#' then .comment []
      else
        match scanLine (scanStep state c) rest with
        | .comment before => .comment (c :: before)
        | .state final => .state final

/-- The lines of a text with their line feeds. -/
def physicalLines : List Char → List (List Char)
  | [] => []
  | c :: rest =>
      if c = '\n' then [c] :: physicalLines rest
      else
        match physicalLines rest with
        | [] => [[c]]
        | first :: others => (c :: first) :: others

/-- Takes off a line feed and a carriage return before it. -/
def dropLineEnd (line : List Char) : List Char :=
  if line.getLast? = some '\n' then
    let body := line.dropLast
    if body.getLast? = some '\r' then body.dropLast else body
  else line

/-- A logical line, or the line at whose quotes the file ended. -/
abbrev LogicalLine := Except LineError (List Char)

/-- Joins physical lines to logical ones.  `pending` is what the open line holds
so far. -/
def logicalLines : (pending : List Char) → ScanState → List (List Char) → List LogicalLine
  | _, .complete, [] => []
  | pending, _, [] => [.error ⟨pending, Text.byteLength pending⟩]
  | pending, state, line :: rest =>
      let whole := pending ++ line
      if (Text.trimStartChars whole).head? = some '#' then
        .ok [] :: logicalLines [] .complete rest
      else
        match scanLine state line with
        | .comment before => .ok (pending ++ before) :: logicalLines [] .complete rest
        | .state .complete => .ok (dropLineEnd whole) :: logicalLines [] .complete rest
        | .state unfinished => logicalLines whole unfinished rest

inductive Substitution
  | none
  | name
  | braced
deriving DecidableEq

structure ValueState where
  strong : Bool
  weak : Bool
  escaped : Bool
  /-- Only blanks and a comment may follow. -/
  ended : Bool
  substitution : Substitution
  name : List Char
  output : List Char
deriving DecidableEq

namespace ValueState

def start : ValueState := ⟨false, false, false, false, .none, [], []⟩

def put (s : ValueState) (c : Char) : ValueState :=
  { s with output := s.output ++ [c] }

end ValueState

structure Variables where
  surrounding : Dict String
  assigned : Dict String

namespace Variables

def value (vars : Variables) (name : List Char) : List Char :=
  let key := String.ofList name
  match vars.surrounding.get? key with
  | some text => if key = "" then [] else text.toList
  | none => ((vars.assigned.get? key).getD "").toList

end Variables

def ValueState.substitute (vars : Variables) (s : ValueState) : ValueState :=
  { s with output := s.output ++ vars.value s.name, name := [] }

inductive ValueStep
  | next (state : ValueState)
  | stop (state : ValueState)
  | fail

def stepSubstitution (vars : Variables) (s : ValueState) (c : Char) : ValueState :=
  if Text.isAlphanumeric c then { s with name := s.name ++ [c] }
  else
    match s.substitution with
    | .braced =>
        if c = '\x7d' then { s.substitute vars with substitution := .none }
        else { s with name := s.name ++ [c] }
    | _ =>
        if c = '\x7b' && s.name = [] then { s with substitution := .braced }
        else if c = '$' then { s.substitute vars with substitution := .name }
        else ({ s.substitute vars with substitution := .none }).put c

def stepValue (vars : Variables) (s : ValueState) (c : Char) : ValueStep :=
  -- Behind the value only blanks and a comment may stand.
  if s.ended then
    if c = ' ' || c = '\t' then .next s
    else if c = '#' then .stop s
    else .fail
  else if s.escaped then
    if c = '\\' || c = '\'' || c = '"' || c = '$' || c = ' ' then
      .next ({ s with escaped := false }.put c)
    else if c = 'n' then .next ({ s with escaped := false }.put '\n')
    else .fail
  -- Between single quotes no character but the closing one has a meaning.
  else if s.strong then
    if c = '\'' then .next { s with strong := false } else .next (s.put c)
  else if s.substitution ≠ .none then .next (stepSubstitution vars s c)
  else if c = '$' then .next { s with substitution := .name }
  else if s.weak then
    if c = '"' then .next { s with weak := false }
    else if c = '\\' then .next { s with escaped := true }
    else .next (s.put c)
  else if c = '\'' then .next { s with strong := true }
  else if c = '"' then .next { s with weak := true }
  else if c = '\\' then .next { s with escaped := true }
  else if c = ' ' || c = '\t' then .next { s with ended := true }
  else .next (s.put c)

/-- Reads characters of a value from place `place` on; fails with a place. -/
def runValue (vars : Variables) : ValueState → (place : Nat) → List Char →
    Except Nat ValueState
  | s, _, [] => .ok s
  | s, place, c :: rest =>
      match stepValue vars s c with
      | .next s => runValue vars s (place + 1) rest
      | .stop s => .ok s
      | .fail => .error place

def readValue (vars : Variables) (text : List Char) : Except LineError (List Char) :=
  match runValue vars .start 0 text with
  | .error place => .error ⟨text, place⟩
  | .ok s =>
      if s.substitution = .braced || s.strong || s.weak then
        .error ⟨text, Text.byteLength text - 1⟩
      else .ok (s.substitute vars).output

def isNameStart (c : Char) : Bool :=
  c.isAlpha || c == '_'

def isNameChar (c : Char) : Bool :=
  c.isAlphanum || c == '_' || c == '.'

def readName : List Char → Option (List Char × List Char)
  | [] => none
  | c :: rest =>
      if isNameStart c then
        some ((c :: rest).takeWhile isNameChar, (c :: rest).dropWhile isNameChar)
      else none

/-- An assignment in front of its value: the name and the rest after the equals
sign, blanks skipped; or what was left where reading failed. -/
def readTarget (line : List Char) : Except (List Char) (List Char × List Char) :=
  let equals (name rest : List Char) : Except (List Char) (List Char × List Char) :=
    match rest with
    | '=' :: value => .ok (name, Text.trimStartChars value)
    | _ => .error rest
  match readName line with
  | none => .error line
  | some (name, afterName) =>
      let rest := Text.trimStartChars afterName
      if name = ['e', 'x', 'p', 'o', 'r', 't'] && rest.head? != some '=' then
        match readName rest with
        | none => .error rest
        | some (name, afterName) => equals name (Text.trimStartChars afterName)
      else equals name rest

def readLine (vars : Variables) (line : List Char) :
    Except LineError (Option (String × String)) :=
  let trimmed := Text.trimEndChars line
  let body := Text.trimStartChars trimmed
  if body = [] || body.head? = some '#' then .ok none
  else
    match readTarget body with
    | .error left => .error ⟨line, Text.byteLength trimmed - Text.byteLength left⟩
    | .ok (name, value) =>
        if value = [] || value.head? = some '#' then .ok (some (.ofList name, ""))
        else (readValue vars value).map fun text => some (.ofList name, .ofList text)

def readLines : Variables → List LogicalLine → Except LineError (List (String × String))
  | _, [] => .ok []
  | _, .error e :: _ => .error e
  | vars, .ok line :: rest =>
      match readLine vars line with
      | .error e => .error e
      | .ok none => readLines vars rest
      | .ok (some (name, value)) =>
          (readLines { vars with assigned := vars.assigned.insert name value } rest).map
            ((name, value) :: ·)

def read (surrounding : Dict String) (text : String) :
    Except LineError (List (String × String)) :=
  readLines ⟨surrounding, .empty⟩ (logicalLines [] .complete (physicalLines text.toList))

end HubKeeper.Dotenv
