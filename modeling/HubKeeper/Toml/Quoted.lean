import HubKeeper.Text.Ascii
import HubKeeper.Text.Fields
import HubKeeper.Toml.Trivia

/-!
Quoted texts: between double quotes with escapes, or between single quotes as they
stand; on one line, or over several lines between triple quotes.

Over several lines, up to two quotes in a row belong to the text, also right before
the closing quotes.  A line end right after the opening quotes is dropped, and every
other one reads as a line feed.
-/

namespace HubKeeper.Toml

def hexDigits? (count : Nat) (cs : List Char) : Option (Nat × List Char) :=
  let digits := cs.take count
  if digits.length = count && digits.all Text.isHexDigit then
    some (digits.foldl (fun n c => n * 16 + Text.hexValue c) 0, cs.drop count)
  else none

def scalarChar? (code : Nat) : Option Char :=
  if code.isValidChar then some (Char.ofNat code) else none

/-- The character that an escape writes, given what follows the backslash. -/
def escaped? : List Char → Option (Char × List Char)
  | 'b' :: rest => some ('\x08', rest)
  | 't' :: rest => some ('\t', rest)
  | 'n' :: rest => some ('\n', rest)
  | 'f' :: rest => some ('\x0c', rest)
  | 'r' :: rest => some ('\r', rest)
  | '"' :: rest => some ('"', rest)
  | '\\' :: rest => some ('\\', rest)
  | 'u' :: rest => withCode 4 rest
  | 'U' :: rest => withCode 8 rest
  | _ => none
where
  withCode (count : Nat) (cs : List Char) : Option (Char × List Char) :=
    match hexDigits? count cs with
    | some (code, rest) => (scalarChar? code).map fun c => (c, rest)
    | none => none

def before (c : Char) (found : Option (List Char × List Char)) : Option (List Char × List Char) :=
  found.map fun (text, rest) => (c :: text, rest)

def basicBody? : (fuel : Nat) → List Char → Option (List Char × List Char)
  | 0, _ => none
  | _, [] => none
  | fuel + 1, c :: rest =>
      if c = '"' then some ([], rest)
      else if c = '\\' then
        match escaped? rest with
        | some (d, tail) => before d (basicBody? fuel tail)
        | none => none
      else if isPlainChar c then before c (basicBody? fuel rest)
      else none

def literalBody? : List Char → Option (List Char × List Char)
  | [] => none
  | c :: rest =>
      if c = '\'' then some ([], rest)
      else if isPlainChar c then before c (literalBody? rest)
      else none

/-- A backslash at the end of a line joins it to the next text: what follows the
blanks and line ends, given what follows the backslash. -/
def afterJoin? (cs : List Char) : Option (List Char) :=
  (afterLineEnd? (cs.dropWhile isBlank)).map skipLines
where
  skipLines : List Char → List Char
    | '\n' :: rest => skipLines rest
    | '\r' :: '\n' :: rest => skipLines rest
    | ' ' :: rest => skipLines rest
    | '\t' :: rest => skipLines rest
    | rest => rest

/-- Quotes at the front of a multi-line text.  Fewer than three belong to the text
and so do the first of four or five; three close it. -/
inductive QuoteRun
  | within (count : Nat) (rest : List Char)
  | closing (count : Nat) (rest : List Char)

def quoteRun (quote : Char) (cs : List Char) : QuoteRun :=
  let count := (cs.takeWhile (· == quote)).length
  if count < 3 then .within count (cs.drop count)
  else
    let inside := min (count - 3) 2
    .closing inside (cs.drop (inside + 3))

def multilineBody? (quote : Char) : (fuel : Nat) → List Char → Option (List Char × List Char)
  | 0, _ => none
  | _, [] => none
  | fuel + 1, c :: rest =>
      if c = quote then
        -- Quotes belong to the text if they come in short runs, or before the closing ones.
        match quoteRun quote (c :: rest) with
        | .within count tail =>
            (multilineBody? quote fuel tail).map fun (text, tail) =>
              (List.replicate count quote ++ text, tail)
        | .closing count tail => some (List.replicate count quote, tail)
      else if c = '\\' && quote = '"' then
        -- A backslash at the end of a line joins it with what follows.
        match afterJoin? rest with
        | some tail => multilineBody? quote fuel tail
        | none =>
            match escaped? rest with
            | some (d, tail) => before d (multilineBody? quote fuel tail)
            | none => none
      else if isPlainChar c then before c (multilineBody? quote fuel rest)
      else
        match afterLineEnd? (c :: rest) with
        | some tail => before '\n' (multilineBody? quote fuel tail)
        | none => none

def multilineText? (quote : Char) (cs : List Char) : Option (List Char × List Char) :=
  multilineBody? quote (cs.length + 1) ((afterLineEnd? cs).getD cs)

def lineText? (quote : Char) (cs : List Char) : Option (List Char × List Char) :=
  if quote = '"' then basicBody? (cs.length + 1) cs else literalBody? cs

def quotedText? : List Char → Option (List Char × List Char)
  | a :: b :: c :: rest =>
      if (a = '"' || a = '\'') && b = a && c = a then multilineText? a rest
      else if a = '"' || a = '\'' then lineText? a (b :: c :: rest)
      else none
  | a :: rest => if a = '"' || a = '\'' then lineText? a rest else none
  | [] => none

end HubKeeper.Toml
