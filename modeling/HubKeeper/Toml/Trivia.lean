import HubKeeper.Toml.Basic

/-!
Blanks, line ends and comments of documents.

A line ends in a line feed, with or without a carriage return before it.  A comment
runs from a number sign to the end of its line and holds no control character but
tabs.
-/

namespace HubKeeper.Toml

def isBlank (c : Char) : Bool :=
  c == ' ' || c == '\t'

/-- A character that stands in comments, literal strings and, but for quotes and
backslashes, in basic strings. -/
def isPlainChar (c : Char) : Bool :=
  c == '\t' || (0x20 ≤ c.toNat && c.toNat ≤ 0x7e) || 0x80 ≤ c.toNat

def afterLineEnd? : List Char → Option (List Char)
  | '\n' :: rest => some rest
  | '\r' :: '\n' :: rest => some rest
  | _ => none

def splitBlanks (cs : List Char) : Raw × List Char :=
  (cs.takeWhile isBlank, cs.dropWhile isBlank)

def splitComment : List Char → Raw × List Char
  | '#' :: rest => ('#' :: rest.takeWhile isPlainChar, rest.dropWhile isPlainChar)
  | cs => ([], cs)

def splitTrivia (cs : List Char) (comment : Bool) : Raw × List Char :=
  match cs with
  | [] => ([], [])
  | '\n' :: rest => let (raw, tail) := splitTrivia rest false; ('\n' :: raw, tail)
  | '\r' :: '\n' :: rest =>
      let (raw, tail) := splitTrivia rest false
      ('\r' :: '\n' :: raw, tail)
  | c :: rest =>
      if (comment && isPlainChar c) || isBlank c then
        let (raw, tail) := splitTrivia rest comment
        (c :: raw, tail)
      else if c = '#' then
        let (raw, tail) := splitTrivia rest true
        (c :: raw, tail)
      else ([], c :: rest)

/-- The rest of a statement's line, blanks and a comment, and what follows the line. -/
def restOfLine? (cs : List Char) : Option (Raw × List Char) :=
  let (blanks, rest) := splitBlanks cs
  let (comment, rest) := splitComment rest
  match rest with
  | [] => some (blanks ++ comment, [])
  | _ => (afterLineEnd? rest).map fun tail => (blanks ++ comment, tail)

end HubKeeper.Toml
