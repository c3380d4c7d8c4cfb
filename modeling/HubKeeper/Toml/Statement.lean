import HubKeeper.Toml.Value

/-!
Statements of a document: pairs of a dotted key and a value, headers of tables and
headers of elements of a list of tables.  What stands between two statements belongs
to the second; what stands after the last belongs to the document.
-/

namespace HubKeeper.Toml

inductive Statement
  | pair (path : List Key) (key : Key) (value : Node)
  | header (path : List Key) (key : Key) (decor : Decor)
  | element (path : List Key) (key : Key) (decor : Decor)

namespace Statement

def pair? (lead : Raw) (cs : List Char) : Option (Statement × List Char) :=
  match dottedKey? lead cs with
  | some ((path, key), '=' :: rest) =>
      let (before, start) := splitBlanks rest
      match readValue? start with
      | none => none
      | some (node, rest) =>
          (restOfLine? rest).map fun (after, tail) =>
            (.pair path key (node.withDecor ⟨some before, some after⟩), tail)
  | _ => none

def header? (lead : Raw) (cs : List Char) : Option (Statement × List Char) :=
  match dottedKey? [] cs with
  | some ((path, key), ']' :: rest) =>
      (restOfLine? rest).map fun (after, tail) =>
        (.header path key ⟨some lead, some after⟩, tail)
  | _ => none

def element? (lead : Raw) (cs : List Char) : Option (Statement × List Char) :=
  match dottedKey? [] cs with
  | some ((path, key), ']' :: ']' :: rest) =>
      (restOfLine? rest).map fun (after, tail) =>
        (.element path key ⟨some lead, some after⟩, tail)
  | _ => none

def read? (lead : Raw) : List Char → Option (Statement × List Char)
  | '[' :: '[' :: rest => element? lead rest
  | '[' :: rest => header? lead rest
  | cs => pair? lead cs

def readAll? : (fuel : Nat) → List Char → Option (List Statement × Raw)
  | 0, _ => none
  | fuel + 1, cs =>
      let (lead, rest) := splitTrivia cs false
      if rest = [] then some ([], lead)
      else
        match read? lead rest with
        | none => none
        | some (statement, tail) =>
            (readAll? fuel tail).map fun (statements, trailing) =>
              (statement :: statements, trailing)

end Statement

end HubKeeper.Toml
