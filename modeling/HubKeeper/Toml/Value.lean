import HubKeeper.Toml.Bare
import HubKeeper.Toml.Quoted
import HubKeeper.Toml.Spelling

/-!
Reading keys and values.

Arrays and inline tables nest at most 79 levels, and a dotted key has fewer than 80
parts.  An inline table stands on one line, but for line ends inside its values.
-/

namespace HubKeeper.Toml

def consumed (cs rest : List Char) : Raw :=
  cs.take (cs.length - rest.length)

structure KeyPart where
  before : Raw
  name : String
  spelling : Raw
  after : Raw

def keyName? (cs : List Char) : Option (String × List Char) :=
  match cs with
  | '"' :: rest => (lineText? '"' rest).map fun (name, tail) => (.ofList name, tail)
  | '\'' :: rest => (lineText? '\'' rest).map fun (name, tail) => (.ofList name, tail)
  | _ =>
      match cs.takeWhile isBareKeyChar with
      | [] => none
      | name => some (.ofList name, cs.dropWhile isBareKeyChar)

def keyPart? (cs : List Char) : Option (KeyPart × List Char) :=
  let (before, start) := splitBlanks cs
  match keyName? start with
  | none => none
  | some (name, rest) =>
      let (after, tail) := splitBlanks rest
      some (⟨before, name, consumed start rest, after⟩, tail)

def keyParts? : (fuel : Nat) → List Char → Option (List KeyPart × List Char)
  | 0, _ => none
  | fuel + 1, cs =>
      match keyPart? cs with
      | none => none
      | some (part, '.' :: rest) =>
          (keyParts? fuel rest).map fun (parts, tail) => (part :: parts, tail)
      | some (part, rest) => some ([part], rest)

/-- Keys of the parts.  The blanks around the whole dotted key, with a lead before
it, belong to its last key; the others keep theirs between the points. -/
def keysOf (lead : Raw) : (first : Bool) → List KeyPart → List Key
  | _, [] => []
  | first, [part] =>
      [⟨part.name, some part.spelling, ⟨some lead, some part.after⟩,
        ⟨some (if first then [] else part.before), some []⟩⟩]
  | first, part :: rest =>
      ⟨part.name, some part.spelling, .default,
        ⟨some (if first then [] else part.before), some part.after⟩⟩ :: keysOf lead false rest

def maxKeyParts : Nat := 79

/-- A dotted key at the front of the text: the keys before the last one and the last.
`lead` stands before it. -/
def dottedKey? (lead : Raw) (cs : List Char) : Option ((List Key × Key) × List Char) :=
  match keyParts? maxKeyParts cs with
  | none => none
  | some (parts, rest) =>
      let keys := keysOf (lead ++ (parts.head?.elim [] KeyPart.before)) true parts
      keys.getLast?.map fun last => ((keys.dropLast, last), rest)

/-- Puts a value under a dotted key into the entries of an inline table.  The tables
on the way must be made by dotted keys. -/
def insertDotted (key : Key) (value : Node) : List Key → Entries → Option Entries
  | [], entries =>
      if (entries.find? key.name).isSome then none else some (entries ++ [(key, value)])
  | step :: path, entries =>
      match entries.find? step.name with
      | none =>
          (insertDotted key value path []).map fun made =>
            entries ++ [(step, .inline made ⟨[], true, .default⟩)]
      | some (.inline inner layout) =>
          if layout.dotted then
            (insertDotted key value path inner).map fun changed =>
              entries.modify step.name fun (k, _) => (k, .inline changed layout)
          else none
      | some _ => none

def inlineOfPairs (pairs : List ((List Key × Key) × Node)) : Option Entries :=
  pairs.foldlM (fun entries ((path, key), value) => insertDotted key value path entries) []

def scalar? (cs : List Char) : Option (Node × List Char) :=
  match quotedText? cs with
  | some (text, rest) => some (.scalar (.text (.ofList text)) (some (consumed cs rest)) .tight, rest)
  | none =>
      let (spelling, rest) := bareSpelling cs
      (bareScalar? spelling).map fun value => (.scalar value (some spelling) .tight, rest)

/-- Nesting of arrays and inline tables that is still read. -/
def maxNesting : Nat := 79

mutual

/-- One value at the front of the text, and what follows it.  `depth` levels of
nesting are left. -/
def value? : (fuel : Nat) → (depth : Nat) → List Char → Option (Node × List Char)
  | 0, _, _ => none
  | fuel + 1, depth, cs =>
      match cs, depth with
      | '[' :: _, 0 | '\x7b' :: _, 0 => none
      | '[' :: ']' :: rest, _ + 1 => some (.array [] ⟨[], false, .tight⟩, rest)
      | '[' :: rest, depth + 1 =>
          (items? fuel depth rest).map fun ((items, comma, trailing), tail) =>
            (.array items ⟨trailing, comma, .tight⟩, tail)
      | '\x7b' :: rest, depth + 1 =>
          -- Blanks are kept between empty braces only; others go with the pairs.
          let (blanks, start) := splitBlanks rest
          match start with
          | '\x7d' :: tail => some (.inline [] ⟨blanks, false, .tight⟩, tail)
          | _ =>
              match pairs? fuel depth rest with
              | none => none
              | some (pairs, tail) =>
                  (inlineOfPairs pairs).map fun entries =>
                    (.inline entries ⟨[], false, .tight⟩, tail)
      | cs, _ => scalar? cs

/-- Items of an array up to its closing bracket, whether a comma follows the last of
them, and what stands before the bracket. -/
def items? : (fuel : Nat) → (depth : Nat) → List Char →
    Option ((List Node × Bool × Raw) × List Char)
  | 0, _, _ => none
  | fuel + 1, depth, cs =>
      let (before, start) := splitTrivia cs false
      match start with
      | ']' :: tail => some (([], true, before), tail)
      | _ =>
          match value? fuel depth start with
          | none => none
          | some (item, rest) =>
              let (after, rest) := splitTrivia rest false
              let item := item.withDecor ⟨some before, some after⟩
              match rest with
              | ']' :: tail => some (([item], false, []), tail)
              | ',' :: tail =>
                  (items? fuel depth tail).map fun ((items, comma, trailing), tail) =>
                    ((item :: items, comma, trailing), tail)
              | _ => none

def pairs? : (fuel : Nat) → (depth : Nat) → List Char →
    Option (List ((List Key × Key) × Node) × List Char)
  | 0, _, _ => none
  | fuel + 1, depth, cs =>
      match dottedKey? [] cs with
      | some (key, '=' :: rest) =>
          let (before, start) := splitBlanks rest
          match value? fuel depth start with
          | none => none
          | some (node, rest) =>
              let (after, rest) := splitBlanks rest
              let node := node.withDecor ⟨some before, some after⟩
              match rest with
              | '\x7d' :: tail => some ([(key, node)], tail)
              | ',' :: tail =>
                  (pairs? fuel depth tail).map fun (pairs, tail) => ((key, node) :: pairs, tail)
              | _ => none
      | _ => none

end

def readValue? (cs : List Char) : Option (Node × List Char) :=
  value? (2 * cs.length + 2) maxNesting cs

end HubKeeper.Toml
