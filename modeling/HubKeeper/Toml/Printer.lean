import HubKeeper.Toml.Spelling

/-!
Printing of documents.

Every part is printed in its own spelling and decor, or in the default layout
where it has none; carriage returns of a spelling are left out.  Tables
appear in the order of their positions; one without a position comes after the
last table printed before it in the tree.
-/

namespace HubKeeper.Toml

/-- Text of a document without carriage returns. -/
def rawChars (raw : Raw) : List Char :=
  raw.filter (· != '\r')

/-- Decor where there is none: before and after. -/
abbrev DefaultDecor := List Char × List Char

namespace Decor

def beforeChars (decor : Decor) (default : List Char) : List Char :=
  decor.before.elim default rawChars

def afterChars (decor : Decor) (default : List Char) : List Char :=
  decor.after.elim default rawChars

end Decor

namespace Key

def chars (key : Key) : List Char :=
  key.spelling.elim (keyChars key.name.toList) rawChars

end Key

/-- Keys of a path from the second on, each after a point. -/
def pathTail (leaf : Decor) (after : List Char) : Key → List Key → List Char
  | key, [] => key.chars ++ leaf.afterChars after
  | key, next :: rest =>
      key.chars ++ key.dotted.afterChars [] ++ '.' :: next.dotted.beforeChars [] ++
        pathTail leaf after next rest

/-- A dotted key.  What is around it belongs to its last part. -/
def pathChars (default : DefaultDecor) (path : List Key) : List Char :=
  match path with
  | [] => []
  | first :: rest =>
      let leaf := (path.getLast?.getD first).leaf
      leaf.beforeChars default.1 ++ pathTail leaf default.2 first rest

mutual

/-- Entries of a table that stand behind equals signs, with their dotted keys. -/
def flatEntries (path : List Key) : List (Key × Node) → List (List Key × Node)
  | [] => []
  | (key, node) :: rest => flatEntry (path ++ [key]) node ++ flatEntries path rest

def flatEntry (path : List Key) : Node → List (List Key × Node)
  | .inline entries layout =>
      if layout.dotted then flatEntries path entries else [(path, .inline entries layout)]
  | .table entries layout => if layout.dotted then flatEntries path entries else []
  | .scalar value spelling decor => [(path, .scalar value spelling decor)]
  | .array items layout => [(path, .array items layout)]
  | .tables _ => []

end

def inlineChars : List (List Key × List Char × List Char) → List Char
  | [] => []
  | [(path, _, last)] => pathChars ([' '], [' ']) path ++ '=' :: last
  | (path, middle, _) :: rest =>
      pathChars ([' '], [' ']) path ++ '=' :: middle ++ ',' :: inlineChars rest

mutual

def valueChars (default : DefaultDecor) : Node → List Char
  | .scalar value spelling decor =>
      decor.beforeChars default.1 ++ spelling.elim value.spellingChars rawChars ++
        decor.afterChars default.2
  | .array items layout =>
      layout.decor.beforeChars default.1 ++ '[' :: itemsChars true items ++
        (if layout.comma && !items.isEmpty then [','] else []) ++
        rawChars layout.trailing ++ ']' :: layout.decor.afterChars default.2
  | .inline entries layout =>
      layout.decor.beforeChars default.1 ++ '\x7b' :: rawChars layout.opening ++
        inlineChars (inlineEntries [] entries) ++ '\x7d' :: layout.decor.afterChars default.2
  | .table .. | .tables .. => []

/-- Items of an array, from the first or from a later one on. -/
def itemsChars : (first : Bool) → List Node → List Char
  | _, [] => []
  | first, item :: rest =>
      (if first then valueChars ([], []) item else ',' :: valueChars ([' '], []) item) ++
        itemsChars false rest

/-- Entries of an inline table with their dotted keys, each value printed as a
middle and as a last one. -/
def inlineEntries (path : List Key) : List (Key × Node) → List (List Key × List Char × List Char)
  | [] => []
  | (key, node) :: rest => inlineEntry (path ++ [key]) node ++ inlineEntries path rest

def inlineEntry (path : List Key) : Node → List (List Key × List Char × List Char)
  | .inline entries layout =>
      if layout.dotted then inlineEntries path entries
      else [(path, valueChars ([' '], []) (.inline entries layout),
        valueChars ([' '], [' ']) (.inline entries layout))]
  | .scalar value spelling decor =>
      [(path, valueChars ([' '], []) (.scalar value spelling decor),
        valueChars ([' '], [' ']) (.scalar value spelling decor))]
  | .array items layout =>
      [(path, valueChars ([' '], []) (.array items layout),
        valueChars ([' '], [' ']) (.array items layout))]
  | .table .. | .tables .. => []

end

namespace Node

def text (node : Node) : String :=
  .ofList (valueChars ([], []) node)

end Node

structure Section where
  path : List Key
  element : Bool
  layout : TableLayout
  flat : List (List Key × Node)

mutual

def sectionsIn (path : List Key) : List (Key × Node) → List Section
  | [] => []
  | (key, node) :: rest => sectionsOf (path ++ [key]) false node ++ sectionsIn path rest

/-- Sections of one node.  A dotted table has none of its own. -/
def sectionsOf (path : List Key) (element : Bool) : Node → List Section
  | .table entries layout =>
      (if layout.dotted then [] else [⟨path, element, layout, flatEntries [] entries⟩]) ++
        sectionsIn path entries
  | .tables elements => elementSections path elements
  | .scalar .. | .array .. | .inline .. => []

def elementSections (path : List Key) : List Node → List Section
  | [] => []
  | node :: rest => sectionsOf path true node ++ elementSections path rest

end

/-- Numbers the sections by their positions; one without a position has the number
of the last one before it. -/
def numbered : (last : Nat) → List Section → List (Nat × Section)
  | _, [] => []
  | last, s :: rest =>
      let number := s.layout.position.getD last
      (number, s) :: numbered number rest

namespace Section

def headerChars (first : Bool) (s : Section) : List Char :=
  let lead := s.layout.decor.beforeChars (if first then [] else ['\n'])
  let tail := s.layout.decor.afterChars [] ++ ['\n']
  if s.path.isEmpty then []
  else if s.element then lead ++ '[' :: '[' :: pathChars ([], []) s.path ++ ']' :: ']' :: tail
  else if s.layout.implicit && s.flat.isEmpty then []
  else lead ++ '[' :: pathChars ([], []) s.path ++ ']' :: tail

/-- A section that prints nothing leaves the one after it the first. -/
def isSilent (s : Section) : Bool :=
  s.flat.isEmpty && (s.path.isEmpty || (!s.element && s.layout.implicit))

def bodyChars (s : Section) : List Char :=
  s.flat.flatMap fun (path, node) =>
    pathChars ([], [' ']) path ++ '=' :: valueChars ([' '], []) node ++ ['\n']

end Section

def sectionsChars : (first : Bool) → List Section → List Char
  | _, [] => []
  | first, s :: rest =>
      s.headerChars first ++ s.bodyChars ++ sectionsChars (first && s.isSilent) rest

namespace Document

def sections (document : Document) : List Section :=
  let root : TableLayout := ⟨false, false, some 0, .default⟩
  let found := ⟨[], false, root, flatEntries [] document.root⟩ :: sectionsIn [] document.root
  ((numbered 0 found).mergeSort fun a b => a.1 ≤ b.1).map (·.2)

def chars (document : Document) : List Char :=
  sectionsChars true document.sections ++ rawChars document.trailing

def text (document : Document) : String :=
  .ofList document.chars

end Document

end HubKeeper.Toml
