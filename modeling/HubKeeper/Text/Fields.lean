/-!
Fields of a text: cutting at a separator and joining again.

`fields sep cs` cuts at every `sep`, so it has one field more than `cs` has
separators; an empty text is one empty field.
-/

namespace HubKeeper.Text

/-- The parts of `cs` between the separators, in order. -/
def fields (sep : Char) : List Char → List (List Char)
  | [] => [[]]
  | c :: rest =>
      if c = sep then [] :: fields sep rest
      else
        match fields sep rest with
        | [] => [[c]]
        | first :: others => (c :: first) :: others

theorem fields_ne_nil (sep : Char) (cs : List Char) : fields sep cs ≠ [] := by
  cases cs with
  | nil => simp [fields]
  | cons c rest => simp only [fields]; split <;> (try split) <;> simp

def splitOn (sep : Char) (s : String) : List String :=
  (fields sep s.toList).map .ofList

/-- Cuts before the first occurrence of `sep`, which is dropped. -/
def splitOnce (sep : List Char) : List Char → Option (List Char × List Char)
  | [] => if sep = [] then some ([], []) else none
  | c :: rest =>
      if sep.isPrefixOf (c :: rest) then some ([], (c :: rest).drop sep.length)
      else (splitOnce sep rest).map fun (before, after) => (c :: before, after)

/-- What follows the leading `lead`, if the text starts with it. -/
def dropLead : (lead cs : List Char) → Option (List Char)
  | [], cs => some cs
  | _ :: _, [] => none
  | l :: lead, c :: cs => if l = c then dropLead lead cs else none

/-- Lines of a text: pieces ended by a line feed, with a carriage return before
it taken off; the last piece counts only if it is not empty. -/
def lines (cs : List Char) : List (List Char) :=
  let pieces := fields '\n' cs
  let ended := pieces.dropLast.map fun line =>
    if line.getLast? = some '\r' then line.dropLast else line
  match pieces.getLast? with
  | some [] | none => ended
  | some line => ended ++ [line]

def replaceChar (c : Char) (replacement : List Char) (cs : List Char) : List Char :=
  cs.flatMap fun d => if d = c then replacement else [d]

def byteLength : List Char → Nat
  | [] => 0
  | c :: rest => c.utf8Size + byteLength rest

end HubKeeper.Text
