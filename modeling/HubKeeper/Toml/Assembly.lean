import HubKeeper.Toml.Statement

/-!
Putting statements together into a document.

A header opens a table in which the pairs after it are placed.  The opened table is
kept apart and placed into the tree when the next header comes or the text ends.  A
table may be opened once; dotted keys may only add to tables that dotted keys made,
and a header may take over a table that was made on the way to another header.
-/

namespace HubKeeper.Toml

/-- A table that a longer path passes through. -/
def wayside (dotted : Bool) (entries : Entries) : Node :=
  .table entries ⟨true, dotted, none, .default⟩

/-- Changes the entries at a path below some entries, making missing tables.
`isDotted` tells the change whether dotted keys made the table it reaches.  With
`dotted` the path is of a dotted key. -/
def within (dotted : Bool) (change : (isDotted : Bool) → Entries → Option Entries) :
    List Key → (isDotted : Bool) → Entries → Option Entries
  | [], isDotted, entries => change isDotted entries
  | step :: path, _, entries =>
      match entries.find? step.name with
      | none =>
          (within dotted change path dotted []).map fun made =>
            entries ++ [(step, wayside dotted made)]
      | some (.table inner layout) =>
          -- A dotted key does not lead into a table with a header of its own.
          if dotted && !layout.implicit then none
          else
            (within dotted change path layout.dotted inner).map fun changed =>
              entries.modify step.name fun (k, _) => (k, .table changed layout)
      | some (.tables elements) =>
          -- Among the tables of an array a path leads into the last one.
          match elements.getLast? with
          | some (.table inner layout) =>
              (within dotted change path layout.dotted inner).map fun changed =>
                entries.modify step.name fun (k, _) =>
                  (k, .tables (elements.dropLast ++ [.table changed layout]))
          | _ => none
      | some _ => none

def placePair (path : List Key) (key : Key) (value : Node) (entries : Entries) :
    Option Entries :=
  within true
    (fun isDotted inner =>
      -- A table is filled by dotted keys only, or by none.
      if isDotted = path.isEmpty || (inner.find? key.name).isSome then none
      else some (inner ++ [(key, value)]))
    path false entries

/-- The table that is open while statements are read. -/
inductive Opened
  | root
  | table (path : List Key) (key : Key)
  | element (path : List Key) (key : Key)

/-- Reading in progress: the placed tables, the open one, and how many headers came. -/
structure Assembly where
  placed : Entries
  opened : Opened
  entries : Entries
  layout : TableLayout
  headers : Nat

namespace Assembly

def start : Assembly := ⟨[], .root, [], .default, 0⟩

/-- Places the open table into the tree, in place of one it took over. -/
def close (a : Assembly) : Option Entries :=
  match a.opened with
  | .root => some a.entries
  | .table path key =>
      within false (fun _ inner => some (inner.erase key.name ++ [(key, .table a.entries a.layout)]))
        path false a.placed
  | .element path key =>
      within false
        (fun _ inner =>
          match inner.find? key.name with
          | none => some (inner ++ [(key, .tables [.table a.entries a.layout])])
          | some (.tables elements) =>
              some (inner.modify key.name fun (k, _) =>
                (k, .tables (elements ++ [.table a.entries a.layout])))
          | some _ => none)
        path false a.placed

/-- Entries of a table at a path that a header may take over; none of them if there
is no table yet. -/
def takenOver (path : List Key) (key : Key) (placed : Entries) : Option Entries :=
  match path with
  | [] =>
      match placed.find? key.name with
      | none => some []
      | some (.table inner layout) =>
          if layout.implicit && !layout.dotted then some inner else none
      | some _ => none
  | step :: path =>
      match placed.find? step.name with
      | none => some []
      | some (.table inner _) => takenOver path key inner
      | some (.tables elements) =>
          match elements.getLast? with
          | some (.table inner _) => takenOver path key inner
          | _ => none
      | some _ => none

def step (a : Assembly) : Statement → Option Assembly
  | .pair path key value =>
      (placePair path key value a.entries).map fun entries => { a with entries := entries }
  | .header path key decor => do
      let placed ← a.close
      -- The table may have been made on the way to others.
      let entries ← takenOver path key placed
      return ⟨placed, .table path key, entries, ⟨false, false, some (a.headers + 1), decor⟩,
        a.headers + 1⟩
  | .element path key decor => do
      let placed ← a.close
      return ⟨placed, .element path key, [], ⟨false, false, some (a.headers + 1), decor⟩,
        a.headers + 1⟩

end Assembly

namespace Document

def parse? (text : String) : Option Document := do
  let cs := text.toList
  let cs := (Text.dropLead ['\ufeff'] cs).getD cs
  let (statements, trailing) ← Statement.readAll? (cs.length + 1) cs
  let last ← statements.foldlM Assembly.step .start
  return ⟨← last.close, trailing⟩

end Document

end HubKeeper.Toml
