import HubKeeper.Proofs.Files.Retrying

/-!
Replacements as a whole.

A replacement is done or refused.  Done, it changes the file that its path leads to and no
other one; refused, it changes no file at all.  Neither way does a temporary file remain, and
all else that a replacement can add is directories on the way to its target.
-/

namespace HubKeeper.FileTree

variable {tree later : FileTree} {location : Location} {names : List String} {path place : String}

/-- Contents and mode of the file at a place. -/
def fileAt? (tree : FileTree) (place : String) : Option (ByteArray × Nat) :=
  match tree.nodes.get? place with
  | some (.file contents mode) => some (contents, mode)
  | _ => none

/-- The place is passed when one goes along the names. -/
def OnTheWay (tree : FileTree) (location : Location) (names : List String) (place : String) :
    Prop :=
  ∃ way reached, way <+: names ∧ tree.follow location way = .ok reached ∧ key reached = place

/-- All directories are kept, and the new ones lead to the directory of a path. -/
structure AddsParents (tree later : FileTree) (path : String) : Prop where
  kept : ∀ place, tree.nodes.get? place = some .directory →
    later.nodes.get? place = some .directory
  onlyParents : ∀ place, later.nodes.get? place = some .directory →
    tree.nodes.get? place = some .directory ∨
      later.OnTheWay [] (Path.components (Path.directoryOf path)) place

/-! ### Places -/

theorem get?_nodes (tree : FileTree) (place : String) :
    tree.nodes.get? place = tree.node? [place] := by
  simp [node?, key]

theorem fileAt?_eq_some {contents : ByteArray} {mode : Nat} :
    tree.fileAt? place = some (contents, mode) ↔ tree.node? [place] = some (.file contents mode) := by
  rw [fileAt?, get?_nodes]
  split <;> simp_all

theorem fileAt?_congr
    (same : ∀ contents mode, later.node? [place] = some (.file contents mode) ↔
      tree.node? [place] = some (.file contents mode)) :
    later.fileAt? place = tree.fileAt? place := by
  refine Option.ext fun ⟨contents, mode⟩ => ?_
  rw [fileAt?_eq_some, fileAt?_eq_some]
  exact same contents mode

theorem fileAt?_put {node : FileNode} (elsewhere : place ≠ key location) :
    (tree.put location node).fileAt? place = tree.fileAt? place := by
  have apart : key [place] ≠ key location := by simpa [key] using elsewhere
  refine fileAt?_congr fun contents mode => ?_
  rw [node?_put (List.cons_ne_nil place []), if_neg apart]

/-! ### Directories on the way -/

theorem OnTheWay.first (entered : tree.enter location name = .ok next) :
    tree.OnTheWay location (name :: names) (key next) :=
  ⟨[name], next, by simp, by simp [follow, entered], rfl⟩

theorem OnTheWay.cons (entered : tree.enter location name = .ok next)
    (further : tree.OnTheWay next names place) : tree.OnTheWay location (name :: names) place := by
  obtain ⟨way, reached, isPrefix, followed, isPlace⟩ := further
  refine ⟨name :: way, reached, (List.prefix_cons_inj name).mpr isPrefix, ?_, isPlace⟩
  simp only [follow, entered, followed]

theorem OnTheWay.of_directories
    (kept : ∀ location, tree.node? location = some .directory →
      later.node? location = some .directory)
    (passed : tree.OnTheWay location names place) : later.OnTheWay location names place := by
  obtain ⟨way, reached, isPrefix, followed, isPlace⟩ := passed
  exact ⟨way, reached, isPrefix, follow_of_directories kept followed, isPlace⟩

/-- A directory that turns up while directories are made is one of those on the way. -/
theorem makeAlong_directory
    (found : (tree.makeAlong location names).1.node? [place] = some .directory) :
    tree.node? [place] = some .directory ∨
      (tree.makeAlong location names).1.OnTheWay location names place := by
  induction names generalizing tree location with
  | nil => exact .inl found
  | cons name rest ih =>
      have extended := tree.makeAlong_extends location (name :: rest)
      cases entered : tree.enter location name with
      | error fault =>
          left
          simpa only [makeAlong, entered] using found
      | ok next =>
          have entersLater := enter_of_directories (extended location _) entered
          cases present : tree.node? next with
          | some node =>
              cases node with
              | directory =>
                  have further : tree.makeAlong location (name :: rest) =
                      tree.makeAlong next rest := by
                    simp only [makeAlong, entered, present]
                  rw [further] at found entersLater ⊢
                  exact (ih found).imp_right (.cons entersLater)
              | file contents mode =>
                  left
                  simpa only [makeAlong, entered, present] using found
          | none =>
              have further : tree.makeAlong location (name :: rest) =
                  (tree.put next .directory).makeAlong next rest := by
                simp only [makeAlong, entered, present]
              rw [further] at found entersLater ⊢
              -- The directory was there, is the one that was just made, or is met further on.
              rcases ih found with before | passed
              · rw [node?_put (List.cons_ne_nil place [])] at before
                split at before
                · rename_i here
                  obtain rfl : place = key next := by simpa [key] using here
                  exact .inr (.first entersLater)
                · exact .inl before
              · exact .inr (.cons entersLater passed)

theorem prepared_addsParents (tree : FileTree) (path : String) :
    AddsParents tree (tree.prepared path) path := by
  constructor
  · intro place found
    rw [get?_nodes] at found ⊢
    exact tree.prepared_extends path _ _ found
  · intro place found
    rw [get?_nodes] at found ⊢
    rw [prepared] at found ⊢
    exact makeAlong_directory found

theorem fileAt?_prepared (tree : FileTree) (path place : String) :
    (tree.prepared path).fileAt? place = tree.fileAt? place :=
  fileAt?_congr fun _ _ => prepared_file [place]

theorem AddsParents.put_file {contents : ByteArray} {mode : Nat}
    (added : AddsParents tree later path) (noDirectory : later.node? location ≠ some .directory) :
    AddsParents tree (later.put location (.file contents mode)) path := by
  have stays : ∀ other, later.node? other = some .directory →
      (later.put location (.file contents mode)).node? other = some .directory :=
    fun _ => directory_of_put noDirectory
  constructor
  · intro place found
    have directory := added.kept place found
    rw [get?_nodes] at directory ⊢
    exact stays [place] directory
  · intro place found
    rw [get?_nodes] at found
    have before := directory_of_put_file found
    rw [← get?_nodes] at before
    exact (added.onlyParents place before).imp_right (.of_directories stays)

/-! ### Replacements -/

/-- A replacement that is done leaves its contents, for the owner only, where the path leads.
One that is refused says so for the path.  No other file is changed, made or removed, and no
directory but those above the target is new. -/
theorem replace_atomic (tree : FileTree) (path : String) (contents : ByteArray) :
    match tree.replace path contents with
    | (after, .ok ()) =>
        ∃ target, after.locate path = .ok target ∧
          after.node? target = some (.file contents ownerOnly) ∧
          (∀ place ≠ key target, after.fileAt? place = tree.fileAt? place) ∧
          AddsParents tree after path
    | (after, .error e) =>
        (∃ message, e = .persist path message) ∧
          (∀ place, after.fileAt? place = tree.fileAt? place) ∧
          AddsParents tree after path := by
  split
  · rename_i after done
    obtain ⟨target, noDirectory, rfl, located⟩ := replace_done done
    have below : target ≠ [] := by
      rintro rfl
      exact noDirectory rfl
    refine ⟨target, located, ?_, ?_, ?_⟩
    · rw [node?_put below, if_pos rfl]
    · intro place elsewhere
      rw [fileAt?_put elsewhere, fileAt?_prepared]
    · exact (tree.prepared_addsParents path).put_file noDirectory
  · rename_i after e failed
    obtain ⟨rfl, refusal⟩ := replace_refused failed
    exact ⟨refusal, tree.fileAt?_prepared path, tree.prepared_addsParents path⟩

end HubKeeper.FileTree
