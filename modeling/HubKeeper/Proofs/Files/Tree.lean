import HubKeeper.Files.Tree
import HubKeeper.Proofs.Collections.Lookup

/-!
Trees by what is at their locations.

A path is followed through directories only, so a tree in which all directories of
another one are still there leads every path of the other to the same location.
-/

namespace HubKeeper.FileTree

variable {tree later : FileTree} {location other : Location} {node : FileNode}

@[simp] theorem node?_nil (tree : FileTree) : tree.node? [] = some .directory := rfl

theorem node?_put (below : other ≠ []) :
    (tree.put location node).node? other =
      if key other = key location then some node else tree.node? other := by
  simp only [node?, below, if_false, put, Dict.get?_insert]

theorem node?_of_key (below : other ≠ []) (same : key other = key location)
    (locationBelow : location ≠ []) : tree.node? other = tree.node? location := by
  simp only [node?, below, locationBelow, if_false, same]

def Extends (tree later : FileTree) : Prop :=
  ∀ location node, tree.node? location = some node → later.node? location = some node

theorem Extends.refl (tree : FileTree) : Extends tree tree := fun _ _ found => found

theorem Extends.trans {first second third : FileTree} (before : Extends first second)
    (after : Extends second third) : Extends first third :=
  fun location node found => after location node (before location node found)

theorem extends_put (absent : tree.node? location = none) : Extends tree (tree.put location node) := by
  intro other found present
  by_cases root : other = []
  · subst root
    exact present
  · have locationBelow : location ≠ [] := by
      rintro rfl
      cases absent
    have different : key other ≠ key location := fun same => by
      rw [node?_of_key root same locationBelow, absent] at present
      cases present
    rw [node?_put root, if_neg different, present]

theorem put_put {other : FileNode} :
    (tree.put location node).put location other = tree.put location other := by
  have nodes : ((tree.nodes.insert (key location) node).insert (key location) other) =
      tree.nodes.insert (key location) other := by
    refine Dict.ext_get? fun name => ?_
    rw [Dict.get?_insert, Dict.get?_insert, Dict.get?_insert]
    split <;> rfl
  simp only [put, nodes]

theorem drop_put (absent : tree.node? location = none) :
    (tree.put location node).drop location = tree := by
  have below : location ≠ [] := by
    rintro rfl
    cases absent
  have missing : tree.nodes.get? (key location) = none := by
    rwa [node?, if_neg below] at absent
  have nodes : (tree.nodes.insert (key location) node).erase (key location) = tree.nodes := by
    refine Dict.ext_get? fun name => ?_
    rw [Dict.erase, Dict.get?_filter_key, Dict.get?_insert]
    by_cases here : name = key location
    · simp [here, missing]
    · simp [here]
  simp only [put, drop, nodes]

theorem directory_of_put {contents : ByteArray} {mode : Nat}
    (noDirectory : tree.node? location ≠ some .directory)
    (found : tree.node? other = some .directory) :
    (tree.put location (.file contents mode)).node? other = some .directory := by
  by_cases root : other = []
  · subst root
    rfl
  · have below : location ≠ [] := by
      rintro rfl
      exact noDirectory rfl
    have different : key other ≠ key location := fun same =>
      noDirectory (node?_of_key root same below ▸ found)
    rw [node?_put root, if_neg different, found]

theorem directory_of_put_file {contents : ByteArray} {mode : Nat}
    (found : (tree.put location (.file contents mode)).node? other = some .directory) :
    tree.node? other = some .directory := by
  by_cases root : other = []
  · subst root
    rfl
  · rw [node?_put root] at found
    split at found
    · cases found
    · exact found

/-! ### Paths -/

theorem enter_of_directories
    (kept : tree.node? location = some .directory → later.node? location = some .directory)
    (entered : tree.enter location name = .ok next) : later.enter location name = .ok next := by
  unfold enter at entered ⊢
  split at entered
  · cases entered
  · cases entered
  · rename_i found
    rw [kept found]
    exact entered

theorem follow_of_directories
    (kept : ∀ location, tree.node? location = some .directory →
      later.node? location = some .directory)
    (followed : tree.follow location names = .ok target) :
    later.follow location names = .ok target := by
  induction names generalizing location with
  | nil => exact followed
  | cons name rest ih =>
      simp only [follow] at followed ⊢
      cases entered : tree.enter location name with
      | error e =>
          rw [entered] at followed
          cases followed
      | ok next =>
          rw [entered] at followed
          rw [enter_of_directories (kept location) entered]
          exact ih followed

theorem locate_of_directories
    (kept : ∀ location, tree.node? location = some .directory →
      later.node? location = some .directory)
    (located : tree.locate path = .ok target) : later.locate path = .ok target := by
  unfold locate at located ⊢
  split at located
  · cases located
  · rename_i named
    rw [if_neg named]
    exact follow_of_directories kept located

theorem read_of_extends (extended : Extends tree later) (found : tree.read path = .ok contents) :
    later.read path = .ok contents := by
  unfold read at found ⊢
  cases located : tree.locate path with
  | error e =>
      rw [located] at found
      cases found
  | ok location =>
      rw [located] at found
      have stillLocated := locate_of_directories (fun _ => extended _ _) located
      rw [stillLocated]
      simp only at found ⊢
      split at found
      · cases found
      · cases found
      · rename_i present
        rw [extended _ _ present]
        exact found

theorem readText_of_extends (extended : Extends tree later)
    (found : tree.readText path = .ok text) : later.readText path = .ok text := by
  unfold readText at found ⊢
  cases contents : tree.read path with
  | error e =>
      rw [contents] at found
      cases found
  | ok bytes =>
      rw [contents] at found
      rw [read_of_extends extended contents]
      exact found

/-! ### Making directories -/

theorem makeAlong_extends (tree : FileTree) (location : Location) (names : List String) :
    Extends tree (tree.makeAlong location names).1 := by
  induction names generalizing tree location with
  | nil => exact .refl tree
  | cons name rest ih =>
      simp only [makeAlong]
      split
      · exact .refl tree
      · rename_i next _
        split
        · exact ih tree next
        · exact .refl tree
        · rename_i absent
          exact (extends_put absent).trans (ih _ next)

theorem makeDirectories_extends (tree : FileTree) (path : String) :
    Extends tree (tree.makeDirectories path).1 :=
  makeAlong_extends tree [] (Path.components path)

end HubKeeper.FileTree
