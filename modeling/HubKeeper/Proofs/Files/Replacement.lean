import HubKeeper.Files.Replacement
import HubKeeper.Proofs.Files.Tree

/-!
What a replacement leaves behind.

The temporary file of a replacement stands where nothing stood: there are more names
for it than nodes in the tree.  A replacement that fails therefore takes it away
without a trace, and whatever could be read before can be read after it.
-/

namespace HubKeeper.FileTree

/-! ### Names of temporary files -/

theorem paddedChars_injective {width n m : Nat}
    (same : Text.paddedChars width n = Text.paddedChars width m) : n = m := by
  have value : ∀ k, Nat.ofDigitChars 10 (Text.paddedChars width k) 0 = k := by
    intro k
    simp [Text.paddedChars, Text.natChars, Nat.ofDigitChars_append, Nat.ofDigitChars_ten_toDigits]
  rw [← value n, same, value m]

theorem temporaryName_injective {target : String} {n m : Nat}
    (same : temporaryName target n = temporaryName target m) : n = m := by
  have digits := (String.append_right_inj _).mp ((String.append_left_inj _).mp same)
  exact paddedChars_injective (String.ofList_inj.mp digits)

theorem temporaryName_ne_dots (target : String) (attempt : Nat) :
    temporaryName target attempt ≠ "." ∧ temporaryName target attempt ≠ ".." := by
  have last : (temporaryName target attempt).toList.getLast? = some 'p' := by
    rw [temporaryName, String.toList_append, show ".tmp".toList = ['.', 't', 'm', 'p'] from rfl,
      List.getLast?_append]
    rfl
  constructor
  · intro same
    rw [same] at last
    cases last
  · intro same
    rw [same] at last
    cases last

theorem key_append_injective {directory : Location} {a b : String}
    (same : key (directory ++ [a]) = key (directory ++ [b])) : a = b := by
  by_cases root : directory = []
  · subst root
    simpa [key] using same
  · have joined : ∀ name, key (directory ++ [name]) = key directory ++ "/" ++ name := by
      intro name
      simp only [key, String.intercalate_append_of_ne_nil root (List.cons_ne_nil name []),
        String.intercalate_singleton]
    rw [joined, joined] at same
    exact (String.append_right_inj _).mp same

theorem node?_freshAttempt (tree : FileTree) (directory : Location) (target : String) :
    tree.node? (directory ++ [temporaryName target (tree.freshAttempt directory target)]) = none := by
  let attempts := List.range (tree.nodes.size + 1)
  let place (attempt : Nat) : Location := directory ++ [temporaryName target attempt]
  cases found : attempts.find? fun attempt => (tree.node? (place attempt)).isNone with
  | some attempt =>
      have fresh := List.find?_some found
      have chosen : tree.freshAttempt directory target = attempt := by
        simp only [freshAttempt]
        exact congrArg (·.getD 0) found
      rw [chosen]
      simpa using fresh
  | none =>
      -- Every attempt would be a node of its own, and there are too few nodes.
      have taken := List.find?_eq_none.mp found
      have distinct : (attempts.map fun attempt => key (place attempt)).Nodup := by
        refine List.Pairwise.map _ (fun n m different same => different ?_) List.nodup_range
        exact temporaryName_injective (key_append_injective same)
      have among : (attempts.map fun attempt => key (place attempt)) ⊆ tree.nodes.keys := by
        intro nodeKey member
        obtain ⟨attempt, attempted, rfl⟩ := List.mem_map.mp member
        have below : place attempt ≠ [] := by simp [place]
        have present := taken attempt attempted
        simp only [node?, below, if_false, Option.isNone_iff_eq_none] at present
        exact Dict.mem_keys.mpr (Option.ne_none_iff_exists'.mp present)
      have few := distinct.length_le_of_subset among
      simp only [List.length_map, attempts, List.length_range, Dict.keys, Dict.size] at few
      omega

/-! ### Steps of a replacement -/

variable {tree after : FileTree} {node : FileNode}

theorem createTemporary_ok
    (created : tree.createTemporary directory target = .ok (withTemporary, temporary)) :
    temporary ≠ [] ∧ tree.node? temporary = none ∧
      withTemporary = tree.put temporary (.file .empty ownerOnly) := by
  simp only [createTemporary] at created
  split at created
  · cases created
  · rename_i location _
    split at created
    · cases created
    · rename_i entered
      cases created
      have dots := temporaryName_ne_dots target (tree.freshAttempt location target)
      unfold enter at entered
      split at entered
      · cases entered
      · cases entered
      · rw [if_neg dots.1, if_neg dots.2] at entered
        split at entered
        · cases entered
        · cases entered
          exact ⟨by simp, node?_freshAttempt tree location target, rfl⟩

theorem fill_ok {temporary : Location} {contents : ByteArray} {written : FileTree}
    (filled : tree.fill temporary contents = .ok written) :
    written = tree.put temporary (.file contents ownerOnly) := by
  unfold fill at filled
  split at filled
  · cases filled
  · exact (Except.ok.inj filled).symm

theorem rename_ok {source : Location} {path : String} (present : tree.node? source = some node)
    (renamed : tree.rename source path = .ok after) :
    ∃ target, tree.locate path = .ok target ∧ tree.node? target ≠ some .directory ∧
      after = (tree.drop source).put target node := by
  unfold rename at renamed
  split at renamed
  · cases renamed
  · rename_i last lastPart
    split at renamed
    · cases renamed
    · rename_i target followed
      split at renamed
      · cases renamed
      · split at renamed
        · cases renamed
        · rename_i noSlash
          have named : path ≠ "" := by
            rintro rfl
            cases lastPart
          have located : tree.locate path = .ok target := by
            rw [locate, if_neg named, steps, if_neg noSlash, followed]
          rw [present] at renamed
          split at renamed
          · cases renamed
          · rename_i found noDirectory
            cases found
            cases renamed
            exact ⟨target, located, fun directory => noDirectory directory, rfl⟩
          · cases renamed

/-! ### Replacements -/

/-- The tree with the directories that a replacement at a path makes first.  Unfolding it follows
the path, so proofs use the lemmas about it. -/
@[irreducible] def prepared (tree : FileTree) (path : String) : FileTree :=
  (tree.makeDirectories (Path.directoryOf path)).1

theorem prepared_extends (tree : FileTree) (path : String) :
    Extends tree (tree.prepared path) := by
  rw [prepared]
  exact tree.makeDirectories_extends (Path.directoryOf path)

/-- A replacement that succeeds puts the file where the path leads, and no directory was there. -/
theorem replace_done {path : String} {contents : ByteArray}
    (replaced : tree.replace path contents = (after, .ok ())) :
    ∃ target, (tree.prepared path).node? target ≠ some .directory ∧
      after = (tree.prepared path).put target (.file contents ownerOnly) ∧
      after.locate path = .ok target := by
  simp only [replace] at replaced
  rw [prepared]
  split at replaced
  · cases replaced
  · rename_i withDirectories makeDone
    rw [makeDone]
    split at replaced
    · cases replaced
    · rename_i temporary created
      obtain ⟨below, absent, rfl⟩ := createTemporary_ok created
      split at replaced
      · cases replaced
      · rename_i written filled
        split at replaced
        · cases replaced
        · rename_i renamed
          cases replaced
          have writtenEq := (fill_ok filled).trans put_put
          have present : written.node? temporary = some (.file contents ownerOnly) := by
            rw [writtenEq, node?_put below, if_pos rfl]
          obtain ⟨target, located, noDirectory, rfl⟩ := rename_ok present renamed
          rw [writtenEq] at located noDirectory
          -- The temporary file is no directory, so it leads no path anywhere else.
          have vacant : withDirectories.node? target ≠ some .directory := fun found =>
            noDirectory (directory_of_put (by simp [absent]) found)
          have moved : (withDirectories.put temporary (.file contents ownerOnly)).drop temporary =
              withDirectories := drop_put absent
          refine ⟨target, vacant, by rw [writtenEq, moved], ?_⟩
          rw [writtenEq, moved]
          exact locate_of_directories
            (fun _ found => directory_of_put vacant (directory_of_put_file found)) located

theorem replace_ok {path : String} {contents : ByteArray}
    (replaced : tree.replace path contents = (after, .ok ())) : after.read path = .ok contents := by
  obtain ⟨target, noDirectory, rfl, located⟩ := replace_done replaced
  have below : target ≠ [] := by
    rintro rfl
    exact noDirectory rfl
  rw [read, located]
  simp only [node?_put below, if_true]

/-- A replacement that fails leaves its directories and nothing else, and says that the path could
not be written. -/
theorem replace_refused {path : String} {contents : ByteArray} {e : Error}
    (failed : tree.replace path contents = (after, .error e)) :
    after = tree.prepared path ∧ ∃ message, e = .persist path message := by
  simp only [replace] at failed
  rw [prepared]
  split at failed
  · rename_i makeFailed
    cases failed
    rw [makeFailed]
    exact ⟨rfl, _, rfl⟩
  · rename_i withDirectories makeDone
    rw [makeDone]
    split at failed
    · cases failed
      exact ⟨rfl, _, rfl⟩
    · rename_i created
      obtain ⟨_, absent, rfl⟩ := createTemporary_ok created
      split at failed
      · cases failed
        exact ⟨drop_put absent, _, rfl⟩
      · rename_i filled
        split at failed
        · cases failed
          rw [fill_ok filled, put_put]
          exact ⟨drop_put absent, _, rfl⟩
        · cases failed

theorem replace_failed {path : String} {contents : ByteArray} {e : Error}
    (failed : tree.replace path contents = (after, .error e)) : after = tree.prepared path :=
  (replace_refused failed).1

/-- A replacement that fails leaves everything that was there. -/
theorem replace_error {path : String} {contents : ByteArray} {e : Error}
    (failed : tree.replace path contents = (after, .error e)) : Extends tree after := by
  rw [replace_failed failed]
  exact tree.prepared_extends path

theorem fromUTF8?_toUTF8 (text : String) : String.fromUTF8? text.toUTF8 = some text := by
  have valid : text.toUTF8.IsValidUTF8 := text.isValidUTF8
  rw [String.fromUTF8?, dif_pos valid]
  rfl

theorem replaceText_ok {path text : String}
    (replaced : tree.replaceText path text = (after, .ok ())) : after.readText path = .ok text := by
  rw [readText, replace_ok replaced]
  simp only [fromUTF8?_toUTF8]

end HubKeeper.FileTree
