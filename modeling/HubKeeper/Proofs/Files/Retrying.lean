import HubKeeper.Proofs.Files.Replacement

/-!
Replacing a file after a replacement that failed.

A replacement that fails leaves the directories that it made and nothing else.  They are
made once: with them in place the next replacement goes as it would have gone without,
down to the tree that it leaves.
-/

namespace HubKeeper.FileTree

variable {tree later made after : FileTree} {location : Location} {node : FileNode} {path : String}

/-! ### Directories on the way -/

theorem enter_of_extends (extended : Extends tree later)
    (entered : tree.enter location name = result) (reached : result ≠ .error .notFound) :
    later.enter location name = result := by
  unfold enter at entered ⊢
  cases found : tree.node? location with
  | none =>
      rw [found] at entered
      exact absurd entered.symm reached
  | some node =>
      rw [found] at entered
      rw [extended _ _ found]
      exact entered

theorem follow_of_extends (extended : Extends tree later)
    (followed : tree.follow location names = result) (reached : result ≠ .error .notFound) :
    later.follow location names = result := by
  induction names generalizing location with
  | nil => exact followed
  | cons name rest ih =>
      simp only [follow] at followed ⊢
      cases entered : tree.enter location name with
      | error e =>
          rw [entered] at followed
          have stopped : (.error e : Except FileFault Location) ≠ .error .notFound := by
            rintro ⟨⟩
            exact reached followed.symm
          rw [enter_of_extends extended entered stopped]
          exact followed
      | ok next =>
          rw [entered] at followed
          rw [enter_of_extends extended entered (by simp)]
          exact ih followed

theorem locate_of_extends (extended : Extends tree later) (located : tree.locate path = result)
    (reached : result ≠ .error .notFound) : later.locate path = result := by
  unfold locate at located ⊢
  split at located
  · exact absurd located.symm reached
  · rename_i named
    rw [if_neg named]
    exact follow_of_extends extended located reached

/-- Only a file that is missing can turn up in a larger tree. -/
theorem readText_of_extends_or (extended : Extends tree later) (path : String) :
    tree.readText path = .error .notFound ∨ later.readText path = tree.readText path := by
  cases located : tree.locate path with
  | error fault =>
      by_cases missing : fault = .notFound
      · left
        simp only [readText, read, located, missing]
      · right
        have still := locate_of_extends extended located (by simpa using missing)
        simp only [readText, read, located, still]
  | ok location =>
      have still := locate_of_extends extended located (by simp)
      cases found : tree.node? location with
      | none =>
          left
          simp only [readText, read, located, found]
      | some node =>
          right
          simp only [readText, read, located, still, found, extended _ _ found]

/-- No directory is missing after directories have been made. -/
theorem makeAlong_again (names : List String)
    (along : tree.makeAlong location names = (made, result)) :
    made.makeAlong location names = (made, result) := by
  have extended := tree.makeAlong_extends location names
  rw [along] at extended
  induction names generalizing tree location with
  | nil =>
      cases along
      rfl
  | cons name rest ih =>
      simp only [makeAlong] at along ⊢
      cases entered : tree.enter location name with
      | error e =>
          rw [entered] at along
          cases along
          rw [entered]
      | ok next =>
          rw [entered] at along
          rw [enter_of_extends extended entered (by simp)]
          simp only at along ⊢
          cases found : tree.node? next with
          | some node =>
              rw [found] at along
              rw [extended _ _ found]
              cases node with
              | directory => exact ih along extended
              | file contents mode =>
                  cases along
                  rfl
          | none =>
              rw [found] at along
              -- The second time, the directory that was missing is passed like any other one.
              have placed : (tree.put next .directory).node? next = some .directory := by
                have below : next ≠ [] := by
                  rintro rfl
                  cases found
                rw [node?_put below, if_pos rfl]
              have further := (tree.put next .directory).makeAlong_extends next rest
              simp only at along
              rw [along] at further
              rw [further _ _ placed]
              exact ih along further

/-- The only files on the way are those that were there. -/
theorem makeAlong_file (names : List String) (other : Location) :
    (tree.makeAlong location names).1.node? other = some (.file contents mode) ↔
      tree.node? other = some (.file contents mode) := by
  induction names generalizing tree location with
  | nil => rfl
  | cons name rest ih =>
      simp only [makeAlong]
      split
      · rfl
      · rename_i next _
        split
        · exact ih
        · rfl
        · rename_i absent
          rw [ih]
          refine ⟨fun found => ?_, extends_put absent other _⟩
          by_cases root : other = []
          · subst root
            exact found
          · rw [node?_put root] at found
            split at found
            · cases found
            · exact found

/-! ### Replacements -/

theorem prepared_file (other : Location) :
    (tree.prepared path).node? other = some (.file contents mode) ↔
      tree.node? other = some (.file contents mode) := by
  rw [prepared]
  exact makeAlong_file (Path.components (Path.directoryOf path)) other

theorem makeDirectories_prepared (tree : FileTree) (path : String) :
    (tree.prepared path).makeDirectories (Path.directoryOf path) =
      tree.makeDirectories (Path.directoryOf path) := by
  rw [prepared]
  exact makeAlong_again (Path.components (Path.directoryOf path)) rfl

/-- A replacement goes the same once its directories are there. -/
theorem replace_prepared (tree : FileTree) (path : String) (contents : ByteArray) :
    (tree.prepared path).replace path contents = tree.replace path contents := by
  simp only [replace, makeDirectories_prepared]

/-! ### Other contents -/

section Contents

variable {source target : Location} {first second : ByteArray} {mode : Nat}

theorem node?_put_file (tree : FileTree) (source other : Location) (first second : ByteArray)
    (mode : Nat) :
    (tree.put source (.file first mode)).node? other = (tree.put source (.file second mode)).node? other ∨
      (tree.put source (.file first mode)).node? other = some (.file first mode) ∧
        (tree.put source (.file second mode)).node? other = some (.file second mode) := by
  by_cases root : other = []
  · subst root
    exact .inl rfl
  · rw [node?_put root, node?_put root]
    split
    · exact .inr ⟨rfl, rfl⟩
    · exact .inl rfl

theorem enter_put_file (tree : FileTree) (first second : ByteArray) (location : Location)
    (name : String) :
    (tree.put source (.file first mode)).enter location name =
      (tree.put source (.file second mode)).enter location name := by
  unfold enter
  rcases node?_put_file tree source location first second mode with same | ⟨here, there⟩
  · rw [same]
  · rw [here, there]

theorem follow_put_file (tree : FileTree) (first second : ByteArray) (location : Location)
    (names : List String) :
    (tree.put source (.file first mode)).follow location names =
      (tree.put source (.file second mode)).follow location names := by
  induction names generalizing location with
  | nil => rfl
  | cons name rest ih =>
      rw [follow, follow, enter_put_file tree first second]
      split
      · rfl
      · exact ih _

theorem node?_put_file_eq_none (tree : FileTree) (first second : ByteArray) (other : Location) :
    (tree.put source (.file first mode)).node? other = none ↔
      (tree.put source (.file second mode)).node? other = none := by
  rcases node?_put_file tree source other first second mode with same | ⟨here, there⟩
  · rw [same]
  · simp [here, there]

theorem node?_put_file_eq_directory (tree : FileTree) (first second : ByteArray) (other : Location) :
    (tree.put source (.file first mode)).node? other = some .directory ↔
      (tree.put source (.file second mode)).node? other = some .directory := by
  rcases node?_put_file tree source other first second mode with same | ⟨here, there⟩
  · rw [same]
  · simp [here, there]

theorem rename_put_file {e : FileFault} (second : ByteArray)
    (failed : (tree.put source (.file first mode)).rename source path = .error e) :
    (tree.put source (.file second mode)).rename source path = .error e := by
  revert failed
  simp only [rename, follow_put_file tree second first]
  cases (Path.parts path).getLast? with
  | none => exact id
  | some last =>
      cases (tree.put source (.file first mode)).follow [] (Path.parts path) with
      | error fault => exact id
      | ok target =>
          by_cases dots : (decide (last = ".") || decide (last = "..")) = true
          · simp only [dots, if_true]
            exact id
          · by_cases slash : path.toList.getLast? = some '/'
            · simp only [dots, slash, if_true]
              exact id
            · simp only [dots, slash, Bool.false_eq_true, if_false]
              intro failed
              split at failed
              · rename_i directory
                rw [(node?_put_file_eq_directory tree first second target).mp directory]
                exact failed
              · cases failed
              · rename_i missing noDirectory
                rw [(node?_put_file_eq_none tree first second source).mp missing]
                split
                · rename_i directory
                  exact (noDirectory
                    ((node?_put_file_eq_directory tree first second target).mpr directory)).elim
                · contradiction
                · exact failed

/-- Where there is room for something, there is room for anything. -/
theorem fill_of_fill {temporary : Location} {written : FileTree}
    (filled : tree.fill temporary second = .ok written) (nonempty : second.size ≠ 0)
    (first : ByteArray) : tree.fill temporary first = .ok (tree.put temporary (.file first ownerOnly)) := by
  have room : tree.full = false := by
    cases full : tree.full with
    | false => rfl
    | true => simp [fill, full, nonempty] at filled
  simp [fill, room]

/-- Where one text cannot be written, no other one can, except perhaps an empty one. -/
theorem replace_fails {e : Error} (second : ByteArray)
    (failed : tree.replace path first = (after, .error e)) (nonempty : second.size ≠ 0) :
    ∃ e', tree.replace path second = (tree.prepared path, .error e') := by
  -- The error tells what was left, whatever the text was.
  suffices refused : ∃ e', (tree.replace path second).2 = .error e' by
    obtain ⟨e', same⟩ := refused
    have replaced : tree.replace path second = ((tree.replace path second).1, .error e') := by
      rw [← same]
    exact ⟨e', by rw [replaced, replace_failed replaced]⟩
  simp only [replace] at failed ⊢
  cases made : tree.makeDirectories (Path.directoryOf path) with
  | mk withDirectories result =>
      rw [made] at failed
      cases result with
      | error fault => exact ⟨_, rfl⟩
      | ok _ =>
          simp only at failed ⊢
          cases created : withDirectories.createTemporary (Path.directoryOf path)
              ((Path.fileName? path).getD "") with
          | error fault => exact ⟨_, rfl⟩
          | ok prepared =>
              obtain ⟨withTemporary, temporary⟩ := prepared
              rw [created] at failed
              obtain ⟨_, _, rfl⟩ := createTemporary_ok created
              simp only at failed ⊢
              cases filled : (withDirectories.put temporary (.file .empty ownerOnly)).fill temporary
                  second with
              | error fault => exact ⟨_, rfl⟩
              | ok written =>
                  simp only
                  -- There is room for the second text, so the first one failed only at the
                  -- renaming.
                  have firstFilled := fill_of_fill filled nonempty first
                  rw [put_put] at firstFilled
                  simp only [firstFilled] at failed
                  obtain rfl := (fill_ok filled).trans put_put
                  split at failed
                  · rename_i fault stuck
                    rw [rename_put_file second stuck]
                    exact ⟨_, rfl⟩
                  · cases failed

end Contents

end HubKeeper.FileTree
