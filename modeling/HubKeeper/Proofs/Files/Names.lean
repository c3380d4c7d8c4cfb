import HubKeeper.Proofs.Files.Replacement
import HubKeeper.Proofs.Text.Basic

/-!
Paths that are a name and nothing else.

The temporary file of a replacement has a longer name than the file that it replaces.
There are therefore names under which a file can be read and never be replaced.
-/

namespace HubKeeper

/-- The path is the name of something in the directory where paths start. -/
structure Path.IsName (path : String) : Prop where
  noSlash : '/' ∉ path.toList
  nonempty : path ≠ ""
  notHere : path ≠ "."
  notAbove : path ≠ ".."

namespace Path.IsName

variable {name : String}

theorem parts (named : IsName name) : Path.parts name = [name] := by
  rw [Path.parts, Text.splitOn, Text.fields_of_not_mem named.noSlash]
  simp [named.nonempty]

theorem isAbsolute (named : IsName name) : Path.isAbsolute name = false := by
  rw [Path.isAbsolute, decide_eq_false_iff_not]
  exact fun slash => named.noSlash (List.mem_of_mem_head? slash)

theorem components (named : IsName name) : Path.components name = [name] := by
  rw [Path.components, named.parts]
  simp [named.isAbsolute]

theorem fileName? (named : IsName name) : Path.fileName? name = some name := by
  rw [Path.fileName?, named.components]
  simp [named.notHere, named.notAbove]

theorem directoryOf (named : IsName name) : Path.directoryOf name = "." := by
  simp [Path.directoryOf, parent, named.components, named.isAbsolute]

end Path.IsName

namespace FileTree

variable {tree : FileTree} {name : String}

theorem locate_name (named : Path.IsName name)
    (short : Text.byteLength name.toList ≤ maxNameBytes) :
    tree.locate name = .ok [name] := by
  have noSlash : name.toList.getLast? ≠ some '/' :=
    fun slash => named.noSlash (List.mem_of_getLast? slash)
  rw [locate, if_neg named.nonempty, steps, if_neg noSlash, named.parts]
  simp [follow, enter, named.notHere, named.notAbove, Nat.not_lt.mpr short]

theorem readText_place (named : Path.IsName name)
    (short : Text.byteLength name.toList ≤ maxNameBytes) (text : String) (mode : Nat) :
    (tree.place name (.file text.toUTF8 mode)).readText name = .ok text := by
  have placed : tree.place name (.file text.toUTF8 mode) =
      tree.put [name] (.file text.toUTF8 mode) := by
    rw [place, named.components]
    rfl
  rw [placed, readText, read, locate_name named short]
  simp only [node?_put (List.cons_ne_nil name []), if_true, fromUTF8?_toUTF8]

theorem byteLength_temporaryName (target : String) (attempt : Nat) :
    Text.byteLength target.toList + 12 ≤ Text.byteLength (temporaryName target attempt).toList := by
  have digits : 6 ≤ Text.byteLength (Text.paddedChars 6 attempt) := by
    refine Nat.le_trans ?_ (Text.length_le_byteLength _)
    rw [Text.paddedChars, List.length_append, List.length_replicate]
    omega
  simp only [temporaryName, String.toList_append, String.toList_ofList, Text.byteLength_append]
  have points : Text.byteLength ".".toList = 1 ∧ Text.byteLength ".tmp".toList = 4 := by decide
  omega

/-- A file cannot be replaced when no temporary name for it fits. -/
theorem replace_longName (named : Path.IsName name)
    (long : maxNameBytes < Text.byteLength name.toList + 12) (contents : ByteArray) :
    tree.replace name contents = (tree, .error (temporaryError name "." .nameTooLong)) := by
  have created : tree.createTemporary "." name = .error .nameTooLong := by
    have located : tree.locate "." = .ok [] := rfl
    have dots := temporaryName_ne_dots name (tree.freshAttempt [] name)
    have tooLong := Nat.lt_of_lt_of_le long
      (byteLength_temporaryName name (tree.freshAttempt [] name))
    simp only [createTemporary, located, enter, node?_nil, if_neg dots.1, if_neg dots.2,
      if_pos tooLong]
  have made : tree.makeDirectories "." = (tree, .ok ()) := rfl
  simp only [replace, named.directoryOf, named.fileName?, made, Option.getD_some, created]

end FileTree

end HubKeeper
