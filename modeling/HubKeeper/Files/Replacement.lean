import HubKeeper.Error
import HubKeeper.Files.Tree

/-!
Replacement of a file in one step.

The contents go to a temporary file next to the target, readable by the owner
only, which is then renamed over the target.  Whatever fails, the target stays as
it was and the temporary file is removed.
-/

namespace HubKeeper.FileTree

/-- Mode of files that may hold secrets. -/
def ownerOnly : Nat := 0o600

def ordinaryMode : Nat := 0o644

def temporaryName (target : String) (attempt : Nat) : String :=
  "." ++ target ++ "." ++ .ofList (Text.paddedChars 6 attempt) ++ ".tmp"

def freshAttempt (tree : FileTree) (directory : Location) (target : String) : Nat :=
  ((List.range (tree.nodes.size + 1)).find? fun attempt =>
    (tree.node? (directory ++ [temporaryName target attempt])).isNone).getD 0

def createTemporary (tree : FileTree) (directory target : String) :
    Except FileFault (FileTree × Location) :=
  match tree.locate directory with
  | .error e => .error e
  | .ok location =>
      let name := temporaryName target (tree.freshAttempt location target)
      match tree.enter location name with
      | .error e => .error e
      | .ok temporary => .ok (tree.put temporary (.file .empty ownerOnly), temporary)

def fill (tree : FileTree) (temporary : Location) (contents : ByteArray) :
    Except FileFault FileTree :=
  if tree.full && contents.size != 0 then .error .noSpace
  else .ok (tree.put temporary (.file contents ownerOnly))

def rename (tree : FileTree) (source : Location) (path : String) : Except FileFault FileTree :=
  match (Path.parts path).getLast? with
  | none => .error (if path = "" then .notFound else .busy)
  | some last =>
      match tree.follow [] (Path.parts path) with
      | .error e => .error e
      | .ok target =>
          if last = "." || last = ".." then .error .busy
          else if path.toList.getLast? = some '/' then .error .notDirectory
          else
            match tree.node? target, tree.node? source with
            | some .directory, _ => .error .isDirectory
            | _, some node => .ok ((tree.drop source).put target node)
            | _, none => .error .notFound

def persistError (path : String) (fault : FileFault) : Error :=
  .persist path fault.message

def temporaryError (path directory : String) (fault : FileFault) : Error :=
  let name := temporaryName ((Path.fileName? path).getD "") 0
  .persist path (fault.message ++ " at path \"" ++ Path.join directory name ++ "\"")

/-- Replaces the file at a path; directories on the way are made. -/
def replace (tree : FileTree) (path : String) (contents : ByteArray) :
    FileTree × Except Error Unit :=
  let directory := Path.directoryOf path
  match tree.makeDirectories directory with
  -- Directories that have been made stay, whatever fails.
  | (tree, .error e) => (tree, .error (persistError path e))
  | (tree, .ok ()) =>
      match tree.createTemporary directory ((Path.fileName? path).getD "") with
      | .error e => (tree, .error (temporaryError path directory e))
      | .ok (withTemporary, temporary) =>
          -- From here on a failure takes the temporary file away again.
          match withTemporary.fill temporary contents with
          | .error e => (withTemporary.drop temporary, .error (persistError path e))
          | .ok written =>
              match written.rename temporary path with
              | .error e => (written.drop temporary, .error (persistError path e))
              | .ok renamed => (renamed, .ok ())

def replaceText (tree : FileTree) (path text : String) : FileTree × Except Error Unit :=
  tree.replace path text.toUTF8

end HubKeeper.FileTree
