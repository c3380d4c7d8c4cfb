import HubKeeper.Collections.Dict
import HubKeeper.Files.Path

/-!
A tree of files and directories.

A location is the list of names from the root of the tree.  A path leads to a
location if every directory on the way is there; whether anything is at the
location itself is another question.
-/

namespace HubKeeper

inductive FileFault
  | notFound
  | busy
  | alreadyThere
  | notDirectory
  | isDirectory
  | nameTooLong
  | noSpace
  | invalidText
deriving DecidableEq, Inhabited

namespace FileFault

def message : FileFault → String
  | notFound => "No such file or directory (os error 2)"
  | busy => "Device or resource busy (os error 16)"
  | alreadyThere => "File exists (os error 17)"
  | notDirectory => "Not a directory (os error 20)"
  | isDirectory => "Is a directory (os error 21)"
  | noSpace => "No space left on device (os error 28)"
  | nameTooLong => "File name too long (os error 36)"
  | invalidText => "stream did not contain valid UTF-8"

end FileFault

inductive FileNode
  | file (contents : ByteArray) (mode : Nat)
  | directory

/-- Files are the same when their bytes and modes are. -/
instance : DecidableEq FileNode
  | .directory, .directory => .isTrue rfl
  | .file contents mode, .file contents' mode' =>
      if h : contents.data = contents'.data ∧ mode = mode' then
        .isTrue (by rw [ByteArray.ext h.1, h.2])
      else .isFalse (by rintro ⟨⟩; exact h ⟨rfl, rfl⟩)
  | .file .., .directory | .directory, .file .. => .isFalse (by rintro ⟨⟩)

/-- Names from the root to a place in the tree. -/
abbrev Location := List String

/-- Nodes by location, their names joined by slashes, and whether the device is out of
space for contents. -/
structure FileTree where
  nodes : Dict FileNode
  full : Bool
deriving DecidableEq

namespace FileTree

def empty : FileTree := ⟨.empty, false⟩

def key (location : Location) : String :=
  "/".intercalate location

/-- What is at a location; the root is a directory. -/
def node? (tree : FileTree) (location : Location) : Option FileNode :=
  if location = [] then some .directory else tree.nodes.get? (key location)

def put (tree : FileTree) (location : Location) (node : FileNode) : FileTree :=
  { tree with nodes := tree.nodes.insert (key location) node }

def drop (tree : FileTree) (location : Location) : FileTree :=
  { tree with nodes := tree.nodes.erase (key location) }

def maxNameBytes : Nat := 255

def enter (tree : FileTree) (location : Location) (name : String) : Except FileFault Location :=
  match tree.node? location with
  | none => .error .notFound
  | some (.file ..) => .error .notDirectory
  | some .directory =>
      if name = "." then .ok location
      else if name = ".." then .ok location.dropLast
      else if maxNameBytes < Text.byteLength name.toList then .error .nameTooLong
      else .ok (location ++ [name])

def follow (tree : FileTree) : Location → List String → Except FileFault Location
  | location, [] => .ok location
  | location, name :: rest =>
      match tree.enter location name with
      | .error e => .error e
      | .ok next => follow tree next rest

/-- Names that a path makes one go along; a slash at the end asks for a directory. -/
def steps (path : String) : List String :=
  if path.toList.getLast? = some '/' then Path.parts path ++ ["."] else Path.parts path

def locate (tree : FileTree) (path : String) : Except FileFault Location :=
  if path = "" then .error .notFound else tree.follow [] (steps path)

def read (tree : FileTree) (path : String) : Except FileFault ByteArray :=
  match tree.locate path with
  | .error e => .error e
  | .ok location =>
      match tree.node? location with
      | none => .error .notFound
      | some .directory => .error .isDirectory
      | some (.file contents _) => .ok contents

def readText (tree : FileTree) (path : String) : Except FileFault String :=
  match tree.read path with
  | .error e => .error e
  | .ok contents =>
      match String.fromUTF8? contents with
      | some text => .ok text
      | none => .error .invalidText

/-- The name in a location, if a key lies directly below it. -/
def childName? (location : Location) (nodeKey : String) : Option String :=
  let names := Text.splitOn '/' nodeKey
  if names.dropLast = location then names.getLast? else none

def list (tree : FileTree) (path : String) : Except FileFault (List (String × FileNode)) :=
  match tree.locate path with
  | .error e => .error e
  | .ok location =>
      match tree.node? location with
      | none => .error .notFound
      | some (.file ..) => .error .notDirectory
      | some .directory =>
          .ok (tree.nodes.entries.filterMap fun (nodeKey, node) =>
            (childName? location nodeKey).map fun name => (name, node))

def makeAlong (tree : FileTree) : Location → List String → FileTree × Except FileFault Unit
  | _, [] => (tree, .ok ())
  | location, name :: rest =>
      match tree.enter location name with
      | .error e => (tree, .error e)
      | .ok next =>
          match tree.node? next with
          | some .directory => makeAlong tree next rest
          | some (.file ..) => (tree, .error (if rest = [] then .alreadyThere else .notDirectory))
          | none => makeAlong (tree.put next .directory) next rest

def makeDirectories (tree : FileTree) (path : String) : FileTree × Except FileFault Unit :=
  tree.makeAlong [] (Path.components path)

/-- Puts a node at a path, with directories on the way. -/
def place (tree : FileTree) (path : String) (node : FileNode) : FileTree :=
  let names := Path.components path
  ((tree.makeAlong [] names.dropLast).1).put names node

def remove (tree : FileTree) (path : String) : FileTree × Bool :=
  match tree.locate path with
  | .error _ => (tree, false)
  | .ok location =>
      match tree.node? location with
      | some (.file ..) => (tree.drop location, true)
      | _ => (tree, false)

def files (tree : FileTree) : List (String × ByteArray) :=
  tree.nodes.entries.filterMap fun (nodeKey, node) =>
    match node with
    | .file contents _ => some (nodeKey, contents)
    | .directory => none

end FileTree

end HubKeeper
