import HubKeeper.Text.Ascii
import HubKeeper.Text.Fields

/-!
Paths as texts.

A path is components between slashes.  Empty components and points that stand for
the same directory do not count, except a point at the very start.
-/

namespace HubKeeper.Path

/-- The components of a path as written, without empty ones. -/
def parts (path : String) : List String :=
  (Text.splitOn '/' path).filter (· != "")

def isAbsolute (path : String) : Bool :=
  path.toList.head? = some '/'

def components (path : String) : List String :=
  match parts path with
  | [] => []
  | first :: rest =>
      let others := rest.filter (· != ".")
      if first = "." && isAbsolute path then others else first :: others

/-- Name of the file or directory that a path leads to; none if the path ends in a
component that is no name. -/
def fileName? (path : String) : Option String :=
  (components path).getLast?.filter fun name => name != "." && name != ".."

def parent (path : String) : String :=
  let start := if isAbsolute path then "/" else ""
  start ++ "/".intercalate (components path).dropLast

/-- The directory in which a file is replaced. -/
def directoryOf (path : String) : String :=
  let directory := parent path
  if directory = "" then "." else directory

/-- A path below a directory; an absolute one stays as it is. -/
def join (directory path : String) : String :=
  if isAbsolute path || directory = "" then path
  else if directory.toList.getLast? = some '/' then directory ++ path
  else directory ++ "/" ++ path

end HubKeeper.Path
