import HubKeeper.Cli.Run

/-!
The program.

The files that a command may touch are read into a tree, the command runs on that
tree, and what it changed is written back.  The program delivers no requests: a
command that asks the provider fails as it does without a network.
-/

namespace HubKeeper.Machine

def vars : IO (Dict String) := do
  let bytes ← IO.FS.readBinFile "/proc/self/environ"
  let entries := Text.splitOn '\x00' ((String.fromUTF8? bytes).getD "")
  return .ofList (entries.filterMap fun entry =>
    (Text.splitOnce ['='] entry.toList).map fun (name, value) =>
      (.ofList name, .ofList value))

def probe : IO HostProbe := do
  let hostname ← (some <$> IO.FS.readFile "/proc/sys/kernel/hostname") <|> pure none
  return .fixed (hostname.map Text.trim) none

/-- Files read into a tree, and the path on the machine of each place in it. -/
structure Copy where
  tree : FileTree
  origins : Dict String

namespace Copy

def empty : Copy := ⟨.empty, .empty⟩

def take (copy : Copy) (path : String) : IO Copy := do
  match copy.tree.locate path with
  | .error _ =>
      return { copy with origins := copy.origins.insert (FileTree.key (Path.components path)) path }
  | .ok [] => return copy
  | .ok location =>
      let origins := copy.origins.insert (FileTree.key location) path
      let place := (IO.FS.DirEntry.mk "." path).path
      if ← place.isDir then return ⟨copy.tree.put location .directory, origins⟩
      else if ← place.pathExists then
        let contents ← IO.FS.readBinFile path
        return ⟨copy.tree.put location (.file contents FileTree.ordinaryMode), origins⟩
      else return ⟨copy.tree, origins⟩

def takeAlong (copy : Copy) (path : String) : IO Copy :=
  let start := if Path.isAbsolute path then "/" else ""
  let parts := Path.parts path
  (List.range parts.length).foldlM
    (fun copy n => copy.take (start ++ "/".intercalate (parts.take (n + 1)))) copy

def takeDirectory (copy : Copy) (path : String) : IO Copy := do
  let copy ← copy.takeAlong path
  let place := (IO.FS.DirEntry.mk "." path).path
  if ← place.isDir then
    let entries ← place.readDir
    entries.foldlM (fun copy entry => copy.take (Path.join path entry.fileName)) copy
  else return copy

def writeBack (copy : Copy) (tree : FileTree) : IO Unit :=
  tree.nodes.entries.forM fun (key, node) => do
    let path := (copy.origins.get? key).getD key
    if copy.tree.nodes.get? key = some node then return
    match node with
    | .directory => IO.FS.createDirAll path
    | .file contents _ =>
        let temporary := Path.join (Path.directoryOf path)
          (FileTree.temporaryName ((Path.fileName? path).getD "") 0)
        IO.FS.writeBinFile temporary contents
        IO.setAccessRights temporary { user := { read := true, write := true } }
        IO.FS.rename temporary path

end Copy

/-- The files that a command may touch. -/
def filesOf (invocation : Cli.Invocation) : IO Copy := do
  let layout := ProjectLayout.standard invocation.projectDir
  let copy ← Copy.empty.takeAlong layout.settingsFile
  let copy ← copy.takeAlong layout.dotenvFile
  let copy ← copy.takeDirectory layout.secretsDir
  match invocation.command with
  | .environment _ (some path) => copy.takeAlong path
  | _ => return copy

def tell (exitCode : Nat) (output errors : String) : IO UInt32 := do
  (← IO.getStdout).putStr output
  (← IO.getStderr).putStr errors
  return exitCode.toUInt32

def perform (vars : Dict String) (invocation : Cli.Invocation) : IO UInt32 := do
  let around : Cli.Surroundings Unit := ⟨vars, ← probe, .unreachable⟩
  let copy ← filesOf invocation
  let finish := invocation.run around copy.tree ()
  copy.writeBack finish.files
  tell finish.exitCode finish.output finish.errors

end HubKeeper.Machine

open HubKeeper in
def main (arguments : List String) : IO UInt32 := do
  let vars ← Machine.vars
  match Cli.Invocation.parse vars arguments with
  | .error stop => Machine.tell stop.exitCode stop.output stop.errors
  | .ok invocation =>
      try Machine.perform vars invocation
      catch fault => Machine.tell 2 "" (Cli.line ("error: " ++ toString fault))
