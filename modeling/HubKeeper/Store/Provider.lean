import HubKeeper.Settings.FileSources
import HubKeeper.Settings.Layout
import HubKeeper.Store.Basic

/-!
The provider of resolved settings.

It stacks all sources of a project, overrides of the call first and the settings
document last, resolves them, and remembers the snapshot for the overrides.  A
remembered snapshot is given again until it is refreshed or the memory is cleared,
which setting a value through the provider does.
-/

namespace HubKeeper

structure Provider where
  store : Store
  probe : HostProbe
  vars : List (String × String)
  lead : String
  dotenvFile : Option String
  dotenvLead : String
  secretsDir : Option String
  surrounding : Dict String

namespace Provider

/-- State of the store, and the snapshots remembered by the text of the overrides. -/
structure State where
  store : Store.State
  memory : Dict Snapshot

namespace State

def fresh (files : FileTree) : State := ⟨.fresh files, .empty⟩

def clear (state : State) : State := { state with memory := .empty }

end State

def memoryKey (overrides : Dict Json) : String :=
  (Json.ofDict overrides).compact

def readLayers (provider : Provider) (files : FileTree) (overrides : Dict Json) :
    Except Error (List Layer) := do
  let schema := provider.store.schema
  let dotenv ← match provider.dotenvFile with
    | some path =>
        (FileSources.dotenv files provider.surrounding path provider.dotenvLead schema).map
          fun layer => [layer]
    | none => .ok []
  let secrets ← match provider.secretsDir with
    | some path => (FileSources.secrets files path schema).map fun layer => [layer]
    | none => .ok []
  return ⟨"call-time overrides", overrides⟩ ::
    Environment.layer schema provider.lead provider.vars :: dotenv ++ secrets

/-- All layers, the highest ranked first. -/
def layers (provider : Provider) (state : State) (overrides : Dict Json) :
    State × Except Error (List Layer) :=
  match provider.readLayers state.store.files overrides with
  | .error e => (state, .error e)
  | .ok layers =>
      match provider.store.layer state.store with
      | (store, .error e) => ({ state with store := store }, .error e)
      | (store, .ok document) => ({ state with store := store }, .ok (layers ++ [document]))

/-- Resolves the overrides again and remembers the snapshot. -/
def refresh (provider : Provider) (state : State) (overrides : Dict Json) :
    State × Probed Snapshot :=
  match provider.layers state overrides with
  | (state, .error e) => (state, .error e)
  | (state, .ok layers) =>
      let resolved := provider.store.schema.resolve provider.probe layers
      match resolved.result with
      -- What was remembered before stays when resolution fails.
      | .error _ => (state, resolved)
      | .ok snapshot =>
          ({ state with memory := state.memory.insert (memoryKey overrides) snapshot }, resolved)

def get (provider : Provider) (state : State) (overrides : Dict Json) :
    State × Probed Snapshot :=
  match state.memory.get? (memoryKey overrides) with
  | some snapshot => (state, .ok snapshot)
  | none => provider.refresh state overrides

/-- Writes one setting to the document and forgets all snapshots. -/
def set (provider : Provider) (state : State) (path : String) (value : Json) :
    State × Except Error Unit :=
  match provider.store.set state.store path value with
  | (store, .error e) => ({ state with store := store }, .error e)
  | (store, .ok ()) =>
      match provider.store.flush store with
      | (store, .error e) => ({ state with store := store }, .error e)
      | (store, .ok _) => (State.clear { state with store := store }, .ok ())

end Provider

end HubKeeper
