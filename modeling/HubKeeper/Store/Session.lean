import HubKeeper.Store.Basic

/-!
Operations on a store, one after the other.

Between two operations the files may change, but not what can be read at the path of
the store.
-/

namespace HubKeeper.Store

inductive Operation
  | load
  | get (path : String)
  | set (path : String) (value : Json)
  | flush
  | save (document : SettingsDocument)
  | layer
  | clear
  | reopen

inductive Answer
  | document (document : SettingsDocument)
  | value (value : Option Json)
  | layer (layer : Layer)
  | flushed (written : Bool)
  | done

/-- Carries out an operation.  Reopening starts anew on the same files. -/
def perform (store : Store) (state : State) : Operation → State × Except Error Answer
  | .load => (store.load state).map id (·.map .document)
  | .get path => (store.get state path).map id (·.map .value)
  | .set path value => (store.set state path value).map id (·.map fun _ => .done)
  | .flush => (store.flush state).map id (·.map .flushed)
  | .save document => (store.save state document).map id (·.map fun _ => .done)
  | .layer => (store.layer state).map id (·.map .layer)
  | .clear => (state.clear, .ok .done)
  | .reopen => (.fresh state.files, .ok .done)

/-- What happens to a store: an operation, or a change of files elsewhere. -/
inductive Event
  | operation (operation : Operation)
  | elsewhere (files : FileTree)

def step (store : Store) (state : State) : Event → State
  | .operation operation => (store.perform state operation).1
  | .elsewhere files => { state with files := files }

def after (store : Store) (state : State) : List Event → State
  | [] => state
  | event :: rest => store.after (store.step state event) rest

end HubKeeper.Store
