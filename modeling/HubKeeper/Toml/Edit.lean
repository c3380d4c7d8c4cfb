import HubKeeper.Toml.Basic

/-!
Changing entries of a table.  What is not changed keeps its spelling and decor.
-/

namespace HubKeeper.Toml.Entries

/-- Puts a value under a name.  It takes the decor of a value that was there; a new
name comes last. -/
def put (entries : Entries) (name : String) (value : Node) : Entries :=
  match entries.find? name with
  | some old =>
      let value := if old.isValue then value.withDecor old.decor else value
      entries.modify name fun (key, _) => (key, value)
  | none => entries ++ [(.plain name, value)]

/-- Puts a node under a name in the default layout. -/
def place (entries : Entries) (name : String) (node : Node) : Entries :=
  match entries.find? name with
  | some _ => entries.modify name fun (key, _) => (key.reset, node)
  | none => entries ++ [(.plain name, node)]

/-- Makes sure that a name has a table, an empty inline one if it has none. -/
def ensureTable (entries : Entries) (name : String) : Entries :=
  match (entries.find? name).bind Node.entries? with
  | some _ => entries
  | none => entries.place name .emptyInline

def within (entries : Entries) (name : String) (change : Entries → Entries) : Entries :=
  entries.modify name fun (key, node) =>
    (key, match node.entries? with
      | some inner => node.withEntries (change inner)
      | none => node)

end HubKeeper.Toml.Entries
