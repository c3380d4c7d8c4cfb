import HubKeeper.Proofs.Toml.Entries
import HubKeeper.Toml.Assembly
import HubKeeper.Toml.Printer

/-!
Tables with a header of their own.

A header opens a table once and for all: statements after it add to the tree, and where
they pass through the table they change what is in it, but none turns it into anything
else.  Such a table is printed with its header, whatever is in it.
-/

namespace HubKeeper.Toml

/-- The name has a table that a header opened, not one made on the way to others. -/
def Entries.HasHeader (entries : Entries) (name : String) : Prop :=
  ∃ inner layout, entries.find? name = some (.table inner layout) ∧ layout.implicit = false ∧
    layout.dotted = false

variable {name : String} {entries changed : Entries}

theorem Entries.HasHeader.append {key : Key} {node : Node} (has : entries.HasHeader name) :
    Entries.HasHeader (entries ++ [(key, node)]) name := by
  obtain ⟨inner, layout, found, own⟩ := has
  exact ⟨inner, layout, by rw [find?_append_single, found, Option.some_or], own⟩

theorem Entries.HasHeader.modify (has : entries.HasHeader name) (key : Key) (change : Node → Node)
    (kept : key.name = name → ∀ inner layout, entries.find? name = some (.table inner layout) →
      ∃ inner', change (.table inner layout) = .table inner' layout) :
    (entries.modify key.name fun entry => (entry.1, change entry.2)).HasHeader name := by
  obtain ⟨inner, layout, found, own⟩ := has
  simp only [HasHeader, find?_modify_node]
  by_cases here : key.name = name
  · obtain ⟨inner', changed⟩ := kept here inner layout found
    exact ⟨inner', layout, by rw [if_pos here.symm, here, found, Option.map_some, changed], own⟩
  · exact ⟨inner, layout, by rw [if_neg (Ne.symm here), found], own⟩

namespace Assembly

/-- What a statement does below a table leaves the table where it is. -/
theorem within_hasHeader {dotted isDotted : Bool} {change : Bool → Entries → Option Entries}
    {path : List Key} (has : entries.HasHeader name)
    (kept : path = [] → ∀ changed, change isDotted entries = some changed →
      changed.HasHeader name)
    (made : within dotted change path isDotted entries = some changed) :
    changed.HasHeader name := by
  cases path with
  | nil => exact kept rfl changed made
  | cons step path =>
      simp only [within] at made
      cases found : entries.find? step.name with
      | none =>
          rw [found] at made
          obtain ⟨inner, _, rfl⟩ := Option.map_eq_some_iff.mp made
          exact has.append
      | some node =>
          rw [found] at made
          cases node with
          | table inner layout =>
              simp only at made
              split at made
              · cases made
              · obtain ⟨inner', _, rfl⟩ := Option.map_eq_some_iff.mp made
                refine has.modify step (fun _ => .table inner' layout) ?_
                -- On the way to the path, the table is replaced by a table with the same layout.
                rintro rfl inner'' layout'' found''
                cases found.symm.trans found''
                exact ⟨inner', rfl⟩
          | tables elements =>
              simp only at made
              split at made
              · obtain ⟨inner', _, rfl⟩ := Option.map_eq_some_iff.mp made
                refine has.modify step (fun _ => .tables _) ?_
                rintro rfl inner'' layout'' found''
                cases found.symm.trans found''
              · cases made
          | scalar | array | inline => cases made

/-- A header has opened a table, which is open still or stands in the tree. -/
inductive Heads (name : String) : Assembly → Prop
  | opened {placed entries : Entries} {key : Key} {layout : TableLayout} {headers : Nat}
      (named : key.name = name) (own : layout.implicit = false ∧ layout.dotted = false) :
      Heads name ⟨placed, .table [] key, entries, layout, headers⟩
  | table {placed entries : Entries} {path : List Key} {key : Key} {layout : TableLayout}
      {headers : Nat} (has : placed.HasHeader name) (apart : path = [] → key.name ≠ name) :
      Heads name ⟨placed, .table path key, entries, layout, headers⟩
  | element {placed entries : Entries} {path : List Key} {key : Key} {layout : TableLayout}
      {headers : Nat} (has : placed.HasHeader name) :
      Heads name ⟨placed, .element path key, entries, layout, headers⟩

variable {a b : Assembly}

theorem Heads.close (heads : Heads name a) (closed : a.close = some changed) :
    changed.HasHeader name := by
  cases heads with
  | opened named own =>
      cases closed
      exact ⟨_, _, by rw [Entries.find?_append_single, Entries.find?_erase, if_pos named.symm,
        Option.none_or, if_pos named], own⟩
  | @table placed entries path key layout headers has apart =>
      refine within_hasHeader has (fun top changed made => ?_) closed
      cases made
      obtain ⟨inner, layout', found, own⟩ := has
      refine ⟨inner, layout', ?_, own⟩
      rw [Entries.find?_append_single, Entries.find?_erase, if_neg (apart top).symm, found,
        Option.some_or]
  | @element placed entries path key layout headers has =>
      refine within_hasHeader has (fun _ changed made => ?_) closed
      split at made
      · cases made
        exact has.append
      · rename_i elements found
        cases made
        refine has.modify key (fun _ => .tables _) ?_
        rintro rfl inner layout' found'
        cases found.symm.trans found'
      · cases made

theorem Heads.step {statement : Statement} (heads : Heads name a)
    (stepped : a.step statement = some b) : Heads name b := by
  cases statement with
  | pair path key value =>
      obtain ⟨entries, _, rfl⟩ := Option.map_eq_some_iff.mp stepped
      cases heads with
      | opened named own => exact .opened named own
      | table has apart => exact .table has apart
      | element has => exact .element has
  | header path key decor =>
      obtain ⟨placed, closed, stepped⟩ := Option.bind_eq_some_iff.mp stepped
      obtain ⟨entries, taken, made⟩ := Option.bind_eq_some_iff.mp stepped
      cases made
      have has := heads.close closed
      refine .table has ?_
      -- A header for the table once more would have been refused.
      rintro rfl rfl
      obtain ⟨inner, layout, found, own, _⟩ := has
      simp only [takenOver, found, own] at taken
      cases taken
  | element path key decor =>
      obtain ⟨placed, closed, made⟩ := Option.bind_eq_some_iff.mp stepped
      cases made
      exact .element (heads.close closed)

theorem Heads.foldlM {statements : List Statement} (heads : Heads name a)
    (folded : statements.foldlM Assembly.step a = some b) : Heads name b := by
  induction statements generalizing a with
  | nil =>
      cases folded
      exact heads
  | cons statement statements ih =>
      rw [List.foldlM_cons] at folded
      obtain ⟨next, stepped, folded⟩ := Option.bind_eq_some_iff.mp folded
      exact ih (heads.step stepped) folded

theorem heads_header {key : Key} {decor : Decor} (stepped : a.step (.header [] key decor) = some b) :
    Heads key.name b := by
  obtain ⟨placed, _, stepped⟩ := Option.bind_eq_some_iff.mp stepped
  obtain ⟨entries, _, made⟩ := Option.bind_eq_some_iff.mp stepped
  cases made
  exact .opened rfl ⟨rfl, rfl⟩

end Assembly

/-! ### Printing -/

theorem mem_sectionsIn (path : List Key) {key : Key} {inner : Entries} {layout : TableLayout}
    (member : (key, .table inner layout) ∈ entries) (own : layout.dotted = false) :
    ⟨path ++ [key], false, layout, flatEntries [] inner⟩ ∈ sectionsIn path entries := by
  induction entries with
  | nil => cases member
  | cons entry rest ih =>
      obtain ⟨first, node⟩ := entry
      rw [sectionsIn, List.mem_append]
      rcases List.mem_cons.mp member with here | there
      · cases here
        simp [sectionsOf, own]
      · exact .inr (ih there)

theorem mem_numbered {s : Section} {found : List Section} (member : s ∈ found) (last : Nat) :
    ∃ number, (number, s) ∈ numbered last found := by
  induction found generalizing last with
  | nil => cases member
  | cons first rest ih =>
      rw [numbered]
      rcases List.mem_cons.mp member with rfl | there
      · exact ⟨_, List.mem_cons_self⟩
      · obtain ⟨number, further⟩ := ih there (first.layout.position.getD last)
        exact ⟨number, List.mem_cons_of_mem _ further⟩

theorem sectionsChars_ne_nil {s : Section} {found : List Section} (member : s ∈ found)
    (header : ∀ first, s.headerChars first ≠ []) (first : Bool) :
    sectionsChars first found ≠ [] := by
  induction found generalizing first with
  | nil => cases member
  | cons next rest ih =>
      rw [sectionsChars]
      rcases List.mem_cons.mp member with rfl | there
      · simp [header first]
      · simp [ih there]

theorem Document.text_ne_empty {document : Document} (has : document.root.HasHeader name) :
    document.text ≠ "" := by
  obtain ⟨inner, layout, found, own, notDotted⟩ := has
  obtain ⟨⟨key, _⟩, present, rfl⟩ := Option.map_eq_some_iff.mp found
  let s : Section := ⟨[key], false, layout, flatEntries [] inner⟩
  have listed : s ∈ document.sections := by
    rw [sections]
    obtain ⟨number, among⟩ := mem_numbered (List.mem_cons_of_mem _
      (mem_sectionsIn [] (List.mem_of_find?_eq_some present) notDotted)) 0
    exact List.mem_map.mpr ⟨(number, s), List.mem_mergeSort.mpr among, rfl⟩
  have header : ∀ first, s.headerChars first ≠ [] := by
    intro first
    simp [s, Section.headerChars, own]
  have printed := sectionsChars_ne_nil listed header true
  simp [text, chars, printed]

end HubKeeper.Toml
