import HubKeeper.Proofs.Toml.Entries
import HubKeeper.Toml.Assembly

/-!
Tables without repeated names.

Nothing is read into a table under a name that is there already, so every table of a document
has its names once.  A change of the entries at a name keeps it so.
-/

namespace HubKeeper.Toml

/-- No table has a name twice, at whatever depth. -/
inductive Node.Distinct : Node → Prop
  | scalar {value : Scalar} {spelling : Option Raw} {decor : Decor} :
      Distinct (.scalar value spelling decor)
  | array {items : List Node} {layout : ArrayLayout} (each : ∀ item ∈ items, Distinct item) :
      Distinct (.array items layout)
  | inline {entries : Entries} {layout : InlineLayout} (once : entries.names.Nodup)
      (each : ∀ entry ∈ entries, Distinct entry.2) : Distinct (.inline entries layout)
  | table {entries : Entries} {layout : TableLayout} (once : entries.names.Nodup)
      (each : ∀ entry ∈ entries, Distinct entry.2) : Distinct (.table entries layout)
  | tables {elements : List Node} (each : ∀ element ∈ elements, Distinct element) :
      Distinct (.tables elements)

structure Entries.Distinct (entries : Entries) : Prop where
  once : entries.names.Nodup
  each : ∀ entry ∈ entries, entry.2.Distinct

/-! ### Nodes -/

namespace Node

variable {node : Node} {entries : Entries}

theorem distinct_inline {layout : InlineLayout} :
    (Node.inline entries layout).Distinct ↔ entries.Distinct :=
  ⟨fun | .inline once each => ⟨once, each⟩, fun distinct => .inline distinct.once distinct.each⟩

theorem distinct_table {layout : TableLayout} :
    (Node.table entries layout).Distinct ↔ entries.Distinct :=
  ⟨fun | .table once each => ⟨once, each⟩, fun distinct => .table distinct.once distinct.each⟩

theorem distinct_tables {elements : List Node} :
    (Node.tables elements).Distinct ↔ ∀ element ∈ elements, element.Distinct :=
  ⟨fun | .tables each => each, .tables⟩

theorem Distinct.entries? (distinct : node.Distinct) (held : node.entries? = some entries) :
    entries.Distinct := by
  cases distinct with
  | inline once each | table once each =>
      cases held
      exact ⟨once, each⟩
  | scalar | array | tables => cases held

theorem Distinct.withEntries (distinct : node.Distinct) (inner : entries.Distinct) :
    (node.withEntries entries).Distinct := by
  cases distinct with
  | inline => exact distinct_inline.mpr inner
  | table => exact distinct_table.mpr inner
  | scalar => exact .scalar
  | array each => exact .array each
  | tables each => exact .tables each

theorem Distinct.withDecor (distinct : node.Distinct) (decor : Decor) :
    (node.withDecor decor).Distinct := by
  cases distinct with
  | scalar => exact .scalar
  | array each => exact .array each
  | inline once each => exact .inline once each
  | table once each => exact .table once each
  | tables each => exact .tables each

end Node

/-! ### Entries -/

namespace Entries

variable {entries : Entries} {name : String} {key : Key} {node : Node}

theorem distinct_nil : Distinct [] :=
  ⟨List.nodup_nil, List.forall_mem_nil _⟩

theorem Distinct.find? (distinct : entries.Distinct) (found : entries.find? name = some node) :
    node.Distinct := by
  obtain ⟨entry, there, rfl⟩ := Option.map_eq_some_iff.mp found
  exact distinct.each entry (List.mem_of_find?_eq_some there)

theorem Distinct.append (distinct : entries.Distinct) (absent : entries.find? key.name = none)
    (nodeDistinct : node.Distinct) : Distinct (entries ++ [(key, node)]) where
  once := by
    rw [names, List.map_append, List.nodup_append]
    refine ⟨distinct.once, List.pairwise_singleton _ _, fun other there new alone => ?_⟩
    rintro rfl
    rw [List.map_singleton, List.mem_singleton] at alone
    exact find?_eq_none_iff.mp absent (alone ▸ there)
  each := List.forall_mem_append.mpr
    ⟨distinct.each, List.forall_mem_singleton.mpr nodeDistinct⟩

theorem Distinct.modify (distinct : entries.Distinct) {change : Key × Node → Key × Node}
    (named : ∀ entry, (change entry).1.name = entry.1.name)
    (kept : ∀ entry ∈ entries, entry.1.name = name → (change entry).2.Distinct) :
    (entries.modify name change).Distinct where
  once := by
    have same : (entries.modify name change).names = entries.names := by
      rw [names, Entries.modify, List.map_map]
      refine List.map_congr_left fun entry _ => ?_
      simp only [Function.comp_apply]
      split
      · exact named entry
      · rfl
    exact same ▸ distinct.once
  each := by
    refine List.forall_mem_map.mpr fun entry member => ?_
    split
    · exact kept entry member ‹_›
    · exact distinct.each entry member

theorem Distinct.replace (distinct : entries.Distinct) {rename : Key → Key}
    (named : ∀ key, (rename key).name = key.name) (nodeDistinct : node.Distinct) :
    (entries.modify name fun entry => (rename entry.1, node)).Distinct :=
  distinct.modify (fun entry => named entry.1) fun _ _ _ => nodeDistinct

theorem Distinct.erase (distinct : entries.Distinct) (name : String) :
    (entries.erase name).Distinct where
  once := distinct.once.sublist (List.filter_sublist.map _)
  each entry member := distinct.each entry (List.mem_filter.mp member).1

end Entries

/-! ### Values -/

theorem insertDotted_distinct {key : Key} {value : Node} {path : List Key}
    {entries changed : Entries} (distinct : entries.Distinct) (valueDistinct : value.Distinct)
    (made : insertDotted key value path entries = some changed) : changed.Distinct := by
  induction path generalizing entries changed with
  | nil =>
      obtain ⟨absent, made⟩ := Option.ite_none_left_eq_some.mp made
      rw [Option.not_isSome_iff_eq_none] at absent
      exact Option.some.inj made ▸ distinct.append absent valueDistinct
  | cons step path ih =>
      rw [insertDotted] at made
      split at made
      · rename_i absent
        obtain ⟨inner, below, rfl⟩ := Option.map_eq_some_iff.mp made
        exact distinct.append absent (Node.distinct_inline.mpr (ih Entries.distinct_nil below))
      · rename_i found
        obtain ⟨_, made⟩ := Option.ite_none_right_eq_some.mp made
        obtain ⟨inner, below, rfl⟩ := Option.map_eq_some_iff.mp made
        have before := Node.distinct_inline.mp (distinct.find? found)
        exact distinct.replace (fun _ => rfl) (Node.distinct_inline.mpr (ih before below))
      · cases made

theorem inlineOfPairs_distinct {pairs : List ((List Key × Key) × Node)} {entries : Entries}
    (each : ∀ pair ∈ pairs, pair.2.Distinct) (made : inlineOfPairs pairs = some entries) :
    entries.Distinct := by
  have folded : ∀ {before : Entries}, before.Distinct →
      pairs.foldlM (fun entries pair => insertDotted pair.1.2 pair.2 pair.1.1 entries) before =
        some entries → entries.Distinct := by
    clear made
    induction pairs with
    | nil =>
        intro before distinct made
        exact Option.some.inj made ▸ distinct
    | cons pair rest ih =>
        intro before distinct made
        rw [List.foldlM_cons] at made
        obtain ⟨next, put, made⟩ := Option.bind_eq_some_iff.mp made
        obtain ⟨first, others⟩ := List.forall_mem_cons.mp each
        exact ih others (insertDotted_distinct distinct first put) made
  exact folded Entries.distinct_nil made

theorem scalar?_distinct {cs rest : List Char} {node : Node}
    (read : scalar? cs = some (node, rest)) : node.Distinct := by
  unfold scalar? at read
  split at read
  · cases read
    exact .scalar
  · obtain ⟨_, _, read⟩ := Option.map_eq_some_iff.mp read
    cases read
    exact .scalar

/-- Nothing that is read with so much fuel has a name twice: no value, and none of the items and
pairs that values are made of. -/
structure ReadsDistinct (fuel : Nat) : Prop where
  value : ∀ {depth cs node rest}, value? fuel depth cs = some (node, rest) → node.Distinct
  items : ∀ {depth cs items comma trailing rest},
    items? fuel depth cs = some ((items, comma, trailing), rest) → ∀ item ∈ items, item.Distinct
  pairs : ∀ {depth cs pairs rest}, pairs? fuel depth cs = some (pairs, rest) →
    ∀ pair ∈ pairs, pair.2.Distinct

namespace ReadsDistinct

variable {fuel depth : Nat} {cs rest : List Char}

theorem value_succ (less : ReadsDistinct fuel) {node : Node}
    (read : value? (fuel + 1) depth cs = some (node, rest)) : node.Distinct := by
  unfold value? at read
  split at read
  case h_1 | h_2 => cases read
  case h_3 =>
    cases read
    exact .array (List.forall_mem_nil _)
  case h_4 =>
    obtain ⟨⟨⟨items, comma, trailing⟩, tail⟩, inside, same⟩ := Option.map_eq_some_iff.mp read
    cases same
    exact .array (less.items inside)
  case h_5 =>
    dsimp only at read
    split at read
    · cases read
      exact Node.distinct_inline.mpr Entries.distinct_nil
    · split at read
      · cases read
      · rename_i inside
        obtain ⟨entries, made, same⟩ := Option.map_eq_some_iff.mp read
        cases same
        exact Node.distinct_inline.mpr (inlineOfPairs_distinct (less.pairs inside) made)
  case h_6 => exact scalar?_distinct read

theorem items_succ (less : ReadsDistinct fuel) {items : List Node} {comma : Bool} {trailing : Raw}
    (read : items? (fuel + 1) depth cs = some ((items, comma, trailing), rest)) :
    ∀ item ∈ items, item.Distinct := by
  rw [items?] at read
  dsimp only at read
  split at read
  · cases read
    exact List.forall_mem_nil _
  · split at read
    · cases read
    · rename_i item _ found
      have first := (less.value found).withDecor
      split at read
      · cases read
        exact List.forall_mem_singleton.mpr (first _)
      · obtain ⟨⟨⟨others, comma, trailing⟩, tail⟩, further, same⟩ :=
          Option.map_eq_some_iff.mp read
        cases same
        exact List.forall_mem_cons.mpr ⟨first _, less.items further⟩
      · cases read

theorem pairs_succ (less : ReadsDistinct fuel) {pairs : List ((List Key × Key) × Node)}
    (read : pairs? (fuel + 1) depth cs = some (pairs, rest)) :
    ∀ pair ∈ pairs, pair.2.Distinct := by
  rw [pairs?] at read
  split at read
  · dsimp only at read
    split at read
    · cases read
    · rename_i found
      have first := (less.value found).withDecor
      split at read
      · cases read
        exact List.forall_mem_singleton.mpr (first _)
      · obtain ⟨⟨others, tail⟩, further, same⟩ := Option.map_eq_some_iff.mp read
        cases same
        exact List.forall_mem_cons.mpr ⟨first _, less.pairs further⟩
      · cases read
  · cases read

end ReadsDistinct

theorem readsDistinct (fuel : Nat) : ReadsDistinct fuel := by
  induction fuel with
  | zero => exact ⟨nofun, nofun, nofun⟩
  | succ fuel less => exact ⟨less.value_succ, less.items_succ, less.pairs_succ⟩

/-! ### Statements -/

def Statement.Distinct : Statement → Prop
  | .pair _ _ value => value.Distinct
  | .header .. | .element .. => True

theorem Statement.read?_distinct {lead : Raw} {cs rest : List Char} {statement : Statement}
    (read : read? lead cs = some (statement, rest)) : statement.Distinct := by
  unfold read? at read
  split at read
  · unfold element? at read
    split at read
    · obtain ⟨_, _, same⟩ := Option.map_eq_some_iff.mp read
      cases same
      trivial
    · cases read
  · unfold header? at read
    split at read
    · obtain ⟨_, _, same⟩ := Option.map_eq_some_iff.mp read
      cases same
      trivial
    · cases read
  · unfold pair? at read
    split at read
    · dsimp only at read
      split at read
      · cases read
      · rename_i found
        obtain ⟨_, _, same⟩ := Option.map_eq_some_iff.mp read
        cases same
        exact ((readsDistinct _).value found).withDecor _
    · cases read

theorem Statement.readAll?_distinct {fuel : Nat} {cs : List Char} {statements : List Statement}
    {trailing : Raw} (read : readAll? fuel cs = some (statements, trailing)) :
    ∀ statement ∈ statements, statement.Distinct := by
  induction fuel generalizing cs statements trailing with
  | zero => cases read
  | succ fuel ih =>
      rw [readAll?] at read
      dsimp only at read
      split at read
      · cases read
        exact List.forall_mem_nil _
      · split at read
        · cases read
        · rename_i first
          obtain ⟨⟨others, trailing⟩, further, same⟩ := Option.map_eq_some_iff.mp read
          cases same
          exact List.forall_mem_cons.mpr ⟨read?_distinct first, ih further⟩

/-! ### Documents -/

section Assembly

variable {dotted isDotted : Bool} {change : Bool → Entries → Option Entries} {path : List Key}
  {entries changed : Entries}

/-- A change at a path keeps names apart if it does so where the path leads. -/
theorem within_distinct (distinct : entries.Distinct)
    (kept : ∀ {isDotted inner changed}, Entries.Distinct inner →
      change isDotted inner = some changed → changed.Distinct)
    (made : within dotted change path isDotted entries = some changed) : changed.Distinct := by
  induction path generalizing isDotted entries changed with
  | nil => exact kept distinct made
  | cons step path ih =>
      simp only [within] at made
      split at made
      · rename_i absent
        obtain ⟨inner, below, rfl⟩ := Option.map_eq_some_iff.mp made
        exact distinct.append absent (Node.distinct_table.mpr (ih Entries.distinct_nil below))
      · rename_i found
        split at made
        · cases made
        · obtain ⟨inner, below, rfl⟩ := Option.map_eq_some_iff.mp made
          have before := Node.distinct_table.mp (distinct.find? found)
          exact distinct.replace (fun _ => rfl) (Node.distinct_table.mpr (ih before below))
      · rename_i elements found
        split at made
        · rename_i last
          obtain ⟨inner, below, rfl⟩ := Option.map_eq_some_iff.mp made
          have each := Node.distinct_tables.mp (distinct.find? found)
          have before := Node.distinct_table.mp (each _ (List.mem_of_getLast? last))
          refine distinct.replace (fun _ => rfl) (Node.distinct_tables.mpr ?_)
          exact List.forall_mem_append.mpr ⟨fun element member =>
            each element ((List.dropLast_sublist _).subset member),
            List.forall_mem_singleton.mpr (Node.distinct_table.mpr (ih before below))⟩
        · cases made
      · cases made

theorem placePair_distinct {key : Key} {value : Node} (distinct : entries.Distinct)
    (valueDistinct : value.Distinct) (made : placePair path key value entries = some changed) :
    changed.Distinct := by
  refine within_distinct distinct (fun {isDotted inner changed} before put => ?_) made
  obtain ⟨free, same⟩ := Option.ite_none_left_eq_some.mp put
  rw [Bool.or_eq_true, not_or, Option.not_isSome_iff_eq_none] at free
  exact Option.some.inj same ▸ before.append free.2 valueDistinct

namespace Assembly

/-- Neither what is placed nor what is open has a name twice. -/
structure Distinct (a : Assembly) : Prop where
  placed : a.placed.Distinct
  entries : a.entries.Distinct

variable {a b : Assembly}

theorem Distinct.close (distinct : a.Distinct) (closed : a.close = some changed) :
    changed.Distinct := by
  have opened : (Node.table a.entries a.layout).Distinct :=
    Node.distinct_table.mpr distinct.entries
  unfold Assembly.close at closed
  split at closed
  · exact Option.some.inj closed ▸ distinct.entries
  · refine within_distinct distinct.placed (fun {isDotted inner changed} before put => ?_) closed
    refine Option.some.inj put ▸ (before.erase _).append ?_ opened
    rw [Entries.find?_erase, if_pos rfl]
  · refine within_distinct distinct.placed (fun {isDotted inner changed} before put => ?_) closed
    split at put
    · rename_i absent
      refine Option.some.inj put ▸ before.append absent ?_
      exact Node.distinct_tables.mpr (List.forall_mem_singleton.mpr opened)
    · rename_i elements found
      have each := Node.distinct_tables.mp (before.find? found)
      refine Option.some.inj put ▸ before.replace (fun _ => rfl) ?_
      exact Node.distinct_tables.mpr
        (List.forall_mem_append.mpr ⟨each, List.forall_mem_singleton.mpr opened⟩)
    · cases put

theorem takenOver_distinct {key : Key} {placed : Entries} (distinct : placed.Distinct)
    (taken : takenOver path key placed = some changed) : changed.Distinct := by
  induction path generalizing placed with
  | nil =>
      rw [takenOver] at taken
      split at taken
      · exact Option.some.inj taken ▸ Entries.distinct_nil
      · rename_i found
        obtain ⟨_, same⟩ := Option.ite_none_right_eq_some.mp taken
        exact Option.some.inj same ▸ Node.distinct_table.mp (distinct.find? found)
      · cases taken
  | cons step path ih =>
      rw [takenOver] at taken
      split at taken
      · exact Option.some.inj taken ▸ Entries.distinct_nil
      · rename_i found
        exact ih (Node.distinct_table.mp (distinct.find? found)) taken
      · rename_i elements found
        split at taken
        · rename_i last
          have each := Node.distinct_tables.mp (distinct.find? found)
          exact ih (Node.distinct_table.mp (each _ (List.mem_of_getLast? last))) taken
        · cases taken
      · cases taken

theorem Distinct.step {statement : Statement} (distinct : a.Distinct)
    (value : statement.Distinct) (stepped : a.step statement = some b) : b.Distinct := by
  cases statement with
  | pair path key node =>
      obtain ⟨entries, placed, rfl⟩ := Option.map_eq_some_iff.mp stepped
      exact ⟨distinct.placed, placePair_distinct distinct.entries value placed⟩
  | header path key decor =>
      obtain ⟨placed, closed, stepped⟩ := Option.bind_eq_some_iff.mp stepped
      obtain ⟨entries, taken, made⟩ := Option.bind_eq_some_iff.mp stepped
      cases made
      exact ⟨distinct.close closed, takenOver_distinct (distinct.close closed) taken⟩
  | element path key decor =>
      obtain ⟨placed, closed, made⟩ := Option.bind_eq_some_iff.mp stepped
      cases made
      exact ⟨distinct.close closed, Entries.distinct_nil⟩

theorem Distinct.foldlM {statements : List Statement} (distinct : a.Distinct)
    (each : ∀ statement ∈ statements, statement.Distinct)
    (folded : statements.foldlM Assembly.step a = some b) : b.Distinct := by
  induction statements generalizing a with
  | nil => exact Option.some.inj folded ▸ distinct
  | cons statement rest ih =>
      rw [List.foldlM_cons] at folded
      obtain ⟨next, stepped, folded⟩ := Option.bind_eq_some_iff.mp folded
      obtain ⟨first, others⟩ := List.forall_mem_cons.mp each
      exact ih (distinct.step first stepped) others folded

end Assembly

end Assembly

/-- In a document that is read no table has a name twice. -/
theorem Document.parse?_distinct {text : String} {document : Document}
    (parsed : parse? text = some document) : document.root.Distinct := by
  obtain ⟨⟨statements, trailing⟩, read, parsed⟩ := Option.bind_eq_some_iff.mp parsed
  obtain ⟨last, folded, parsed⟩ := Option.bind_eq_some_iff.mp parsed
  obtain ⟨root, closed, made⟩ := Option.bind_eq_some_iff.mp parsed
  cases made
  have start : Assembly.start.Distinct := ⟨Entries.distinct_nil, Entries.distinct_nil⟩
  exact (start.foldlM (Statement.readAll?_distinct read) folded).close closed

end HubKeeper.Toml
