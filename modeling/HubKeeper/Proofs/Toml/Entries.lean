import HubKeeper.Toml.Edit

/-!
Entries of a table by name.  Each change of entries is described by what it does to
`find?`.
-/

namespace HubKeeper.Toml.Entries

variable {entries : Entries} {name other : String} {key : Key} {node : Node}

theorem find?_nil : find? [] other = none := rfl

theorem find?_cons :
    find? ((key, node) :: entries) other =
      if key.name = other then some node else find? entries other := by
  simp only [find?, List.find?_cons]
  by_cases here : key.name = other
  · rw [if_pos here, beq_iff_eq.mpr here]
    rfl
  · rw [if_neg here, beq_eq_false_iff_ne.mpr here]

theorem find?_eq_none_iff : entries.find? name = none ↔ name ∉ entries.names := by
  simp [find?, names]

theorem mem_names : name ∈ entries.names ↔ (entries.find? name).isSome = true := by
  rw [← Option.ne_none_iff_isSome, ne_eq, find?_eq_none_iff, Decidable.not_not]

theorem find?_append (more : Entries) :
    find? (entries ++ more) other = (entries.find? other).or (more.find? other) := by
  rw [find?, List.find?_append, Option.map_or]
  rfl

theorem find?_append_single :
    find? (entries ++ [(key, node)]) other =
      (entries.find? other).or (if key.name = other then some node else none) := by
  rw [find?_append, find?_cons, find?_nil]

theorem find?_erase :
    (entries.erase name).find? other = if other = name then none else entries.find? other := by
  induction entries with
  | nil => simp [erase, find?_nil]
  | cons entry rest ih =>
      obtain ⟨key, node⟩ := entry
      simp only [erase, List.filter_cons, bne_iff_ne, ne_eq] at ih ⊢
      split
      · rename_i kept
        rw [find?_cons, find?_cons, ih]
        grind
      · rename_i dropped
        rw [find?_cons, ih]
        grind

theorem find?_modify {rename : Key → Key} {change : Node → Node}
    (kept : ∀ key, (rename key).name = key.name) :
    (entries.modify name fun entry => (rename entry.1, change entry.2)).find? other =
      if other = name then (entries.find? name).map change else entries.find? other := by
  induction entries with
  | nil => simp [modify, find?_nil]
  | cons entry rest ih =>
      obtain ⟨key, node⟩ := entry
      simp only [modify, List.map_cons] at ih ⊢
      by_cases changed : key.name = name
      · rw [if_pos changed, find?_cons, find?_cons, find?_cons, ih, kept]
        grind
      · rw [if_neg changed, find?_cons, find?_cons, find?_cons, ih]
        grind

theorem find?_modify_node {change : Node → Node} :
    (entries.modify name fun entry => (entry.1, change entry.2)).find? other =
      if other = name then (entries.find? name).map change else entries.find? other :=
  @find?_modify entries name other id change fun _ => rfl

end HubKeeper.Toml.Entries
