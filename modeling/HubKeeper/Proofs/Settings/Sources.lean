import HubKeeper.Proofs.Collections.Lookup
import HubKeeper.Proofs.Text.Basic
import HubKeeper.Settings.FileSources

/-!
What sources name.

Variables and secrets supply settings of the schema only.  Everything else that stands in
the environment, in a dotenv file or in a directory of secrets is passed over.
-/

namespace HubKeeper

namespace Schema

variable {schema : Schema} {dict : Dict α} {name : String}

/-- A setting of the schema that is a map. -/
def IsMap (schema : Schema) (name : String) : Prop :=
  ∃ setting, schema.get? name = some setting ∧ setting.kind = .textMap

theorem IsMap.contains (isMap : schema.IsMap name) : schema.contains name = true := by
  obtain ⟨setting, known, _⟩ := isMap
  rw [Schema.contains, known, Option.isSome_some]

/-- All keys of a dictionary are names of settings. -/
def Declares (schema : Schema) (dict : Dict α) : Prop :=
  ∀ name ∈ dict.keys, schema.contains name = true

theorem declares_iff : schema.Declares dict ↔
    ∀ name, (dict.get? name).isSome = true → schema.contains name = true := by
  simp only [Declares, Dict.mem_keys, Option.isSome_iff_exists]

theorem declares_empty : schema.Declares (Dict.empty : Dict α) :=
  fun _ listed => absurd listed List.not_mem_nil

theorem Declares.insert (declares : schema.Declares dict) (declared : schema.contains name = true)
    (value : α) : schema.Declares (dict.insert name value) := by
  rw [declares_iff] at declares ⊢
  intro other present
  rw [Dict.get?_insert] at present
  split at present
  · rename_i same
    exact same ▸ declared
  · exact declares other present

theorem Declares.foldl_insert {items : List β} (key : β → String) (value : β → α)
    (declares : schema.Declares dict)
    (declared : ∀ item ∈ items, schema.contains (key item) = true) :
    schema.Declares (items.foldl (fun dict item => dict.insert (key item) (value item)) dict) := by
  induction items generalizing dict with
  | nil => exact declares
  | cons item rest ih =>
      exact ih (declares.insert (declared item List.mem_cons_self) _)
        fun other member => declared other (List.mem_cons_of_mem _ member)

theorem Declares.map (declares : schema.Declares dict) (f : String → α → β) :
    schema.Declares (dict.map f) := by
  rw [declares_iff] at declares ⊢
  intro name present
  rw [Dict.get?_map, Option.isSome_map] at present
  exact declares name present

end Schema

variable {schema : Schema}

namespace Environment

variable {lead variableName : List Char} {name key : String} {supplied : Supplied}

/-- Behind the lead stands the name of a setting, in which nothing can be cut. -/
theorem target_eq_setting_iff : target schema lead variableName = .setting name ↔
    schema.contains name = true ∧
      variableName.map Char.toLower = lead.map Char.toLower ++ name.toList ∧
      Text.splitOnce ['_', '_'] name.toList = none := by
  rw [← Text.dropLead_eq_some_iff]
  cases behind : Text.dropLead (lead.map Char.toLower) (variableName.map Char.toLower) with
  | none => simp [target, behind]
  | some rest =>
      cases cut : Text.splitOnce ['_', '_'] rest with
      | none =>
          simp only [target, behind, cut]
          constructor
          · intro supplies
            split at supplies
            · rename_i declared
              cases supplies
              exact ⟨declared, by simp, by simpa using cut⟩
            · cases supplies
          · rintro ⟨declared, same, _⟩
            cases same
            simp [declared]
      | some parts =>
          refine iff_of_false ?_ ?_
          · simp only [target, behind, cut]
            split
            · split <;> exact nofun
            · exact nofun
          · rintro ⟨_, same, uncut⟩
            cases same
            cases cut.symm.trans uncut

/-- Behind the lead stands the name of a map, and behind the first two underscores a key. -/
theorem target_eq_entry_iff : target schema lead variableName = .entry name key ↔
    schema.IsMap name ∧ key ≠ "" ∧
      key.toList = variableName.drop (lead.length + name.toList.length + 2) ∧
      ∃ rest tail, variableName.map Char.toLower = lead.map Char.toLower ++ rest ∧
        Text.splitOnce ['_', '_'] rest = some (name.toList, tail) := by
  simp only [← Text.dropLead_eq_some_iff]
  cases behind : Text.dropLead (lead.map Char.toLower) (variableName.map Char.toLower) with
  | none => simp [target, behind]
  | some rest =>
      -- The cut is made in the lowered name, while the key is taken from the name as it stands.
      cases cut : Text.splitOnce ['_', '_'] rest with
      | none =>
          refine iff_of_false ?_ ?_
          · simp only [target, behind, cut]
            split <;> exact nofun
          · rintro ⟨_, _, _, _, _, same, here⟩
            cases same
            cases cut.symm.trans here
      | some parts =>
          simp only [target, behind, cut]
          constructor
          · intro supplies
            split at supplies
            · rename_i isMap
              split at supplies
              · cases supplies
              · rename_i solid
                cases supplies
                obtain ⟨setting, known, ofMaps⟩ := (Option.any_eq_true _ _).mp isMap
                exact ⟨⟨setting, known, of_decide_eq_true ofMaps⟩, by simpa using solid, by simp,
                  rest, parts.2, rfl, by simpa using cut⟩
            · cases supplies
          · rintro ⟨⟨setting, known, ofMaps⟩, solid, slice, _, tail, same, here⟩
            cases same
            cases cut.symm.trans here
            rw [if_pos (by simp [known, ofMaps]), ← slice, if_neg (by simpa using solid),
              String.ofList_toList, String.ofList_toList]

theorem contains_of_target_setting (supplies : target schema lead variableName = .setting name) :
    schema.contains name = true :=
  (target_eq_setting_iff.mp supplies).1

theorem contains_of_target_entry (supplies : target schema lead variableName = .entry name key) :
    schema.contains name = true :=
  (target_eq_entry_iff.mp supplies).1.contains

/-- What variables supply so far is for settings of the schema. -/
structure Supplied.Declared (schema : Schema) (supplied : Supplied) : Prop where
  texts : schema.Declares supplied.texts
  entries : schema.Declares supplied.entries

theorem Supplied.Declared.add (declared : supplied.Declared schema) (lead : List Char)
    (assignment : String × String) : (supplied.add schema lead assignment).Declared schema := by
  unfold Supplied.add
  split
  · rename_i supplies
    exact ⟨declared.texts.insert (contains_of_target_setting supplies) _, declared.entries⟩
  · rename_i supplies
    exact ⟨declared.texts, declared.entries.insert (contains_of_target_entry supplies) _⟩
  · exact declared

theorem Supplied.Declared.foldl_add (declared : supplied.Declared schema) (lead : List Char)
    (vars : List (String × String)) : (vars.foldl (.add schema lead) supplied).Declared schema := by
  induction vars generalizing supplied with
  | nil => exact declared
  | cons assignment rest ih => exact ih (declared.add lead assignment)

theorem values_declares (schema : Schema) (lead : String) (vars : List (String × String)) :
    schema.Declares (values schema lead vars) := by
  have nothing : Supplied.Declared schema ⟨.empty, .empty⟩ :=
    ⟨Schema.declares_empty, Schema.declares_empty⟩
  have all := nothing.foldl_add lead.toList vars
  exact (all.texts.map _).foldl_insert Prod.fst _ fun entry member =>
    all.entries entry.1 (List.mem_map_of_mem member)

end Environment

namespace FileSources

variable {tree : FileTree} {surrounding : Dict String} {path lead : String} {layer : Layer}

theorem dotenv_declares (read : dotenv tree surrounding path lead schema = .ok layer) :
    schema.Declares layer.values := by
  unfold dotenv at read
  dsimp only at read
  split at read
  · cases read
    exact Schema.declares_empty
  · cases read
  · split at read
    · cases read
    · cases read
      exact Environment.values_declares schema lead _

theorem secretValues_declares {entries : List (String × FileNode)} {values found : Dict Json}
    (declares : schema.Declares values) (read : secretValues schema entries values = .ok found) :
    schema.Declares found := by
  induction entries generalizing values with
  | nil =>
      cases read
      exact declares
  | cons entry rest ih =>
      obtain ⟨fileName, node⟩ := entry
      cases node with
      | directory => exact ih declares read
      | file contents mode =>
          simp only [secretValues] at read
          split at read
          · rename_i declared
            split at read
            · cases read
            · exact ih (declares.insert declared _) read
          · exact ih declares read

theorem secrets_declares (read : secrets tree path schema = .ok layer) :
    schema.Declares layer.values := by
  unfold secrets at read
  dsimp only at read
  split at read
  · cases read
    exact Schema.declares_empty
  · cases read
  · rename_i entries listed
    cases found : secretValues schema entries .empty with
    | error e =>
        rw [found] at read
        cases read
    | ok values =>
        rw [found] at read
        cases read
        exact secretValues_declares Schema.declares_empty found

end FileSources

end HubKeeper
