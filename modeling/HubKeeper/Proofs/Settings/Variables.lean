import HubKeeper.Proofs.Settings.EvaluationOrder
import HubKeeper.Proofs.Settings.Sources
import HubKeeper.Proofs.Text.Basic

/-!
What variables supply.

Each variable aims at a whole setting, at one entry of a map, or at nothing.  Of several variables
with one aim the last one counts, and entries are put over the object that the text for the whole
map writes.  Where the names of settings can be told apart from keys, the aim of a variable is
read off its name: the lead and the name of a setting, in upper or lower case, and for an entry
two underscores and the key as it stands.
-/

namespace HubKeeper

namespace Json

theorem ascending_of_parse? {text : String} {fields : List (String × Json)}
    (read : parse? text = some (.obj fields)) : AscendingKeys fields := by
  obtain ⟨raw, _, same⟩ := Option.map_eq_some_iff.mp read
  cases raw with
  | obj written =>
      cases same
      rw [sortFields, ← Dict.entries_ofList]
      exact (Dict.ofList _).ascending
  | _ => cases same

end Json

namespace Environment

variable {schema : Schema} {lead : String} {vars : List (String × String)}
  {name key value text : String} {goal : Target} {holds : String → Prop}

/-! ### The last value -/

/-- The last value that is assigned to a name of a certain kind. -/
def LastValue (holds : String → Prop) (vars : List (String × String)) (text : String) : Prop :=
  ∃ before name after, vars = before ++ (name, text) :: after ∧ holds name ∧
    ∀ later ∈ after, ¬ holds later.1

theorem lastValue_nil : ¬ LastValue holds [] text := by
  rintro ⟨before, name, after, split, _⟩
  cases before <;> cases split

theorem lastValue_concat : LastValue holds (vars ++ [(name, value)]) text ↔
    (holds name ∧ value = text) ∨ (¬ holds name ∧ LastValue holds vars text) := by
  constructor
  · rintro ⟨before, found, after, split, here, last⟩
    rcases List.eq_nil_or_concat after with rfl | ⟨rest, final, rfl⟩
    · obtain ⟨rfl, same⟩ := List.append_inj' split rfl
      cases same
      exact .inl ⟨here, rfl⟩
    · rw [List.concat_eq_append, ← List.cons_append, ← List.append_assoc] at split
      obtain ⟨rfl, same⟩ := List.append_inj' split rfl
      cases same
      refine .inr ⟨last (name, value) (by simp), before, found, rest, rfl, here,
        fun later member => ?_⟩
      exact last later (by simp [member])
  · rintro (⟨here, rfl⟩ | ⟨notHere, before, found, after, rfl, there, last⟩)
    · exact ⟨vars, name, [], rfl, here, List.forall_mem_nil _⟩
    · refine ⟨before, found, after ++ [(name, value)], by simp, there, fun later member => ?_⟩
      rcases List.mem_append.mp member with early | final
      · exact last later early
      · cases List.mem_singleton.mp final
        exact notHere

theorem exists_lastValue_iff :
    (∃ text, LastValue holds vars text) ↔ ∃ assignment ∈ vars, holds assignment.1 := by
  induction vars using List.reverseRecOn with
  | nil => simp [lastValue_nil]
  | append_singleton earlier assignment ih =>
      obtain ⟨name, value⟩ := assignment
      simp only [lastValue_concat, exists_or, exists_and_left, ih]
      by_cases here : holds name <;> simp [here]

/-! ### What is supplied, by aim -/

namespace Supplied

def find? (supplied : Supplied) : Target → Option String
  | .setting name => supplied.texts.get? name
  | .entry name key => (supplied.entries.get? name).bind (·.get? key)
  | .nothing => none

theorem find?_add (supplied : Supplied) (real : goal ≠ .nothing) :
    (supplied.add schema lead.toList (name, value)).find? goal =
      if target schema lead.toList name.toList = goal then some value else supplied.find? goal := by
  cases aim : target schema lead.toList name.toList with
  | nothing => simp [add, aim, real.symm]
  | setting own =>
      cases goal with
      | setting other => simp [add, aim, find?, Dict.get?_insert, eq_comm]
      | entry other key => simp [add, aim, find?]
      | nothing => exact absurd rfl real
  | entry own ownKey =>
      cases goal with
      | setting other => simp [add, aim, find?]
      | entry other key =>
          by_cases same : other = own
          · subst same
            cases held : supplied.entries.get? other <;>
              simp [add, aim, find?, Dict.get?_insert, held, eq_comm]
          · simp [add, aim, find?, Dict.get?_insert, same, Ne.symm same]
      | nothing => exact absurd rfl real

end Supplied

def supplied (schema : Schema) (lead : String) (vars : List (String × String)) : Supplied :=
  vars.foldl (Supplied.add schema lead.toList) ⟨.empty, .empty⟩

theorem supplied_concat (assignment : String × String) :
    supplied schema lead (vars ++ [assignment]) =
      (supplied schema lead vars).add schema lead.toList assignment := by
  rw [supplied, List.foldl_concat, ← supplied]

/-- The variable aims at the goal. -/
def AimsAt (schema : Schema) (lead : String) (goal : Target) (variableName : String) : Prop :=
  target schema lead.toList variableName.toList = goal

theorem find?_supplied (real : goal ≠ .nothing) :
    (supplied schema lead vars).find? goal = some text ↔
      LastValue (AimsAt schema lead goal) vars text := by
  induction vars using List.reverseRecOn with
  | nil =>
      refine iff_of_false ?_ lastValue_nil
      cases goal <;> simp [supplied, Supplied.find?]
  | append_singleton earlier assignment ih =>
      obtain ⟨name, value⟩ := assignment
      rw [supplied_concat, Supplied.find?_add _ real, lastValue_concat, ← ih, AimsAt]
      split
      · rename_i here
        simp [here]
      · rename_i elsewhere
        simp [elsewhere]

theorem get?_texts_iff : (supplied schema lead vars).texts.get? name = some text ↔
    LastValue (AimsAt schema lead (.setting name)) vars text := by
  rw [← find?_supplied Target.noConfusion]
  rfl

theorem get?_entries_iff {inner : Dict String}
    (found : (supplied schema lead vars).entries.get? name = some inner) :
    inner.get? key = some text ↔ LastValue (AimsAt schema lead (.entry name key)) vars text := by
  rw [← find?_supplied Target.noConfusion, Supplied.find?, found]
  rfl

theorem isSome_entries_iff :
    ((supplied schema lead vars).entries.get? name).isSome = true ↔
      ∃ assignment ∈ vars, ∃ key, AimsAt schema lead (.entry name key) assignment.1 := by
  induction vars using List.reverseRecOn with
  | nil => simp [supplied]
  | append_singleton earlier assignment ih =>
      simp only [supplied_concat, List.mem_append, List.mem_singleton, or_and_right, exists_or,
        exists_eq_left, ← ih]
      cases aim : target schema lead.toList assignment.1.toList with
      | nothing => simp [Supplied.add, AimsAt, aim]
      | setting own => simp [Supplied.add, AimsAt, aim]
      | entry own key =>
          by_cases same : own = name
          · simp [Supplied.add, AimsAt, aim, same]
          · simp [Supplied.add, AimsAt, aim, same, Dict.get?_insert_of_ne (Ne.symm same)]

/-! ### The raw values -/

theorem ascending_objectFields (text : String) : AscendingKeys (objectFields text) := by
  unfold objectFields
  split
  · rename_i fields read
    exact Json.ascending_of_parse? read
  · exact List.Pairwise.nil

/-- Entries over the object of a text. -/
theorem exists_withEntries (text : Option String) (inner : Dict String) :
    ∃ fields : Dict Json, withEntries text inner = .ofDict fields ∧
      ∀ key, fields.get? key = ((inner.get? key).map .str).or
        (text.bind fun text => lookupEntry key (objectFields text)) := by
  have put (start : Dict Json) : inner.entries.foldl
      (fun fields entry => insertEntry entry.1 (.str entry.2) fields) start.entries =
        ((inner.map fun _ s => Json.str s).entries.foldl
          (fun dict entry => dict.insert entry.1 entry.2) start).entries := by
    rw [Dict.entries_foldl_insert, Dict.entries_map, List.foldl_map]
  cases text with
  | none =>
      refine ⟨_, congrArg Json.obj (put .empty), fun key => ?_⟩
      rw [Dict.get?_foldl_entries, Dict.get?_map]
      rfl
  | some text =>
      refine ⟨_, congrArg Json.obj (put ⟨objectFields text, ascending_objectFields text⟩),
        fun key => ?_⟩
      rw [Dict.get?_foldl_entries, Dict.get?_map]
      rfl

theorem get?_values :
    (values schema lead vars).get? name =
      (((supplied schema lead vars).entries.get? name).map
        (withEntries ((supplied schema lead vars).texts.get? name))).or
        (((supplied schema lead vars).texts.get? name).map .str) := by
  generalize known : supplied schema lead vars = all
  have put : values schema lead vars =
      (all.entries.map fun name inner => withEntries (all.texts.get? name) inner).entries.foldl
        (fun values entry => values.insert entry.1 entry.2)
        (all.texts.map fun _ text => .str text) := by
    rw [Dict.entries_map, List.foldl_map, ← known]
    rfl
  rw [put, Dict.get?_foldl_entries, Dict.get?_map, Dict.get?_map]

/-! ### Names of variables -/

/-- A name in lower case from which a key can be told apart: of the name and two underscores
behind it, only those at the end are two underscores. -/
structure SpellableName (name : String) : Prop where
  lowered : Text.lower name = name
  undivided : ¬ ['_', '_'] <:+: name.toList
  closed : name.toList.getLast? ≠ some '_'

/-- The variable is named after a setting. -/
def Spells (lead name variableName : String) : Prop :=
  Text.lower variableName = Text.lower (lead ++ name)

/-- The variable is named after a map and a key. -/
def SpellsEntry (lead name key variableName : String) : Prop :=
  key ≠ "" ∧ ∃ head, variableName = head ++ key ∧
    Text.lower head = Text.lower (lead ++ name ++ "__")

theorem SpellableName.map_toLower (spellable : SpellableName name) :
    name.toList.map Char.toLower = name.toList := by
  rw [← Text.toList_lower, spellable.lowered]

theorem SpellableName.splitOnce (spellable : SpellableName name) (after : List Char) :
    Text.splitOnce ['_', '_'] (name.toList ++ ['_', '_'] ++ after) = some (name.toList, after) := by
  refine Text.splitOnce_append (List.cons_ne_nil _ _) ?_ after
  change ¬ ['_', '_'] <:+: name.toList ++ ['_']
  rw [List.infix_concat_iff, List.suffix_concat_iff]
  rintro ((none | ⟨front, same, ends⟩) | inside)
  · cases none
  · have last : ['_'] = front := (congrArg List.dropLast same).trans List.dropLast_concat
    obtain ⟨start, whole⟩ := ends
    exact spellable.closed (by simp [← whole, ← last])
  · exact spellable.undivided inside

/-- Lower case leaves every character where it is, so the text behind the first two underscores
can be cut out of the name as it was given. -/
theorem exists_head {leading variableName rest own tail : List Char}
    (behind : variableName.map Char.toLower = leading.map Char.toLower ++ rest)
    (cut : Text.splitOnce ['_', '_'] rest = some (own, tail)) :
    ∃ head, variableName = head ++ variableName.drop (leading.length + own.length + 2) ∧
      head.map Char.toLower = leading.map Char.toLower ++ own ++ ['_', '_'] := by
  rw [Text.eq_append_of_splitOnce cut, ← List.append_assoc, ← List.append_assoc,
    List.map_eq_append_iff] at behind
  obtain ⟨head, key, rfl, lowered, _⟩ := behind
  have length : head.length = leading.length + own.length + 2 := by
    simpa [Nat.add_assoc] using congrArg List.length lowered
  exact ⟨head, by rw [List.drop_left' length], lowered⟩

theorem aimsAt_setting_iff (spellable : ∀ name ∈ schema.names, SpellableName name) :
    AimsAt schema lead (.setting name) variableName ↔
      name ∈ schema.names ∧ Spells lead name variableName := by
  rw [AimsAt, target_eq_setting_iff, Schema.contains_iff]
  refine and_congr_right fun declared => ?_
  have whole := Text.splitOnce_eq_none (spellable name declared).undivided
  rw [and_iff_left whole, Spells, ← String.toList_inj, Text.toList_lower, Text.toList_lower,
    String.toList_append, List.map_append, (spellable name declared).map_toLower]

theorem aimsAt_entry_iff (spellable : ∀ name ∈ schema.names, SpellableName name) :
    AimsAt schema lead (.entry name key) variableName ↔
      schema.IsMap name ∧ SpellsEntry lead name key variableName := by
  rw [AimsAt, target_eq_entry_iff]
  refine and_congr_right fun isMap => and_congr_right fun _ => ?_
  have own := spellable name (Schema.contains_iff.mp isMap.contains)
  have spelled (head : String) : Text.lower head = Text.lower (lead ++ name ++ "__") ↔
      head.toList.map Char.toLower =
        lead.toList.map Char.toLower ++ name.toList ++ ['_', '_'] := by
    rw [← String.toList_inj, Text.toList_lower, Text.toList_lower, String.toList_append,
      String.toList_append, List.map_append, List.map_append, own.map_toLower]
    rfl
  constructor
  · rintro ⟨slice, rest, tail, behind, cut⟩
    obtain ⟨head, whole, lowered⟩ := exists_head behind cut
    refine ⟨.ofList head, ?_, (spelled _).mpr (by rw [String.toList_ofList, lowered])⟩
    rw [← String.toList_inj, String.toList_append, slice, String.toList_ofList]
    exact whole
  · rintro ⟨head, rfl, lowered⟩
    rw [spelled] at lowered
    have length := congrArg List.length lowered
    refine ⟨?_, name.toList ++ ['_', '_'] ++ key.toList.map Char.toLower,
      key.toList.map Char.toLower, ?_, own.splitOnce _⟩
    · rw [String.toList_append, List.drop_left' (by simpa [Nat.add_assoc] using length)]
    · rw [String.toList_append, List.map_append, lowered]
      simp

/-- A text may be cut at a byte, and behind it stands the rest. -/
def CutsAt (text : String) (offset : Nat) (rest : String) : Prop :=
  String.Pos.Raw.IsValid text ⟨offset⟩ ∧ ∃ head, text = head ++ rest ∧ head.utf8ByteSize = offset

/-- The offset of the key is counted in the lowered name, but it may be cut at in the given one. -/
theorem cutsAt_key {own tail : List Char}
    (cut : (Text.dropLead (lead.toList.map Char.toLower)
      (variableName.toList.map Char.toLower)).bind (Text.splitOnce ['_', '_']) = some (own, tail)) :
    CutsAt variableName (lead.utf8ByteSize + Text.byteLength own + 2)
      (.ofList (variableName.toList.drop (lead.toList.length + own.length + 2))) := by
  obtain ⟨rest, behind, cut⟩ := Option.bind_eq_some_iff.mp cut
  obtain ⟨head, whole, lowered⟩ := exists_head (Text.dropLead_eq_some_iff.mp behind) cut
  have split : variableName = .ofList head ++
      .ofList (variableName.toList.drop (lead.toList.length + own.length + 2)) := by
    rw [← String.toList_inj, String.toList_append, String.toList_ofList, String.toList_ofList]
    exact whole
  have size : (String.ofList head).utf8ByteSize =
      lead.utf8ByteSize + Text.byteLength own + 2 := by
    have bytes := congrArg Text.byteLength lowered
    rw [Text.byteLength_map_toLower, Text.byteLength_append, Text.byteLength_append,
      Text.byteLength_map_toLower] at bytes
    rw [Text.utf8ByteSize_ofList, bytes, ← Text.utf8ByteSize_ofList lead.toList,
      String.ofList_toList]
    rfl
  exact ⟨String.Pos.Raw.isValid_iff_exists_append.mpr ⟨_, _, split, by rw [← size]; rfl⟩,
    _, split, size⟩

/-! ### The layer of the environment -/

/-- Entries are supplied for a map. -/
def HasEntries (schema : Schema) (lead : String) (vars : List (String × String))
    (name : String) : Prop :=
  schema.IsMap name ∧ ∃ assignment ∈ vars, ∃ key, SpellsEntry lead name key assignment.1

/-- The last value of each key, over the object that the text for the whole map writes. -/
structure Merged (lead name : String) (vars : List (String × String)) (fields : Dict Json) :
    Prop where
  assigned : ∀ key text, LastValue (SpellsEntry lead name key) vars text →
    fields.get? key = some (.str text)
  kept : ∀ key text parsed, (∀ assignment ∈ vars, ¬ SpellsEntry lead name key assignment.1) →
    LastValue (Spells lead name) vars text → Json.parse? text = some (.obj parsed) →
    fields.get? key = lookupEntry key parsed
  alone : ∀ key, (∀ assignment ∈ vars, ¬ SpellsEntry lead name key assignment.1) →
    (∀ assignment ∈ vars, ¬ Spells lead name assignment.1) → fields.get? key = none

section Spellable

variable (spellable : ∀ name ∈ schema.names, SpellableName name)
include spellable

theorem get?_texts (declared : name ∈ schema.names) :
    (supplied schema lead vars).texts.get? name = some text ↔
      LastValue (Spells lead name) vars text := by
  have same : AimsAt schema lead (.setting name) = Spells lead name := by
    funext variableName
    exact propext ((aimsAt_setting_iff spellable).trans (and_iff_right declared))
  rw [get?_texts_iff, same]

theorem isSome_texts_iff : ((supplied schema lead vars).texts.get? name).isSome = true ↔
    name ∈ schema.names ∧ ∃ assignment ∈ vars, Spells lead name assignment.1 := by
  simp only [Option.isSome_iff_exists, get?_texts_iff, exists_lastValue_iff,
    aimsAt_setting_iff spellable]
  constructor
  · rintro ⟨assignment, member, declared, spelled⟩
    exact ⟨declared, assignment, member, spelled⟩
  · rintro ⟨declared, assignment, member, spelled⟩
    exact ⟨assignment, member, declared, spelled⟩

theorem isSome_entries_iff_hasEntries :
    ((supplied schema lead vars).entries.get? name).isSome = true ↔
      HasEntries schema lead vars name := by
  simp only [isSome_entries_iff, aimsAt_entry_iff spellable, HasEntries]
  constructor
  · rintro ⟨assignment, member, key, isMap, spelled⟩
    exact ⟨isMap, assignment, member, key, spelled⟩
  · rintro ⟨isMap, assignment, member, key, spelled⟩
    exact ⟨assignment, member, key, isMap, spelled⟩

theorem exists_merged (entries : HasEntries schema lead vars name) :
    ∃ fields : Dict Json, (values schema lead vars).get? name = some (.ofDict fields) ∧
      Merged lead name vars fields := by
  have declared := Schema.contains_iff.mp entries.1.contains
  obtain ⟨inner, found⟩ := Option.isSome_iff_exists.mp
    ((isSome_entries_iff_hasEntries spellable).mpr entries)
  obtain ⟨fields, whole, looked⟩ :=
    exists_withEntries ((supplied schema lead vars).texts.get? name) inner
  have key_iff (key text : String) :
      inner.get? key = some text ↔ LastValue (SpellsEntry lead name key) vars text := by
    have same : AimsAt schema lead (.entry name key) = SpellsEntry lead name key := by
      funext variableName
      exact propext ((aimsAt_entry_iff spellable).trans (and_iff_right entries.1))
    rw [get?_entries_iff found, same]
  have unassigned (key : String)
      (absent : ∀ assignment ∈ vars, ¬ SpellsEntry lead name key assignment.1) :
      inner.get? key = none := by
    refine Option.eq_none_iff_forall_ne_some.mpr fun text held => ?_
    obtain ⟨assignment, member, spelled⟩ :=
      exists_lastValue_iff.mp ⟨text, (key_iff key text).mp held⟩
    exact absent assignment member spelled
  refine ⟨fields, by rw [get?_values, found, Option.map_some, whole, Option.some_or], ?_, ?_, ?_⟩
  · intro key text last
    rw [looked, (key_iff key text).mpr last]
    rfl
  · intro key text parsed absent last read
    rw [looked, unassigned key absent, (get?_texts spellable declared).mpr last]
    simp [objectFields, read]
  · intro key absent plain
    have nothing : (supplied schema lead vars).texts.get? name = none := by
      rw [← Option.not_isSome_iff_eq_none, isSome_texts_iff spellable]
      rintro ⟨_, assignment, member, spelled⟩
      exact plain assignment member spelled
    rw [looked, unassigned key absent, nothing]
    rfl

end Spellable

/-- The environment supplies a setting if a variable is named after it, or, for a map, after it
and a key.  A text is taken as it is unless there are entries to put over it, and the key of an
entry is cut out of the name as it was given. -/
theorem layer_supplies (schema : Schema) (lead : String) (vars : List (String × String))
    (spellable : ∀ name ∈ schema.names, SpellableName name) :
    (∀ name, ((layer schema lead vars).values.get? name).isSome = true ↔
      (name ∈ schema.names ∧ ∃ assignment ∈ vars, Spells lead name assignment.1) ∨
        HasEntries schema lead vars name) ∧
    (∀ name ∈ schema.names, ¬ HasEntries schema lead vars name → ∀ text,
      LastValue (Spells lead name) vars text →
        (layer schema lead vars).values.get? name = some (.str text)) ∧
    (∀ name, HasEntries schema lead vars name → ∃ fields : Dict Json,
      (layer schema lead vars).values.get? name = some (.ofDict fields) ∧
        Merged lead name vars fields) ∧
    ∀ variableName own tail, (Text.dropLead (lead.toList.map Char.toLower)
      (variableName.toList.map Char.toLower)).bind (Text.splitOnce ['_', '_']) = some (own, tail) →
        CutsAt variableName (lead.utf8ByteSize + Text.byteLength own + 2)
          (.ofList (variableName.toList.drop (lead.toList.length + own.length + 2))) := by
  refine ⟨fun name => ?_, fun name declared without text last => ?_,
    fun name entries => exists_merged spellable entries, fun _ _ _ cut => cutsAt_key cut⟩
  · change ((values schema lead vars).get? name).isSome = true ↔ _
    rw [get?_values, Option.isSome_or, Bool.or_eq_true, Option.isSome_map, Option.isSome_map,
      isSome_entries_iff_hasEntries spellable, isSome_texts_iff spellable, or_comm]
  · change (values schema lead vars).get? name = _
    rw [← isSome_entries_iff_hasEntries spellable, Option.not_isSome_iff_eq_none] at without
    rw [get?_values, without, (get?_texts spellable declared).mpr last]
    rfl

/-- A map and a text. -/
def stackSchema : Schema where
  settings := [.declare "stack_env" .textMap, .declare "domain" .text]
  order := [.declare "stack_env" .textMap, .declare "domain" .text]

/-- An object for the map, three entries for two of its keys, and a key for what is no map. -/
def stackVariables : List (String × String) :=
  [("HUB_DOMAIN__X", "ignored"), ("hub_Stack_Env__B", "2"), ("HUB_STACK_ENV__Größe", "y"),
    ("HUB_STACK_ENV", "\x7b\"A\": \"1\", \"B\": null\x7d"), ("HUB_STACK_ENV__B", "z")]

theorem stackSchema_spellable : ∀ name ∈ stackSchema.names, SpellableName name := by
  rintro name (_ | ⟨_, _ | ⟨_, ⟨⟩⟩⟩)
  all_goals exact ⟨by decide +kernel, by decide +kernel, by decide +kernel⟩

theorem stackVariables_supplied : (∀ name ∈ stackSchema.names, SpellableName name) ∧
    (layer stackSchema "HUB_" stackVariables).values.get? "domain" = none ∧
    ∃ fields : Dict Json, (layer stackSchema "HUB_" stackVariables).values.get? "stack_env" =
      some (.ofDict fields) ∧ fields.get? "B" = some (.str "z") := by
  obtain ⟨named, _, merged, _⟩ :=
    layer_supplies stackSchema "HUB_" stackVariables stackSchema_spellable
  have aimed : AimsAt stackSchema "HUB_" (.entry "stack_env" "B") "HUB_STACK_ENV__B" := by
    unfold AimsAt
    cbv
  obtain ⟨isMap, spelled⟩ := (aimsAt_entry_iff stackSchema_spellable).mp aimed
  have entries : HasEntries stackSchema "HUB_" stackVariables "stack_env" :=
    ⟨isMap, _, List.mem_of_getLast? rfl, "B", spelled⟩
  obtain ⟨fields, supplies, assigned, _⟩ := merged "stack_env" entries
  refine ⟨stackSchema_spellable, ?_, fields, supplies,
    assigned "B" "z" ⟨stackVariables.dropLast, _, [], rfl, spelled, List.forall_mem_nil _⟩⟩
  rw [← Option.not_isSome_iff_eq_none, named]
  rintro (⟨_, assignment, member, spelled⟩ | ⟨⟨setting, known, isMap⟩, _⟩)
  · have unspelled : ∀ assignment ∈ stackVariables,
        Text.lower assignment.1 ≠ Text.lower ("HUB_" ++ "domain") := by decide +kernel
    exact unspelled assignment member spelled
  · cases known
    cases isMap

end Environment

end HubKeeper
