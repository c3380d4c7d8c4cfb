import HubKeeper.Proofs.Document.Seeding
import HubKeeper.Proofs.Settings.Sources

/-!
A stack of layers as a single layer.

Of a stack, resolution sees which names it holds and, for each declared one, the first value that
is not null.  Where all names are declared, a stack may therefore be replaced by any other one with
the same first values, such as the one layer that holds just these.
-/

namespace HubKeeper

namespace Layer

variable {layers above middle below : List Layer} {layer : Layer} {schema : Schema}
  {name source : String}

/-- The values of a stack in one dictionary; of those with one name the first that is not null. -/
def flatten : List Layer → Dict Json
  | [] => .empty
  | layer :: below =>
      (layer.values.filter fun _ raw => !raw.isNull).entries.foldl
        (fun values entry => values.insert entry.1 entry.2) (flatten below)

theorem get?_flatten : (flatten layers).get? name = winner? layers name := by
  induction layers with
  | nil => rfl
  | cons layer below ih =>
      rw [flatten, Dict.get?_foldl_entries, Dict.get?_filter, ih, winner?, winner?,
        List.findSome?_cons]
      cases (layer.values.get? name).filter fun raw => !raw.isNull <;> rfl

theorem Supplies.isNull {raw : Json} (supplies : Supplies name layers raw) :
    raw.isNull = false := by
  induction supplies with
  | here _ present => exact present
  | lower _ _ ih => exact ih

theorem winner?_singleton :
    winner? [layer] name = (layer.values.get? name).filter fun raw => !raw.isNull :=
  List.findSome?_singleton

theorem winner?_flatten : winner? [⟨source, flatten layers⟩] name = winner? layers name := by
  rw [winner?_singleton, get?_flatten]
  cases won : winner? layers name with
  | none => rfl
  | some raw => simp [(winner?_eq_some_iff.mp won).isNull]

theorem winner?_between :
    winner? (above ++ middle ++ below) name =
      (winner? above name).or ((winner? middle name).or (winner? below name)) := by
  rw [winner?_append, winner?_append, Option.or_assoc]

theorem declares_flatten (declared : ∀ layer ∈ layers, schema.Declares layer.values) :
    schema.Declares (flatten layers) := by
  induction layers with
  | nil => exact Schema.declares_empty
  | cons layer below ih =>
      obtain ⟨own, others⟩ := List.forall_mem_cons.mp declared
      refine (ih others).foldl_insert Prod.fst Prod.snd fun entry member => ?_
      exact own entry.1 (List.mem_map_of_mem (List.mem_filter.mp member).1)

theorem undeclared?_of_declares (declared : ∀ layer ∈ layers, schema.Declares layer.values) :
    undeclared? schema layers = none :=
  undeclared?_eq_none fun layer member name listed =>
    Schema.contains_iff.mp (declared layer member name listed)

/-- Below layers that name settings only, the least name of a layer that is not declared. -/
structure FirstUndeclared (schema : Schema) (above : List Layer) (layer : Layer)
    (name : String) : Prop where
  declared : ∀ upper ∈ above, schema.Declares upper.values
  listed : name ∈ layer.values.keys
  undeclared : schema.contains name = false
  least : ∀ other ∈ layer.values.keys, schema.contains other = false → name ≤ other

theorem find?_keys_iff {values : Dict Json} :
    (values.keys.find? fun name => !schema.contains name) = some name ↔
      name ∈ values.keys ∧ schema.contains name = false ∧
        ∀ other ∈ values.keys, schema.contains other = false → name ≤ other := by
  have first : (values.entries.find? fun entry => !schema.contains entry.1).map (·.1) =
      some name ↔ _ := Dict.find?_key_iff fun name => !schema.contains name
  rw [Dict.keys, List.find?_map, ← Dict.keys]
  simpa using first

theorem exists_of_undeclared? (refused : undeclared? schema layers = some (source, name)) :
    ∃ above layer below, layers = above ++ layer :: below ∧ layer.name = source ∧
      FirstUndeclared schema above layer name := by
  obtain ⟨above, layer, below, stack, found, earlier⟩ := List.findSome?_eq_some_iff.mp refused
  obtain ⟨_, found, same⟩ := Option.map_eq_some_iff.mp found
  cases same
  obtain ⟨listed, undeclared, least⟩ := find?_keys_iff.mp found
  refine ⟨above, layer, below, stack, rfl, fun upper member key inside => ?_, listed, undeclared,
    least⟩
  have absent := Option.map_eq_none_iff.mp (earlier upper member)
  simpa using List.find?_eq_none.mp absent key inside

theorem exists_undeclared? (some : ∃ layer ∈ layers, ¬ schema.Declares layer.values) :
    (undeclared? schema layers).isSome = true := by
  by_contra none
  rw [Option.not_isSome_iff_eq_none, undeclared?, List.findSome?_eq_none_iff] at none
  obtain ⟨layer, member, undeclared⟩ := some
  refine undeclared fun name listed => ?_
  simpa using List.find?_eq_none.mp (Option.map_eq_none_iff.mp (none layer member)) name listed

end Layer

namespace Schema

variable {schema : Schema} {probe : HostProbe} {layers others : List Layer}

/-- Two stacks with the same first values resolve to the same, if the same name is refused. -/
theorem resolve_congr
    (refused : Layer.undeclared? schema layers = Layer.undeclared? schema others)
    (winners : ∀ name, Layer.winner? layers name = Layer.winner? others name) :
    schema.resolve probe layers = schema.resolve probe others := by
  have evaluated : evaluateAll layers probe schema.order .empty =
      evaluateAll others probe schema.order .empty :=
    evaluateAll_congr (fun setting _ values => by rw [winners]) .empty
  rw [resolve, resolve, refused, evaluated]

theorem resolve_congr_of_declares (declared : ∀ layer ∈ layers, schema.Declares layer.values)
    (othersDeclared : ∀ layer ∈ others, schema.Declares layer.values)
    (winners : ∀ name, Layer.winner? layers name = Layer.winner? others name) :
    schema.resolve probe layers = schema.resolve probe others :=
  resolve_congr ((Layer.undeclared?_of_declares declared).trans
    (Layer.undeclared?_of_declares othersDeclared).symm) winners

section Between

variable {above middle below : List Layer} {layer : Layer} {name source : String}

theorem resolve_flattened (declared : ∀ layer ∈ above ++ middle ++ below,
    schema.Declares layer.values) :
    schema.resolve probe (above ++ middle ++ below) =
      schema.resolve probe (above ++ [⟨source, Layer.flatten middle⟩] ++ below) := by
  refine resolve_congr_of_declares declared ?_ fun name => ?_
  · simp only [List.forall_mem_append, List.forall_mem_singleton] at declared ⊢
    exact ⟨⟨declared.1.1, Layer.declares_flatten declared.1.2⟩, declared.2⟩
  · rw [Layer.winner?_between, Layer.winner?_between, Layer.winner?_flatten]

theorem resolve_erased (declared : ∀ other ∈ above ++ [layer] ++ below,
      schema.Declares other.values)
    (idle : ∀ raw, layer.values.get? name = some raw → raw.isNull = true ∨
      ∃ upper, Layer.Supplies name above upper) :
    schema.resolve probe (above ++ [layer] ++ below) =
      schema.resolve probe (above ++ [⟨layer.name, layer.values.erase name⟩] ++ below) := by
  refine resolve_congr_of_declares declared ?_ fun other => ?_
  · simp only [List.forall_mem_append, List.forall_mem_singleton, declares_iff,
      Dict.get?_erase] at declared ⊢
    refine ⟨⟨declared.1.1, fun other present => declared.1.2 other ?_⟩, declared.2⟩
    split at present
    · cases present
    · exact present
  · rw [Layer.winner?_between, Layer.winner?_between, Layer.winner?_singleton,
      Layer.winner?_singleton, Dict.get?_erase]
    split
    · rename_i same
      subst same
      cases found : layer.values.get? other with
      | none => rfl
      | some raw =>
          rcases idle raw found with isNull | ⟨upper, supplies⟩
          · simp [Option.filter, isNull]
          · rw [Layer.winner?_eq_some_iff.mpr supplies, Option.some_or, Option.some_or]
    · rfl

theorem resolve_emptied :
    schema.resolve probe (above ++ [⟨source, .empty⟩] ++ below) =
      schema.resolve probe (above ++ below) := by
  refine resolve_congr ?_ fun name => ?_
  · simp only [Layer.undeclared?, List.findSome?_append, Option.or_assoc]
    rfl
  · rw [Layer.winner?_between, Layer.winner?_append]
    rfl

end Between

theorem resolve_refused (undeclared : ∃ layer ∈ layers, ¬ schema.Declares layer.values) :
    ∃ above layer below name, layers = above ++ layer :: below ∧
      Layer.FirstUndeclared schema above layer name ∧
      schema.resolve probe layers =
        .error (.unknownSetting name ("supplied by " ++ layer.name ++
          " but not a known setting")) := by
  obtain ⟨⟨source, name⟩, refused⟩ := Option.isSome_iff_exists.mp
    (Layer.exists_undeclared? undeclared)
  obtain ⟨above, layer, below, stack, rfl, first⟩ := Layer.exists_of_undeclared? refused
  exact ⟨above, layer, below, name, stack, first, by rw [resolve, refused]⟩

/-- A stack that names settings only is worth the one layer of its first values, and so is any
part of it; an entry that is null or shadowed and a layer without entries make no difference.
Of any other stack, the least undeclared name of the first layer that has one is refused. -/
theorem resolve_flatten (schema : Schema) (probe : HostProbe) :
    (∀ layers name raw, (Layer.flatten layers).get? name = some raw ↔
      Layer.Supplies name layers raw) ∧
    (∀ layers source, (∀ layer ∈ layers, schema.Declares layer.values) →
      schema.resolve probe layers = schema.resolve probe [⟨source, Layer.flatten layers⟩]) ∧
    (∀ above middle below source, (∀ layer ∈ above ++ middle ++ below,
        schema.Declares layer.values) →
      schema.resolve probe (above ++ middle ++ below) =
        schema.resolve probe (above ++ [⟨source, Layer.flatten middle⟩] ++ below)) ∧
    (∀ above layer below name, (∀ other ∈ above ++ [layer] ++ below,
        schema.Declares other.values) →
      (∀ raw, layer.values.get? name = some raw → raw.isNull = true ∨
        ∃ upper, Layer.Supplies name above upper) →
      schema.resolve probe (above ++ [layer] ++ below) =
        schema.resolve probe (above ++ [⟨layer.name, layer.values.erase name⟩] ++ below)) ∧
    (∀ above below source, schema.resolve probe (above ++ [⟨source, .empty⟩] ++ below) =
      schema.resolve probe (above ++ below)) ∧
    ∀ layers, (∃ layer ∈ layers, ¬ schema.Declares layer.values) →
      ∃ above layer below name, layers = above ++ layer :: below ∧
        Layer.FirstUndeclared schema above layer name ∧
        schema.resolve probe layers =
          .error (.unknownSetting name ("supplied by " ++ layer.name ++
            " but not a known setting")) := by
  refine ⟨fun layers name raw => ?_, fun layers source declared => ?_,
    fun above middle below source => resolve_flattened,
    fun above layer below name => resolve_erased,
    fun above below source => resolve_emptied, fun layers => resolve_refused⟩
  · rw [Layer.get?_flatten, Layer.winner?_eq_some_iff]
  · have whole : ∀ layer ∈ [] ++ layers ++ [], schema.Declares layer.values := by
      simpa using declared
    have same : schema.resolve probe ([] ++ layers ++ []) =
        schema.resolve probe ([] ++ [⟨source, Layer.flatten layers⟩] ++ []) :=
      resolve_flattened whole
    simpa using same

def domainSchema : Schema :=
  ⟨domainSettings, domainSettings.drop 2 ++ domainSettings.take 2⟩

/-- Two names that are not declared, one of them with a null. -/
def strayLayer : Layer :=
  ⟨"document", ⟨[("stray", .null), ("tray", .str "x")], by decide⟩⟩

theorem domainLayers_flatten :
    (∀ layer ∈ domainLayers, domainSchema.Declares layer.values) ∧
    Layer.flatten domainLayers = ⟨[("domain", .str "example.com")], by decide⟩ ∧
    (domainSchema.resolve (.fixed none none) [⟨"merged", Layer.flatten domainLayers⟩]).result =
      .ok domainSnapshot ∧
    (∃ layer ∈ domainLayers ++ [strayLayer], ¬ domainSchema.Declares layer.values) ∧
    ∃ above layer below name, domainLayers ++ [strayLayer] = above ++ layer :: below ∧
      Layer.FirstUndeclared domainSchema above layer name ∧
      domainSchema.resolve (.fixed none none) (domainLayers ++ [strayLayer]) =
        .error (.unknownSetting name ("supplied by " ++ layer.name ++
          " but not a known setting")) := by
  have declared : ∀ layer ∈ domainLayers, domainSchema.Declares layer.values := by
    unfold Declares
    decide
  have flattened := (resolve_flatten domainSchema (.fixed none none)).2.1 domainLayers "merged"
    declared
  have undeclared : ∃ layer ∈ domainLayers ++ [strayLayer],
      ¬ domainSchema.Declares layer.values := by
    refine ⟨strayLayer, by simp, ?_⟩
    unfold Declares
    decide
  exact ⟨declared, rfl, flattened ▸ rfl, undeclared,
    (resolve_flatten domainSchema (.fixed none none)).2.2.2.2.2 _ undeclared⟩

end Schema

end HubKeeper
