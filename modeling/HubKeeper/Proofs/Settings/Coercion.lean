import HubKeeper.Proofs.Collections.Lookup
import HubKeeper.Settings.Coercion

/-!
Typed values as raw ones.

What coercion gives has the kind asked for, and its integers fit 64 bits.  The JSON
form of such a value is coerced to the value again, unless it is a float that is not
finite: that one has no JSON form but null, which supplies nothing.
-/

namespace HubKeeper

/-! ### Collections in ascending order -/

theorem insertText_last {texts : List String} {text : String} (last : ∀ t ∈ texts, t < text) :
    insertText text texts = texts ++ [text] := by
  induction texts with
  | nil => rfl
  | cons t rest ih =>
      have less := last t List.mem_cons_self
      have notLess : ¬ text < t := fun more => String.lt_irrefl _ (String.lt_trans less more)
      have different : text ≠ t := by
        rintro rfl
        exact String.lt_irrefl _ less
      rw [insertText, if_neg notLess, if_neg different,
        ih fun member inside => last member (List.mem_cons_of_mem _ inside), List.cons_append]

namespace TextSet

theorem items_foldl_insert {texts : List String} {set : TextSet}
    (ascending : (set.items ++ texts).Pairwise (· < ·)) :
    (texts.foldl insert set).items = set.items ++ texts := by
  induction texts generalizing set with
  | nil => simp
  | cons text rest ih =>
      have last : ∀ t ∈ set.items, t < text := fun t member =>
        (List.pairwise_append.mp ascending).2.2 t member text List.mem_cons_self
      have put : (set.insert text).items = set.items ++ [text] := insertText_last last
      rw [List.foldl_cons, ih (by simpa [put] using ascending), put, List.append_assoc,
        List.singleton_append]

theorem ofList_items (set : TextSet) : ofList set.items = set := by
  have ascending : (empty.items ++ set.items).Pairwise (· < ·) := set.ascending
  exact ext (items_foldl_insert ascending)

end TextSet

namespace Value

/-- An integer of 64 bits, or a value of another kind. -/
def Fits (value : Value) : Prop :=
  ∀ n, value = .integer n → Number.fitsInt64 n = true

/-- A finite float, or a value of another kind. -/
def IsFinite (value : Value) : Prop :=
  ∀ x, value = .float x → x.isFinite = true

theorem isFinite_float {x : Binary64} : (float x).IsFinite ↔ x.isFinite = true :=
  ⟨fun finite => finite x rfl, fun finite _ same => by cases same; exact finite⟩

theorem fits_text {s : String} : (text s).Fits :=
  nofun

theorem isFinite_text {s : String} : (text s).IsFinite :=
  nofun

theorem isNull_toJson {value : Value} : value.toJson.isNull = false ↔ value.IsFinite := by
  cases value with
  | float x =>
      rw [isFinite_float]
      cases finite : x.isFinite <;> simp [toJson, Json.ofDouble, Json.isNull, finite]
  | text | integer | boolean | textSet | textList | textMap =>
      exact iff_of_true rfl nofun

end Value

namespace Json

theorem mapM_itemText?_str (items : List String) :
    (items.map Json.str).mapM itemText? = some items := by
  induction items with
  | nil => rfl
  | cons s items ih =>
      rw [List.map_cons, List.mapM_cons, ih]
      rfl

theorem objectTexts?_ofDict (map : Dict String) :
    (ofDict (map.map fun _ s => .str s)).objectTexts? = some map := by
  have texts : ∀ entries : List (String × String),
      (entries.map fun entry => (entry.1, Json.str entry.2)).mapM
        (fun field => field.2.scalarText?.map fun text => (field.1, text)) = some entries := by
    intro entries
    induction entries with
    | nil => rfl
    | cons entry entries ih =>
        rw [List.map_cons, List.mapM_cons, ih]
        rfl
  simp only [ofDict, Dict.map, objectTexts?, texts, Option.map_some]
  exact congrArg some (Dict.ofList_of_ascending map.ascending)

end Json

namespace Kind

open Value (Fits IsFinite)

variable {kind : Kind} {raw : Json} {value : Value}

/-- A typed value comes back from its JSON form. -/
theorem coerce?_toJson (fits : value.Fits) (finite : value.IsFinite) :
    value.kind.coerce? value.toJson = some value := by
  cases value with
  | text s => rfl
  | integer n => simp [Value.kind, Value.toJson, Json.ofInt, coerce?, JsonNumber.int64?, fits n rfl]
  | float x =>
      simp [Value.kind, Value.toJson, Json.ofDouble, coerce?, JsonNumber.toDouble, finite x rfl]
  | boolean b => rfl
  | textSet set =>
      simp only [Value.kind, Value.toJson, coerce?, Json.texts?, Json.mapM_itemText?_str,
        Option.map_some, TextSet.ofList_items]
  | textList items =>
      simp only [Value.kind, Value.toJson, coerce?, Json.texts?, Json.mapM_itemText?_str,
        Option.map_some]
  | textMap map =>
      have texts := Json.objectTexts?_ofDict map
      simp only [Json.ofDict] at texts
      simp [Value.kind, Value.toJson, coerce?, Json.ofDict, Json.textMap?, texts]

theorem fitsInt64_int? {text : List Char} {n : Int} (read : Number.int? text = some n) :
    Number.fitsInt64 n = true := by
  simp only [Number.int?] at read
  split at read
  · cases read
  · obtain ⟨fits, same⟩ := Option.ite_none_right_eq_some.mp read
    exact Option.some.inj same ▸ fits

/-- What a raw value is coerced to has the kind asked for. -/
theorem kind_of_coerce? (coerced : kind.coerce? raw = some value) : value.kind = kind := by
  have mapped {α : Type} {read : Option α} {make : α → Value} {kind : Kind}
      (made : ∀ a, (make a).kind = kind) (coerced : read.map make = some value) :
      value.kind = kind := by
    obtain ⟨a, _, rfl⟩ := Option.map_eq_some_iff.mp coerced
    exact made a
  cases kind with
  | text => cases raw <;> cases coerced <;> rfl
  | integer => cases raw <;> first | cases coerced | exact mapped (fun _ => rfl) coerced
  | float =>
      cases raw with
      | num n => cases coerced; rfl
      | str s => exact mapped (fun _ => rfl) coerced
      | null | bool | arr | obj => cases coerced
  | boolean =>
      cases raw with
      | bool b => cases coerced; rfl
      | num n =>
          simp only [coerce?] at coerced
          split at coerced <;> cases coerced <;> rfl
      | str s => exact mapped (fun _ => rfl) coerced
      | null | arr | obj => cases coerced
  | textSet | textList | textMap => exact mapped (fun _ => rfl) coerced

/-- Coercion gives integers of 64 bits only. -/
theorem fits_of_coerce? (coerced : kind.coerce? raw = some value) : value.Fits := by
  rintro n rfl
  obtain rfl : Kind.integer = kind := kind_of_coerce? coerced
  cases raw with
  | num number =>
      cases number with
      | int m =>
          obtain ⟨k, read, same⟩ := Option.map_eq_some_iff.mp coerced
          cases same
          obtain ⟨fits, same⟩ := Option.ite_none_right_eq_some.mp read
          exact Option.some.inj same ▸ fits
      | double x => cases coerced
  | str s =>
      simp only [coerce?, Option.map_eq_some_iff, Value.integer.injEq, exists_eq_right] at coerced
      exact fitsInt64_int? coerced
  | null | bool | arr | obj => cases coerced

end Kind

end HubKeeper
