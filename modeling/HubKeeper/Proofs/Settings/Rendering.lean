import HubKeeper.Proofs.Json.Reading
import HubKeeper.Proofs.Settings.Coercion

/-!
Typed values as text.

The JSON form of a value without a float can be read from its compact text: its integers fit
64 bits, nothing is nested deeply, and the fields of a map stand in order.  A text that starts
with a bracket is read as JSON and not cut at commas, so a collection comes back whichever
characters its texts have.
-/

namespace HubKeeper

namespace Value

variable {value : Value}

theorem canonical_toJson (value : Value) : value.toJson.canonical = value.toJson := by
  have strings (items : List String) :
      Json.canonicalItems (items.map .str) = items.map .str := by
    induction items with
    | nil => rfl
    | cons s rest ih => rw [List.map_cons, Json.canonicalItems, ih, Json.canonical] <;> nofun
  have texts (entries : List (String × String)) :
      Json.canonicalFields (entries.map fun entry => (entry.1, .str entry.2)) =
        entries.map fun entry => (entry.1, .str entry.2) := by
    induction entries with
    | nil => rfl
    | cons entry rest ih => rw [List.map_cons, Json.canonicalFields, ih, Json.canonical] <;> nofun
  cases value with
  | text | integer | boolean => rfl
  | float x =>
      rw [toJson, Json.ofDouble]
      split <;> rfl
  | textSet set => rw [toJson, Json.canonical, strings]
  | textList items => rw [toJson, Json.canonical, strings]
  | textMap map =>
      have ascending := (map.map fun _ s => Json.str s).ascending
      rw [toJson, Json.ofDict, Json.canonical, Dict.entries_map, texts, Json.sortFields,
        foldl_insertEntry (by rwa [List.nil_append]), List.nil_append]

/-- What has no float is written so that it can be read. -/
theorem fits_toJson (fits : value.Fits) (noFloat : value.kind ≠ .float) :
    value.toJson.fits Json.maxDepth = true := by
  have strings (items : List String) (depth : Nat) :
      Json.fitsItems depth (items.map .str) = true := by
    simp [Json.fitsItems_iff, Json.fits]
  have texts (entries : List (String × String)) (depth : Nat) :
      Json.fitsFields depth (entries.map fun entry => (entry.1, .str entry.2)) = true := by
    induction entries with
    | nil => rfl
    | cons entry rest ih => simp [Json.fitsFields, Json.fits, ih]
  cases value with
  | text | boolean => rfl
  | integer n =>
      have bounds := fits n rfl
      have more : Number.maxInt64 ≤ Json.maxSignificand := by decide
      simp only [Number.fitsInt64, Bool.and_eq_true, decide_eq_true_eq] at bounds
      simp only [toJson, Json.ofInt, Json.fits, Bool.and_eq_true, decide_eq_true_eq]
      omega
  | float x => exact absurd rfl noFloat
  | textSet set => exact strings set.items _
  | textList items => exact strings items _
  | textMap map =>
      rw [toJson, Json.ofDict, Dict.entries_map]
      exact texts map.entries _

/-- Rendered text is read as the JSON it was rendered from. -/
theorem parse?_toJson (fits : value.Fits) (noFloat : value.kind ≠ .float) :
    Json.parse? (Text.trim value.toJson.compact) = some value.toJson := by
  rw [Json.parse?_trim_compact (fits_toJson fits noFloat), canonical_toJson]

end Value

namespace Json

/-- A text that starts with a bracket is not cut at commas. -/
theorem texts?_compact {items : List Json}
    (read : parse? (Text.trim (arr items).compact) = some (.arr items))
    (trimmed : Text.trim (arr items).compact = (arr items).compact) :
    (str (arr items).compact).texts? = (arr items).texts? := by
  have bracket : (arr items).compact.toList.head? = some '[' := by
    rw [Json.compact, String.toList_ofList, Json.compactChars]
    rfl
  rw [trimmed] at read
  simp only [Json.texts?, trimmed, bracket, if_true, read, Option.bind_some, Json.arrayTexts?]

end Json

namespace Kind

variable {value : Value}

theorem booleanWord?_compact (b : Bool) : booleanWord? (Json.bool b).compact = some b := by
  have word : Text.lower (Json.bool b).compact = Value.booleanText b := by
    apply String.toList_inj.mp
    rw [Text.toList_lower, Json.compact, String.toList_ofList]
    cases b <;> rw [Json.compactChars] <;> decide
  rw [booleanWord?, Json.trim_compact (by rfl), word]
  cases b <;> simp [Value.booleanText]

theorem coerce?_compact (fits : value.Fits) (noText : value.kind ≠ .text)
    (noFloat : value.kind ≠ .float) :
    value.kind.coerce? (.str value.toJson.compact) = value.kind.coerce? value.toJson := by
  have read := Value.parse?_toJson fits noFloat
  have finite := Json.isFinite_of_fits _ _ (Value.fits_toJson fits noFloat)
  have trimmed := Json.trim_compact finite
  cases value with
  | text s => exact absurd rfl noText
  | float x => exact absurd rfl noFloat
  | integer n =>
      have inside : Number.fitsInt64 n = true := fits n rfl
      have chars : Text.trimChars (Text.intChars n) = Text.intChars n := by
        simpa only [Value.toJson, Json.ofInt, Json.compactChars, Json.numberChars] using
          Json.trimChars_compactChars finite
      simp only [Value.kind, Value.toJson, Json.ofInt, coerce?, Json.compact, Json.compactChars,
        Json.numberChars, String.toList_ofList, chars, Decimal.int?_intChars inside,
        JsonNumber.int64?, inside, if_true]
  | boolean b =>
      simp only [Value.kind, Value.toJson, coerce?, booleanWord?_compact, Option.map_some]
  | textSet set =>
      simp only [Value.kind, Value.toJson, coerce?] at read trimmed ⊢
      rw [Json.texts?_compact read trimmed]
  | textList items =>
      simp only [Value.kind, Value.toJson, coerce?] at read trimmed ⊢
      rw [Json.texts?_compact read trimmed]
  | textMap map =>
      simp only [Value.kind, Value.toJson, Json.ofDict, coerce?, Json.textMap?] at read ⊢
      rw [read, Option.bind_some]

/-- A typed value comes back from its JSON form and, if it is neither text nor a float, from a
string with the compact text of that form. -/
theorem coerce_rendered (name : String) :
    (∀ value : Value, value.Fits → value.IsFinite →
      value.kind.coerce name value.toJson = .ok value) ∧
    (∀ (kind : Kind) (raw : Json) (value : Value), kind.coerce name raw = .ok value →
      value.IsFinite → kind.coerce name value.toJson = .ok value) ∧
    ∀ value : Value, value.Fits →
      value.kind ∈ [integer, boolean, textSet, textList, textMap] →
        value.kind.coerce name (.str value.toJson.compact) = .ok value := by
  refine ⟨fun value fits finite => ?_, fun kind raw value coerced finite => ?_,
    fun value fits listed => ?_⟩
  · rw [coerce, coerce?_toJson fits finite]
  · have read : kind.coerce? raw = some value := by
      rw [coerce] at coerced
      split at coerced
      · rename_i typed read
        exact Except.ok.inj coerced ▸ read
      · cases coerced
    obtain rfl := kind_of_coerce? read
    rw [coerce, coerce?_toJson (fits_of_coerce? read) finite]
  · obtain ⟨noText, noFloat⟩ : value.kind ≠ .text ∧ value.kind ≠ .float := by
      constructor <;> intro same <;> simp [same] at listed
    have finite : value.IsFinite := by
      rintro x rfl
      exact absurd rfl noFloat
    rw [coerce, coerce?_compact fits noText noFloat, coerce?_toJson fits finite]

/-- Texts that JSON escapes, that a list between commas would take apart, or that stand between
blanks. -/
def oddTexts : List String :=
  ["", " a ", "\"b\"", "\\", "\x01\n\t", "c,d", "[\"e\"]", "\x7bf\x7d", "\u00e9\u2603"]

theorem oddTexts_coerced :
    (Value.textList oddTexts).kind.coerce "hosts" (.str (Value.textList oddTexts).toJson.compact) =
        .ok (.textList oddTexts) ∧
    Kind.textSet.coerce "hosts" (Value.textSet (.ofList ["b", "a", "b"])).toJson =
        .ok (.textSet (.ofList ["b", "a", "b"])) ∧
    Kind.float.coerce "ratio" (Value.float (.ofNat 2)).toJson = .ok (.float (.ofNat 2)) :=
  ⟨(coerce_rendered "hosts").2.2 (.textList oddTexts) nofun (by decide),
    (coerce_rendered "hosts").2.1 .textSet (.arr [.str "b", .str "a", .str "b"]) _ rfl nofun,
    (coerce_rendered "ratio").1 (.float (.ofNat 2)) nofun
      (Value.isFinite_float.mpr (by decide))⟩

end Kind

end HubKeeper
