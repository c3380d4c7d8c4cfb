import HubKeeper.Proofs.Dns.Placement

/-!
The grammar of names.

A name is spelled by labels with points between them, and there may be a point behind the last
one.  The test of names cuts a text at its points and looks at the parts; it accepts a text just
when labels spell it, because these are then the parts.
-/

namespace HubKeeper.Dns

/-- One to 63 letters, digits and hyphens, with no hyphen at either end. -/
structure Label (label : String) : Prop where
  nonempty : label ≠ ""
  short : label.length ≤ 63
  chars : ∀ c ∈ label.toList, Text.IsLetter c ∨ Text.IsDigit c ∨ c = '-'
  first : label.toList.head? ≠ some '-'
  last : label.toList.getLast? ≠ some '-'

/-- Labels with points between them, and perhaps one point behind the last. -/
def SpelledBy (labels : List String) (name : String) : Prop :=
  name = ".".intercalate labels ∨ name = ".".intercalate labels ++ "."

/-- A name of two labels or more, of which the last is not all digits. -/
structure DomainName (name : String) : Prop where
  long : 3 ≤ name.utf8ByteSize
  short : name.utf8ByteSize ≤ 255
  spelled : ∃ labels, SpelledBy labels name ∧ 2 ≤ labels.length ∧
    (∀ label ∈ labels, Label label) ∧
    ∃ last, labels.getLast? = some last ∧ ¬∀ c ∈ last.toList, Text.IsDigit c

variable {label name : String} {labels : List String}

/-! ### Labels -/

theorem isLabelChar_iff {c : Char} :
    isLabelChar c = true ↔ Text.IsLetter c ∨ Text.IsDigit c ∨ c = '-' := by
  rw [isLabelChar, Bool.or_eq_true, Text.isAlphanum_iff, beq_iff_eq, or_assoc]

/-- The characters of labels are single bytes. -/
theorem byteLength_of_isLabelChar {cs : List Char} (chars : ∀ c ∈ cs, isLabelChar c = true) :
    Text.byteLength cs = cs.length := by
  induction cs with
  | nil => rfl
  | cons c rest ih =>
      obtain ⟨here, later⟩ := List.forall_mem_cons.mp chars
      have single : c.utf8Size = 1 := by
        have code := toNat_of_isLabelChar here
        rw [Char.utf8Size_eq_one_iff, UInt32.le_iff_toNat_le]
        change c.toNat ≤ 127
        omega
      rw [Text.byteLength, single, ih later, List.length_cons, Nat.add_comm]

theorem isLabel_iff : isLabel label = true ↔ Label label := by
  simp only [isLabel, isLabelChars, Bool.and_eq_true, bne_iff_ne, decide_eq_true_eq,
    List.all_eq_true]
  constructor
  · rintro ⟨⟨⟨⟨nonempty, short⟩, first⟩, last⟩, chars⟩
    rw [byteLength_of_isLabelChar chars, String.length_toList] at short
    exact ⟨mt String.toList_eq_nil_iff.mpr nonempty, short,
      fun c member => isLabelChar_iff.mp (chars c member), first, last⟩
  · intro fits
    have chars : ∀ c ∈ label.toList, isLabelChar c = true :=
      fun c member => isLabelChar_iff.mpr (fits.chars c member)
    refine ⟨⟨⟨⟨mt String.toList_eq_nil_iff.mp fits.nonempty, ?_⟩, fits.first⟩, fits.last⟩, chars⟩
    rw [byteLength_of_isLabelChar chars, String.length_toList]
    exact fits.short

/-! ### Names -/

/-- The parts that a text is cut into spell it. -/
theorem spelledBy_fields (name : String) :
    SpelledBy ((Text.fields '.' (withoutPoint name).toList).map .ofList) name := by
  have joined : ".".intercalate ((Text.fields '.' (withoutPoint name).toList).map .ofList) =
      withoutPoint name := by
    apply String.toList_inj.mp
    rw [String.toList_intercalate, List.map_map]
    simp [Function.comp_def, Text.intercalate_fields]
  rw [SpelledBy, joined]
  by_cases last : name.toList.getLast? = some '.'
  · exact .inr (eq_withoutPoint_append last)
  · exact .inl (withoutPoint_of_pointless last).symm

theorem SpelledBy.fields_eq (spelled : SpelledBy labels name) (some : labels ≠ [])
    (fit : ∀ label ∈ labels, Label label) :
    Text.fields '.' (withoutPoint name).toList = labels.map String.toList := by
  have cut : Text.fields '.' (".".intercalate labels).toList = labels.map String.toList := by
    rw [String.toList_intercalate]
    refine Text.fields_intercalate (mt List.map_eq_nil_iff.mp some) ?_
    rw [List.forall_mem_map]
    exact fun label member => not_mem_of_isLabel (isLabel_iff.mpr (fit label member))
  rcases spelled with rfl | rfl
  · have pointless : (".".intercalate labels).toList.getLast? ≠ .some '.' := by
      intro last
      have empty := Text.nil_mem_fields_of_getLast? last
      rw [cut] at empty
      obtain ⟨label, member, none⟩ := List.mem_map.mp empty
      exact (fit label member).nonempty (String.toList_eq_nil_iff.mp none)
    rw [withoutPoint_of_pointless pointless, cut]
  · rw [withoutPoint_append_point, cut]

theorem isName_iff : isName name = true ↔ DomainName name := by
  constructor
  · intro accepted
    obtain ⟨several, fit⟩ := isName_labels accepted
    refine ⟨?_, ?_, _, spelledBy_fields name, by rwa [List.length_map], ?_, ?_⟩
    · rw [Text.utf8ByteSize_eq]
      exact isName_long accepted
    · rw [Text.utf8ByteSize_eq]
      exact isName_short accepted
    · rw [List.forall_mem_map]
      intro part isPart
      rw [← isLabel_iff, isLabel, String.toList_ofList]
      exact fit part isPart
    · cases found : (Text.fields '.' (withoutPoint name).toList).getLast? with
      | none => exact absurd (List.getLast?_eq_none_iff.mp found) (Text.fields_ne_nil _ _)
      | some last =>
          refine ⟨.ofList last, by rw [List.getLast?_map, found]; rfl, fun digits => ?_⟩
          rw [String.toList_ofList] at digits
          have number : last.all Char.isDigit = true :=
            List.all_eq_true.mpr fun c member => Text.isDigit_iff.mpr (digits c member)
          rw [isName_last accepted found] at number
          cases number
  · rintro ⟨long, short, labels, spelled, several, fit, last, isLast, noNumber⟩
    rw [Text.utf8ByteSize_eq] at long short
    have some : labels ≠ [] := by
      rintro rfl
      cases isLast
    simp only [isName, isNameChars, labels_toList, spelled.fields_eq some fit, List.getLast?_map,
      isLast, List.length_map, Bool.and_eq_true, decide_eq_true_eq, List.all_eq_true,
      List.forall_mem_map]
    refine ⟨⟨⟨⟨long, short⟩, several⟩, ?_⟩, fun label member => isLabel_iff.mpr (fit label member)⟩
    rw [Option.map_some, Option.any_some, Bool.not_eq_true', ← Bool.not_eq_true, List.all_eq_true]
    exact fun digits => noNumber fun c member => Text.isDigit_iff.mp (digits c member)

end HubKeeper.Dns
