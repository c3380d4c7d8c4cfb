import HubKeeper.Proofs.Dns.Names
import HubKeeper.Proofs.Net.Ipv4

/-!
Names of the settings, as the reconciler reads them.

The grammar of names is checked on a name as it is written; the reconciler cuts it into
labels in lower case, without the blanks around it and the point at its end.  Neither makes
a difference to a name of the grammar, so it is accepted as a target, and with a label in
front of it as a name to manage.
-/

namespace HubKeeper.Dns

/-- Whether two names are the same, whatever the case of letters and one point at the end. -/
def Alike (a b : String) : Prop :=
  Text.lower (withoutPoint a) = Text.lower (withoutPoint b)

instance (a b : String) : Decidable (Alike a b) :=
  inferInstanceAs (Decidable (_ = _))

theorem qualified_withoutPoint_eq_iff {a b : String} :
    qualified (withoutPoint a) = qualified (withoutPoint b) ↔ Alike a b := by
  rw [qualified, qualified, Alike]
  exact ⟨fun same => by simpa using same, fun same => by rw [same]⟩

@[simp] theorem qualified_lower (bare : String) : qualified (Text.lower bare) = qualified bare := by
  rw [qualified, qualified, Text.lower_lower]

theorem labels_toList (s : String) : labels s.toList = Text.fields '.' (withoutPoint s).toList := by
  rw [labels, toList_withoutPoint]

/-! ### Labels -/

theorem isLabelChar_toLower (c : Char) : isLabelChar c.toLower = isLabelChar c :=
  Text.apply_toLower true (fun c alpha => by simp [isLabelChar, Char.isAlphanum, alpha]) c

theorem isLabelChars_map_toLower (label : List Char) :
    isLabelChars (label.map Char.toLower) = isLabelChars label := by
  have first : (label.map Char.toLower).head? = some '-' ↔ label.head? = some '-' := by
    simp [List.head?_map, Option.map_eq_some_iff, Text.toLower_eq_iff]
  have last : (label.map Char.toLower).getLast? = some '-' ↔ label.getLast? = some '-' := by
    simp [List.getLast?_map, Option.map_eq_some_iff, Text.toLower_eq_iff]
  have chars : (label.map Char.toLower).all isLabelChar = label.all isLabelChar := by
    rw [List.all_map]
    exact congrArg label.all (funext isLabelChar_toLower)
  rw [Bool.eq_iff_iff]
  simp only [isLabelChars, Text.byteLength_map_toLower, chars, Bool.and_eq_true, bne_iff_ne, ne_eq,
    first, last, List.map_eq_nil_iff]

theorem toNat_of_isLabelChar {c : Char} (accepted : isLabelChar c = true) :
    c.toNat = 45 ∨ 48 ≤ c.toNat ∧ c.toNat ≤ 122 := by
  simp only [isLabelChar, Char.isAlphanum, Bool.or_eq_true, beq_iff_eq] at accepted
  rcases accepted with (alpha | digit) | rfl
  · have bounds := Text.toNat_of_isAlpha alpha
    omega
  · simp [Char.isDigit, UInt32.le_iff_toNat_le] at digit
    omega
  · exact .inl rfl

theorem isLabelChar_plain {c : Char} (accepted : isLabelChar c = true) :
    c ≠ '.' ∧ Text.isBlank c = false := by
  have code := toNat_of_isLabelChar accepted
  refine ⟨?_, ?_⟩
  · rintro rfl
    exact absurd code (by decide)
  · simp [Text.isBlank]
    omega

theorem isLabelChars_plain {label : List Char} (accepted : isLabelChars label = true) :
    label ≠ [] ∧ ∀ c ∈ label, c ≠ '.' ∧ Text.isBlank c = false := by
  simp only [isLabelChars, Bool.and_eq_true, bne_iff_ne, List.all_eq_true] at accepted
  exact ⟨accepted.1.1.1.1, fun c member => isLabelChar_plain (accepted.2 c member)⟩

theorem isLabel_plain {label : String} (accepted : isLabel label = true) :
    label ≠ "" ∧ ∀ c ∈ label.toList, c ≠ '.' ∧ Text.isBlank c = false := by
  obtain ⟨nonempty, plain⟩ := isLabelChars_plain accepted
  exact ⟨by rintro rfl; exact nonempty rfl, plain⟩

/-! ### Names -/

theorem length_le_length_flatten {parts : List (List α)} (filled : ∀ part ∈ parts, part ≠ []) :
    parts.length ≤ parts.flatten.length := by
  induction parts with
  | nil => exact Nat.le_refl 0
  | cons first rest ih =>
      obtain ⟨nonempty, later⟩ := List.forall_mem_cons.mp filled
      have positive := List.length_pos_iff.mpr nonempty
      have rest := ih later
      simp only [List.flatten_cons, List.length_append, List.length_cons]
      omega

theorem byteLength_withoutPoint_le (s : String) :
    Text.byteLength (withoutPoint s).toList ≤ Text.byteLength s.toList := by
  by_cases last : s.toList.getLast? = some '.'
  · nth_rewrite 2 [eq_withoutPoint_append last]
    rw [String.toList_append, Text.byteLength_append]
    exact Nat.le_add_right ..
  · rw [withoutPoint_of_pointless last]

section

variable {name : String} (accepted : isName name = true)

include accepted

theorem isName_labels :
    2 ≤ (Text.fields '.' (withoutPoint name).toList).length ∧
      ∀ label ∈ Text.fields '.' (withoutPoint name).toList, isLabelChars label = true := by
  simp only [isName, isNameChars, labels_toList, Bool.and_eq_true, decide_eq_true_eq,
    List.all_eq_true] at accepted
  exact ⟨accepted.1.1.2, accepted.2⟩

theorem isName_last {label : List Char}
    (last : (Text.fields '.' (withoutPoint name).toList).getLast? = some label) :
    label.all Char.isDigit = false := by
  simp only [isName, isNameChars, labels_toList, Bool.and_eq_true] at accepted
  simpa [last] using accepted.1.2

theorem isName_long : 3 ≤ Text.byteLength name.toList := by
  simp only [isName, isNameChars, Bool.and_eq_true, decide_eq_true_eq] at accepted
  exact accepted.1.1.1.1

theorem isName_short : Text.byteLength name.toList ≤ 255 := by
  simp only [isName, isNameChars, Bool.and_eq_true, decide_eq_true_eq] at accepted
  exact accepted.1.1.1.2

theorem withoutPoint_pointless : (withoutPoint name).toList.getLast? ≠ some '.' := fun last =>
  absurd ((isName_labels accepted).2 [] (Text.nil_mem_fields_of_getLast? last)) (by decide)

theorem point_mem_withoutPoint : '.' ∈ (withoutPoint name).toList := by
  by_contra absent
  have several := (isName_labels accepted).1
  rw [Text.fields_of_not_mem absent] at several
  simp at several

theorem isLabelChar_of_mem_name : ∀ c ∈ name.toList, c = '.' ∨ isLabelChar c = true := by
  intro c member
  by_cases point : c = '.'
  · exact .inl point
  · have inside : c ∈ (withoutPoint name).toList := by
      rw [toList_withoutPoint]
      split
      · rename_i last
        obtain ⟨start, split⟩ := List.getLast?_eq_some_iff.mp last
        rw [split] at member ⊢
        simpa [point] using member
      · exact member
    obtain ⟨label, isLabel, inLabel⟩ := Text.mem_fields_of_mem inside point
    have fits := (isName_labels accepted).2 label isLabel
    simp only [isLabelChars, Bool.and_eq_true, List.all_eq_true] at fits
    exact .inr (fits.2 c inLabel)

theorem isBlank_of_mem_name : ∀ c ∈ name.toList, Text.isBlank c = false := by
  intro c member
  rcases isLabelChar_of_mem_name accepted c member with rfl | fits
  · decide
  · exact (isLabelChar_plain fits).2

theorem three_le_length_withoutPoint : 3 ≤ (withoutPoint name).toList.length := by
  obtain ⟨several, labels⟩ := isName_labels accepted
  have parts := Text.length_flatten_fields '.' (withoutPoint name).toList
  have filled := length_le_length_flatten fun label member => (isLabelChars_plain (labels label member)).1
  omega

/-- A name reads the same in lower case and without the point at its end. -/
theorem isName_lower_withoutPoint : isName (Text.lower (withoutPoint name)) = true := by
  have pointless : (Text.lower (withoutPoint name)).toList.getLast? ≠ some '.' :=
    mt (Text.getLast?_lower_eq_iff (by decide)).mp (withoutPoint_pointless accepted)
  have cut : labels (Text.lower (withoutPoint name)).toList =
      (Text.fields '.' (withoutPoint name).toList).map (·.map Char.toLower) := by
    rw [labels_toList, withoutPoint_of_pointless pointless, Text.toList_lower,
      Text.fields_map_toLower (by decide)]
  obtain ⟨several, fit⟩ := isName_labels accepted
  have long := Nat.le_trans (three_le_length_withoutPoint accepted) (Text.length_le_byteLength _)
  have short := Nat.le_trans (byteLength_withoutPoint_le name) (isName_short accepted)
  rw [isName, isNameChars, cut]
  simp only [Text.toList_lower, Text.byteLength_map_toLower, List.length_map, List.all_map,
    Bool.and_eq_true, decide_eq_true_eq, List.all_eq_true, Function.comp_apply,
    isLabelChars_map_toLower, List.getLast?_map]
  refine ⟨⟨⟨⟨long, short⟩, several⟩, ?_⟩, fit⟩
  cases last : (Text.fields '.' (withoutPoint name).toList).getLast? with
  | none => rfl
  | some label =>
      have noNumber := isName_last accepted last
      have digits : (label.map Char.toLower).all Char.isDigit = label.all Char.isDigit := by
        rw [List.all_map]
        exact congrArg label.all (funext Text.isDigit_toLower)
      simp only [Option.map_some, Option.any_some, digits, noNumber, Bool.not_false]

theorem parse?_of_isName : Ipv4.parse? name = none := by
  by_cases last : name.toList.getLast? = some '.'
  · exact Ipv4.parse?_of_getLast? last
  · have same : (withoutPoint name).toList = name.toList := by rw [toList_withoutPoint, if_neg last]
    obtain ⟨start, label, split⟩ : ∃ start label,
        Text.fields '.' name.toList = start ++ [label] := by
      rcases List.eq_nil_or_concat (Text.fields '.' name.toList) with none | ⟨start, label, split⟩
      · exact absurd none (Text.fields_ne_nil _ _)
      · exact ⟨start, label, by rw [split, List.concat_eq_append]⟩
    have noNumber := isName_last accepted (by rw [same, split]; exact List.getLast?_concat ..)
    have unread : Ipv4.octet? label = none := by rw [Ipv4.octet?]; simp [noNumber]
    rw [Ipv4.parse?, Ipv4.ofChars?, split, List.mapM_append]
    cases start.mapM Ipv4.octet? <;> simp [unread]

theorem classifyTarget_of_isName (zone : Zone) :
    classifyTarget zone name = .ok (.canonicalName, qualified (withoutPoint name)) := by
  have nonempty : name ≠ "" := by
    rintro rfl
    exact absurd accepted (by decide)
  have noPoint : name ≠ "." := by
    rintro rfl
    exact absurd accepted (by decide)
  have pointed : (Text.lower (withoutPoint name)).toList.contains '.' = true := by
    rw [Text.toList_lower, List.contains_iff_mem, List.mem_map]
    exact ⟨'.', point_mem_withoutPoint accepted, rfl⟩
  simp only [classifyTarget, Text.trim_eq_self (isBlank_of_mem_name accepted), nonempty, noPoint,
    parse?_of_isName accepted, pointed, isName_lower_withoutPoint accepted, qualified_lower]
  rfl

end

/-! ### Managed names -/

theorem normalizeName_of_labels {name : String}
    (enough : minLabels ≤ (Text.fields '.' (withoutPoint (Text.trim name)).toList).length)
    (labels : ∀ label ∈ Text.fields '.' (withoutPoint (Text.trim name)).toList,
      isLabelChars label = true) :
    normalizeName name = .ok (qualified (withoutPoint (Text.trim name))) := by
  have cut : Text.fields '.' (bareName name).toList =
      (Text.fields '.' (withoutPoint (Text.trim name)).toList).map (·.map Char.toLower) := by
    rw [bareName, Text.toList_lower, Text.fields_map_toLower (by decide)]
  refine normalizeName_ok_iff.mpr ⟨(qualified_lower _).symm, ?_, ?_⟩
  · rwa [cut, List.length_map]
  · rw [cut, List.forall_mem_map]
    intro label member
    rw [isLabelChars_map_toLower]
    exact labels label member

theorem normalizeName_under {label domain : String} (isLabel : isLabel label = true)
    (accepted : isName domain = true) :
    normalizeName (label ++ "." ++ domain) =
      .ok (qualified (withoutPoint (label ++ "." ++ domain))) := by
  obtain ⟨several, labels⟩ := isName_labels accepted
  obtain ⟨_, plain⟩ := isLabel_plain isLabel
  have pointless : '.' ∉ label.toList := fun point => (plain '.' point).1 rfl
  have nonempty : domain.toList ≠ [] := by
    intro empty
    rw [String.toList_eq_nil_iff] at empty
    exact absurd (empty ▸ accepted) (by decide)
  have bare : (withoutPoint (label ++ "." ++ domain)).toList =
      label.toList ++ '.' :: (withoutPoint domain).toList := by
    simp only [toList_withoutPoint, String.toList_append]
    rw [List.getLast?_append_of_ne_nil _ nonempty]
    split
    · rw [List.dropLast_append_of_ne_nil nonempty]
      simp
    · simp
  have cut : Text.fields '.' (withoutPoint (label ++ "." ++ domain)).toList =
      label.toList :: Text.fields '.' (withoutPoint domain).toList := by
    rw [bare, Text.fields_append_cons, Text.fields_of_not_mem pointless]
    rfl
  have trimmed : Text.trim (label ++ "." ++ domain) = label ++ "." ++ domain := by
    refine Text.trim_eq_self ?_
    have point : ∀ c ∈ ".".toList, Text.isBlank c = false := List.forall_mem_singleton.mpr (by decide)
    simp only [String.toList_append, List.forall_mem_append]
    exact ⟨⟨fun c member => (plain c member).2, point⟩, isBlank_of_mem_name accepted⟩
  rw [← trimmed] at cut
  have managed : normalizeName (label ++ "." ++ domain) =
      .ok (qualified (withoutPoint (Text.trim (label ++ "." ++ domain)))) :=
    normalizeName_of_labels (by rw [cut, List.length_cons, minLabels]; omega)
      (by rw [cut, List.forall_mem_cons]; exact ⟨isLabel, labels⟩)
  rwa [trimmed] at managed

end HubKeeper.Dns
