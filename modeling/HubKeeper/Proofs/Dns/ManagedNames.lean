import HubKeeper.Proofs.Dns.Targets

/-!
Names accepted for management, and all the ways to write them.

A name is cut into labels after blanks, the case of letters and one point at its end have been
left out of account, so all spellings of a name are accepted as the same one.  The labels are
looked at one by one.  The name as a whole is not, and can be longer than a name may be or end
in a number.
-/

namespace HubKeeper.Dns

/-- How a managed name is written out: labels in lower case, three or more of them, and a single
point at the end. -/
structure IsManaged (bare fqdn : String) : Prop where
  pointed : fqdn = bare ++ "."
  once : bare.toList.getLast? ≠ some '.'
  lowered : Text.lower fqdn = fqdn
  several : 3 ≤ (labels fqdn.toList).length
  labelled : ∀ label ∈ labels fqdn.toList, isLabelChars label = true

/-- A way to write a name: blanks, its letters in either case, a point or none, and blanks. -/
def Spells (bare name : String) : Prop :=
  ∃ front written point back : String, name = front ++ (written ++ point) ++ back ∧
    Text.lower written = bare ∧ (point = "" ∨ point = ".") ∧
    (∀ c ∈ front.toList, Text.isBlank c = true) ∧ ∀ c ∈ back.toList, Text.isBlank c = true

variable {name fqdn bare : String}

/-! ### Spellings -/

theorem spells_bareName (name : String) : Spells (bareName name) name := by
  obtain ⟨front, back, around, blankFront, blankBack⟩ := Text.exists_around_trimChars name.toList
  have split : name = .ofList front ++ Text.trim name ++ .ofList back := by
    apply String.toList_inj.mp
    simpa [Text.trim] using around
  rw [← String.toList_ofList (l := front)] at blankFront
  rw [← String.toList_ofList (l := back)] at blankBack
  by_cases last : (Text.trim name).toList.getLast? = some '.'
  · refine ⟨_, withoutPoint (Text.trim name), ".", _, ?_, rfl, .inr rfl, blankFront, blankBack⟩
    rwa [← eq_withoutPoint_append last]
  · refine ⟨_, withoutPoint (Text.trim name), "", _, ?_, rfl, .inl rfl, blankFront, blankBack⟩
    rwa [withoutPoint_of_pointless last, String.append_empty]

/-- What spells a text with neither blanks in it nor a point at its end is read as that text. -/
theorem Spells.bareName_eq (spelled : Spells bare name)
    (unblank : ∀ c ∈ bare.toList, Text.isBlank c = false)
    (pointless : bare.toList.getLast? ≠ some '.') : bareName name = bare := by
  obtain ⟨front, written, point, back, rfl, rfl, isPoint, blankFront, blankBack⟩ := spelled
  have solid : ∀ c ∈ written.toList, Text.isBlank c = false := by
    intro c member
    rw [← Text.isBlank_toLower]
    exact unblank _ (by simpa using ⟨c, member, rfl⟩)
  have plain : written.toList.getLast? ≠ some '.' :=
    mt (Text.getLast?_lower_eq_iff (by decide)).mpr pointless
  have trimmed : Text.trim (front ++ (written ++ point) ++ back) = written ++ point := by
    have around : Text.trim (front ++ (written ++ point) ++ back) = Text.trim (written ++ point) := by
      rw [Text.trim, String.toList_append, String.toList_append,
        Text.trimChars_around blankFront blankBack, Text.trim]
    rw [around]
    refine Text.trim_eq_self ?_
    rw [String.toList_append, List.forall_mem_append]
    refine ⟨solid, ?_⟩
    rcases isPoint with rfl | rfl
    · exact List.forall_mem_nil _
    · exact List.forall_mem_singleton.mpr (by decide)
  rw [bareName, trimmed]
  rcases isPoint with rfl | rfl
  · rw [String.append_empty, withoutPoint_of_pointless plain]
  · rw [withoutPoint_append_point]

/-! ### Accepted names -/

theorem qualified_bareName (name : String) : qualified (bareName name) = bareName name ++ "." := by
  rw [qualified, bareName, Text.lower_lower]

theorem IsManaged.labels_eq (managed : IsManaged bare fqdn) :
    labels fqdn.toList = Text.fields '.' bare.toList := by
  rw [labels_toList, managed.pointed, withoutPoint_append_point]

theorem isManaged_of_normalizeName (accepted : normalizeName name = .ok fqdn) :
    IsManaged (bareName name) fqdn := by
  obtain ⟨rfl, enough, fit⟩ := normalizeName_ok_iff.mp accepted
  have pointed := qualified_bareName name
  have cut : labels (qualified (bareName name)).toList = Text.fields '.' (bareName name).toList := by
    rw [labels_toList, pointed, withoutPoint_append_point]
  refine ⟨pointed, fun last => ?_, ?_, by rwa [cut], by rwa [cut]⟩
  · exact absurd (fit [] (Text.nil_mem_fields_of_getLast? last)) (by decide)
  · rw [qualified_eq_lower, Text.lower_lower]

theorem IsManaged.isBlank_of_mem (managed : IsManaged bare fqdn) :
    ∀ c ∈ bare.toList, Text.isBlank c = false := by
  intro c member
  by_cases point : c = '.'
  · rw [point]
    decide
  · obtain ⟨label, isPart, inside⟩ := Text.mem_fields_of_mem member point
    rw [← managed.labels_eq] at isPart
    exact ((isLabelChars_plain (managed.labelled label isPart)).2 c inside).2

/-- A managed name is what all its spellings are read as, and nothing else is. -/
theorem IsManaged.normalizeName_iff (managed : IsManaged bare fqdn) (other : String) :
    normalizeName other = .ok fqdn ↔ Spells bare other := by
  constructor
  · intro accepted
    have pointed := (isManaged_of_normalizeName accepted).pointed
    rw [managed.pointed, String.append_left_inj] at pointed
    rw [pointed]
    exact spells_bareName other
  · intro spelled
    have read := spelled.bareName_eq managed.isBlank_of_mem managed.once
    rw [normalizeName_ok_iff, qualified_bareName, read, ← managed.labels_eq]
    exact ⟨managed.pointed, managed.several, managed.labelled⟩

theorem IsManaged.spells (managed : IsManaged bare fqdn) : Spells bare fqdn := by
  have lowered := managed.lowered
  rw [managed.pointed, lower_append_point, String.append_left_inj] at lowered
  refine ⟨"", bare, ".", "", ?_, lowered, .inr rfl, List.forall_mem_nil _, List.forall_mem_nil _⟩
  rw [managed.pointed, String.append_empty, String.empty_append]

/-- A managed name is a name unless it is too long or ends in a number. -/
theorem IsManaged.isName_iff (managed : IsManaged bare fqdn) :
    isName fqdn = true ↔ fqdn.utf8ByteSize ≤ 255 ∧
      ∀ last, (labels fqdn.toList).getLast? = some last → ∃ c ∈ last, c.isDigit = false := by
  have long : 3 ≤ Text.byteLength fqdn.toList := by
    have parts := Text.length_flatten_fields '.' bare.toList
    have filled := length_le_length_flatten fun label member =>
      (isLabelChars_plain (managed.labelled label member)).1
    have bytes := Text.length_le_byteLength fqdn.toList
    have several := managed.several
    have longer := congrArg (·.toList.length) managed.pointed
    rw [managed.labels_eq] at filled several
    simp only [String.toList_append, List.length_append] at longer
    omega
  have several : 2 ≤ (labels fqdn.toList).length := Nat.le_of_succ_le managed.several
  have labelled := List.all_eq_true.mpr managed.labelled
  cases last : (labels fqdn.toList).getLast? with
  | none =>
      rw [List.getLast?_eq_none_iff] at last
      rw [last] at several
      cases several
  | some label =>
      simp [isName, isNameChars, Text.utf8ByteSize_eq, long, several, labelled, last]

/-- A name accepted for management is written out in the one way, in which it is accepted again,
and every spelling of it gives the same.  It is a name just when it has at most 255 bytes and its
last label is no number. -/
theorem normalizeName_canonical (accepted : normalizeName name = .ok fqdn) :
    ∃ bare, IsManaged bare fqdn ∧ normalizeName fqdn = .ok fqdn ∧
      (∀ other, normalizeName other = .ok fqdn ↔ Spells bare other) ∧
      (isName fqdn = true ↔ fqdn.utf8ByteSize ≤ 255 ∧
        ∀ last, (labels fqdn.toList).getLast? = some last → ∃ c ∈ last, c.isDigit = false) :=
  have managed := isManaged_of_normalizeName accepted
  ⟨bareName name, managed, (managed.normalizeName_iff fqdn).mpr managed.spells,
    managed.normalizeName_iff, managed.isName_iff⟩

theorem paddedName_canonical :
    normalizeName "\tNAS.Example.COM. " = .ok "nas.example.com." ∧
      ∃ bare, IsManaged bare "nas.example.com." ∧
        normalizeName "nas.example.com." = .ok "nas.example.com." ∧
        (∀ other, normalizeName other = .ok "nas.example.com." ↔ Spells bare other) ∧
        isName "nas.example.com." = true := by
  have accepted : normalizeName "\tNAS.Example.COM. " = .ok "nas.example.com." := by decide +kernel
  obtain ⟨bare, managed, again, spellings, named⟩ := normalizeName_canonical accepted
  have last : (labels "nas.example.com.".toList).getLast? = some ['c', 'o', 'm'] := by decide +kernel
  refine ⟨accepted, bare, managed, again, spellings, named.mpr ⟨by decide, fun label found => ?_⟩⟩
  cases last.symm.trans found
  exact ⟨'c', by decide, by decide⟩

/-! ### Managed names that are no names -/

/-- A number is taken for a last label, and a name of four labels can be too long. -/
theorem managed_unnamed :
    (normalizeName "1.2.3" = .ok "1.2.3." ∧ isName "1.2.3." = false) ∧
      ∃ fqdn, normalizeName (longLabel ++ "." ++ longName) = .ok fqdn ∧
        255 < fqdn.utf8ByteSize ∧ isName fqdn = false := by
  obtain ⟨named, pointless, length⟩ := longName_isName
  have bytes : (qualified (withoutPoint (longLabel ++ "." ++ longName))).utf8ByteSize = 268 := by
    have point : Text.byteLength ['.'] = 1 := by decide
    rw [Text.utf8ByteSize_eq, toList_qualified, Text.byteLength_append, Text.toList_lower,
      Text.byteLength_map_toLower, withoutPoint_of_pointless (getLast?_under named pointless _),
      byteLength_under, byteLength_longLabel, length, point]
  refine ⟨⟨by decide +kernel, by decide +kernel⟩, _, normalizeName_under longLabel_isLabel named,
    by omega, Bool.eq_false_iff.mpr fun accepted => ?_⟩
  have short := isName_short accepted
  rw [← Text.utf8ByteSize_eq] at short
  omega

end HubKeeper.Dns
