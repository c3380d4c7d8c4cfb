import HubKeeper.Proofs.Dns.Placement

/-!
The one spelling of a target.

An address is written in its one form.  An alias is written in lower case with one point at its
end, and a label is completed to a name of the zone.  What is written is read as it stands, as
long as it is short enough for a name.
-/

namespace HubKeeper.Dns

def targetLabels (zone : Zone) (target : String) : List (List Char) :=
  (labels (Text.trim target).toList).map (·.map Char.toLower) ++
    if '.' ∈ (withoutPoint (Text.trim target)).toList then [] else labels zone.name.toList

/-- A name of labels in lower case, with a single point at its end. -/
structure IsAlias (value : String) (parts : List (List Char)) : Prop where
  lowered : Text.lower value = value
  pointed : value.toList.getLast? = some '.'
  once : (withoutPoint value).toList.getLast? ≠ some '.'
  filled : [] ∉ parts
  labelled : labels value.toList = parts

inductive Canonical (zone : Zone) (target : String) : RecordType → String → Prop
  | address (read : Ipv4.parse? (Text.trim target) = some ip) (same : Ipv4.parse? value = some ip) :
      Canonical zone target .address value
  | alias (spelled : IsAlias value (targetLabels zone target)) :
      Canonical zone target .canonicalName value

variable {zone : Zone} {id name target bare value : String} {type : RecordType}

/-! ### Texts that end in a point -/

/-- A pointed text is read as a name if there is a point inside it. -/
theorem classifyTarget_pointed_iff (unblank : ∀ c ∈ bare.toList, Text.isBlank c = false)
    (lowered : Text.lower bare = bare) (inside : '.' ∈ bare.toList) :
    classifyTarget zone (bare ++ ".") = .ok (.canonicalName, bare ++ ".") ↔
      isName bare = true := by
  have trimmed : Text.trim (bare ++ ".") = bare ++ "." := by
    refine Text.trim_eq_self ?_
    rw [String.toList_append, List.forall_mem_append]
    exact ⟨unblank, List.forall_mem_singleton.mpr (by decide)⟩
  have nonempty : ¬(bare ++ "." = "" ∨ bare ++ "." = ".") := by
    rintro (empty | alone)
    · simpa using congrArg String.toList empty
    · have gone : bare.toList = [] := by simpa using congrArg String.toList alone
      rw [gone] at inside
      cases inside
  have unparsed : Ipv4.parse? (bare ++ ".") = none := Ipv4.parse?_of_getLast? (getLast?_append_point bare)
  simp only [classifyTarget, trimmed, Bool.or_eq_true, decide_eq_true_eq, if_neg nonempty, unparsed,
    withoutPoint_append_point, lowered, List.contains_iff_mem.mpr inside]
  cases isName bare with
  | true => simp [qualified, lowered]
  | false => simp

/-! ### Addresses -/

theorem isBlank_of_mem_address (ip : Ipv4) : ∀ c ∈ ip.text.toList, Text.isBlank c = false := by
  have digits (n : Nat) : ∀ c ∈ Text.natChars n, Text.isBlank c = false := by
    intro c member
    have digit := Text.isDigit_of_mem_natChars member
    exact (isLabelChar_plain (by simp [isLabelChar, Char.isAlphanum, digit])).2
  have point : Text.isBlank '.' = false := by decide
  simp only [Ipv4.text, String.toList_ofList, Ipv4.chars, List.forall_mem_append,
    List.forall_mem_cons]
  exact ⟨⟨⟨digits _, point, digits _⟩, point, digits _⟩, point, digits _⟩

theorem byteLength_address (ip : Ipv4) : Text.byteLength ip.text.toList ≤ 15 := by
  have short (n : UInt8) : Text.byteLength (Text.natChars n.toNat) ≤ 3 := by
    have all : ∀ k < 256, Text.byteLength (Text.natChars k) ≤ 3 := by decide +kernel
    exact all n.toNat n.toNat_lt
  have a := short ip.a
  have b := short ip.b
  have c := short ip.c
  have d := short ip.d
  have point : Char.utf8Size '.' = 1 := by decide
  simp only [Ipv4.text, String.toList_ofList, Ipv4.chars, Text.byteLength_append, Text.byteLength,
    point]
  omega

theorem classifyTarget_address (zone : Zone) (ip : Ipv4) :
    classifyTarget zone ip.text = .ok (.address, ip.text) := by
  have read := Ipv4.parse?_text ip
  have nonempty : ¬(ip.text = "" ∨ ip.text = ".") := by
    rintro (empty | alone)
    · rw [empty] at read
      cases read
    · rw [alone] at read
      cases read
  simp only [classifyTarget, Text.trim_eq_self (isBlank_of_mem_address ip), Bool.or_eq_true,
    decide_eq_true_eq, if_neg nonempty, read]

/-! ### Labels -/

theorem Zone.name_named (id : String) (valid : isName name = true) :
    (Zone.named id name).name = Text.lower (withoutPoint name) := by
  have plain := trimEndOf_plain (withoutPoint_pointless valid)
  by_cases last : name.toList.getLast? = some '.'
  · have trimmed : Text.trimEndOf '.' name = withoutPoint name := by
      nth_rewrite 1 [eq_withoutPoint_append last]
      rw [trimEndOf_append_point, plain]
    rw [Zone.named, trimmed]
  · rw [withoutPoint_of_pointless last] at plain ⊢
    rw [Zone.named, plain]

theorem Zone.isName_named (id : String) (valid : isName name = true) :
    isName (Zone.named id name).name = true ∧
      Text.lower (Zone.named id name).name = (Zone.named id name).name ∧
      (Zone.named id name).name.toList.getLast? ≠ some '.' := by
  rw [Zone.name_named id valid]
  exact ⟨isName_lower_withoutPoint valid, Text.lower_lower _,
    mt (Text.getLast?_lower_eq_iff (by decide)).mp (withoutPoint_pointless valid)⟩

theorem getLast?_under {domain : String} (valid : isName domain = true)
    (pointless : domain.toList.getLast? ≠ some '.') (label : String) :
    (label ++ "." ++ domain).toList.getLast? ≠ some '.' := by
  have nonempty : domain.toList ≠ [] := by
    intro empty
    rw [String.toList_eq_nil_iff] at empty
    exact absurd (empty ▸ valid) (by decide)
  rwa [String.toList_append, List.getLast?_append_of_ne_nil _ nonempty]

theorem fields_under {label : String} (labelled : isLabel label = true) (domain : String) :
    Text.fields '.' (label ++ "." ++ domain).toList =
      label.toList :: Text.fields '.' domain.toList := by
  rw [String.toList_append, String.toList_append, List.append_assoc,
    show ".".toList ++ domain.toList = '.' :: domain.toList from rfl, Text.fields_append_cons,
    Text.fields_of_not_mem (not_mem_of_isLabel labelled)]
  rfl

theorem byteLength_under (label domain : String) :
    Text.byteLength (label ++ "." ++ domain).toList =
      Text.byteLength label.toList + 1 + Text.byteLength domain.toList := by
  have point : Text.byteLength ".".toList = 1 := by decide
  rw [String.toList_append, String.toList_append, Text.byteLength_append, Text.byteLength_append,
    point]

theorem lower_under {label domain : String} (lowered : Text.lower label = label)
    (domainLowered : Text.lower domain = domain) :
    Text.lower (label ++ "." ++ domain) = label ++ "." ++ domain := by
  have first := congrArg String.toList lowered
  have second := congrArg String.toList domainLowered
  rw [Text.toList_lower] at first second
  apply String.toList_inj.mp
  simp [first, second, Text.toLower_of_not_isAlpha]

theorem isName_under_iff {label domain : String} (labelled : isLabel label = true)
    (valid : isName domain = true) (pointless : domain.toList.getLast? ≠ some '.') :
    isName (label ++ "." ++ domain) = true ↔
      Text.byteLength (label ++ "." ++ domain).toList ≤ 255 := by
  refine ⟨isName_short, fun short => ?_⟩
  obtain ⟨several, fit⟩ := isName_labels valid
  have long := Nat.le_trans (three_le_length_withoutPoint valid) (Text.length_le_byteLength _)
  have last := @isName_last _ valid
  rw [withoutPoint_of_pointless pointless] at several fit long last
  have longer := byteLength_under label domain
  simp only [isName, isNameChars, labels_toList,
    withoutPoint_of_pointless (getLast?_under valid pointless label), fields_under labelled, Bool.and_eq_true, decide_eq_true_eq, List.length_cons, List.all_cons]
  refine ⟨⟨⟨⟨by omega, short⟩, by omega⟩, ?_⟩, labelled, List.all_eq_true.mpr fit⟩
  cases found : (Text.fields '.' domain.toList).getLast? with
  | none =>
      rw [List.getLast?_eq_none_iff] at found
      exact absurd found (Text.fields_ne_nil _ _)
  | some other => simp [List.getLast?_cons, found, last found]

theorem parse?_of_isLabel {label : String} (labelled : isLabel label = true) :
    Ipv4.parse? label = none := by
  rw [Ipv4.parse?, Ipv4.ofChars?, Text.fields_of_not_mem (not_mem_of_isLabel labelled)]
  cases octet : Ipv4.octet? label.toList <;> simp [octet]

theorem classifyTarget_of_isLabel {label : String} (labelled : isLabel label = true)
    (lowered : Text.lower label = label) (zone : Zone) :
    classifyTarget zone label = .ok (.canonicalName, label ++ "." ++ zone.apex) := by
  obtain ⟨nonempty, plain⟩ := isLabel_plain labelled
  have absent := not_mem_of_isLabel labelled
  have noPoint : label ≠ "." := by
    intro same
    rw [same] at absent
    exact absurd absent (by decide)
  have pointless : withoutPoint label = label :=
    withoutPoint_of_pointless fun last => absent (List.mem_of_getLast? last)
  simp [classifyTarget, Text.trim_eq_self fun c member => (plain c member).2, nonempty, noPoint,
    parse?_of_isLabel labelled, pointless, lowered, absent, labelled]

/-! ### What is accepted -/

theorem not_pointed_of_parse? {ip : Ipv4} (parsed : Ipv4.parse? (Text.trim target) = some ip) :
    (withoutPoint (Text.trim target)).toList.getLast? ≠ some '.' := by
  have plain : (Text.trim target).toList.getLast? ≠ some '.' := by
    intro last
    rw [Ipv4.parse?_of_getLast? last] at parsed
    cases parsed
  rwa [withoutPoint_of_pointless plain]

section Alias

variable (spelled : bare = Text.lower (withoutPoint (Text.trim target)))
include spelled

theorem lower_of_spelled : Text.lower bare = bare := by
  rw [spelled, Text.lower_lower]

theorem point_mem_iff :
    '.' ∈ bare.toList ↔ '.' ∈ (withoutPoint (Text.trim target)).toList := by
  simp [spelled, Text.toList_lower, Text.toLower_eq_iff]

theorem targetLabels_eq : targetLabels zone target = Text.fields '.' bare.toList ++
    if '.' ∈ bare.toList then [] else labels zone.name.toList := by
  have own : (labels (Text.trim target).toList).map (·.map Char.toLower) =
      Text.fields '.' bare.toList := by
    rw [labels_toList, ← Text.fields_map_toLower (by decide), ← Text.toList_lower, spelled]
  rw [targetLabels, own]
  simp only [point_mem_iff spelled]

theorem isAlias_label (labelled : isLabel bare = true) (valid : isName zone.name = true)
    (lowered : Text.lower zone.name = zone.name)
    (pointless : zone.name.toList.getLast? ≠ some '.') :
    IsAlias (bare ++ "." ++ zone.name ++ ".") (targetLabels zone target) := by
  have absent := not_mem_of_isLabel labelled
  have parts : targetLabels zone target = bare.toList :: Text.fields '.' zone.name.toList := by
    rw [targetLabels_eq spelled, Text.fields_of_not_mem absent, if_neg absent, labels_toList,
      withoutPoint_of_pointless pointless]
    rfl
  have fit := (isName_labels valid).2
  rw [withoutPoint_of_pointless pointless] at fit
  rw [parts]
  constructor
  case lowered => rw [lower_append_point, lower_under (lower_of_spelled spelled) lowered]
  case pointed => exact getLast?_append_point _
  case once =>
    rw [withoutPoint_append_point]
    exact getLast?_under valid pointless bare
  case filled =>
    rw [List.mem_cons, not_or]
    exact ⟨(isLabelChars_plain labelled).1.symm, fun empty => absurd (fit [] empty) (by decide)⟩
  case labelled =>
    rw [labels_toList, withoutPoint_append_point, fields_under labelled]

theorem isAlias_name_iff (valid : isName bare = true) :
    IsAlias (bare ++ ".") (targetLabels zone target) ↔ bare.toList.getLast? ≠ some '.' := by
  constructor
  · intro written
    have once := written.once
    rwa [withoutPoint_append_point] at once
  · intro pointless
    have inside := point_mem_withoutPoint valid
    have fit := (isName_labels valid).2
    rw [withoutPoint_of_pointless pointless] at inside fit
    have parts : targetLabels zone target = Text.fields '.' bare.toList := by
      rw [targetLabels_eq spelled, if_pos inside, List.append_nil]
    rw [parts]
    constructor
    case lowered => rw [lower_append_point, lower_of_spelled spelled]
    case pointed => exact getLast?_append_point _
    case once => rwa [withoutPoint_append_point]
    case filled => exact fun empty => absurd (fit [] empty) (by decide)
    case labelled => rw [labels_toList, withoutPoint_append_point]

end Alias

theorem completed_eq (bare : String) (zone : Zone) :
    bare ++ "." ++ zone.apex = bare ++ "." ++ zone.name ++ "." := by
  simp [Zone.apex, String.append_assoc]

theorem canonical_iff (valid : isName name = true)
    (accepted : classifyTarget (.named id name) target = .ok (type, value)) :
    Canonical (.named id name) target type value ↔
      (withoutPoint (Text.trim target)).toList.getLast? ≠ some '.' := by
  obtain ⟨zoneValid, zoneLowered, zonePointless⟩ := Zone.isName_named id valid
  cases classifyTarget_ok accepted with
  | address parsed =>
      exact iff_of_true (.address parsed (Ipv4.parse?_text _)) (not_pointed_of_parse? parsed)
  | label unparsed spelled labelled =>
      have absent : '.' ∉ (withoutPoint (Text.trim target)).toList := by
        rw [← point_mem_iff spelled]
        exact not_mem_of_isLabel labelled
      refine iff_of_true ?_ fun last => absent (List.mem_of_getLast? last)
      rw [completed_eq]
      exact .alias (isAlias_label spelled labelled zoneValid zoneLowered zonePointless)
  | name unparsed spelled named =>
      have point : '.'.isAlpha = false := by decide
      rw [ne_eq, ← Text.getLast?_lower_eq_iff point, ← spelled, ← ne_eq,
        ← isAlias_name_iff spelled named, qualified, lower_of_spelled spelled]
      refine ⟨fun canonical => ?_, .alias⟩
      cases canonical
      assumption

theorem classifyTarget_value_iff (valid : isName name = true)
    (accepted : classifyTarget (.named id name) target = .ok (type, value)) :
    classifyTarget (.named id name) value = .ok (type, value) ↔
      ('.' ∉ (withoutPoint (Text.trim target)).toList →
        Text.byteLength (withoutPoint value).toList ≤ 255) := by
  obtain ⟨zoneValid, zoneLowered, zonePointless⟩ := Zone.isName_named id valid
  cases classifyTarget_ok accepted with
  | address parsed =>
      rename_i ip
      have short := Nat.le_trans (byteLength_withoutPoint_le ip.text) (byteLength_address ip)
      exact iff_of_true (classifyTarget_address _ ip) fun _ => by omega
  | label unparsed spelled labelled =>
      rename_i bare
      obtain ⟨_, plain⟩ := isLabel_plain labelled
      -- A label is the one target without a point, and the only one that can become too long.
      have absent : '.' ∉ (withoutPoint (Text.trim target)).toList := by
        rw [← point_mem_iff spelled]
        exact not_mem_of_isLabel labelled
      have unblank : ∀ c ∈ (bare ++ "." ++ (Zone.named id name).name).toList,
          Text.isBlank c = false := by
        simp only [String.toList_append, List.forall_mem_append]
        exact ⟨⟨fun c member => (plain c member).2, List.forall_mem_singleton.mpr (by decide)⟩,
          isBlank_of_mem_name zoneValid⟩
      rw [completed_eq, classifyTarget_pointed_iff unblank
          (lower_under (lower_of_spelled spelled) zoneLowered) (by simp),
        isName_under_iff labelled zoneValid zonePointless, withoutPoint_append_point]
      exact ⟨fun short _ => short, fun short => short absent⟩
  | name unparsed spelled named =>
      rename_i bare
      have lowered := lower_of_spelled spelled
      have inside : '.' ∈ bare.toList := by
        have point := point_mem_withoutPoint named
        rw [toList_withoutPoint] at point
        split at point
        · exact List.mem_of_mem_dropLast point
        · exact point
      rw [qualified, lowered, classifyTarget_pointed_iff (isBlank_of_mem_name named) lowered inside,
        withoutPoint_append_point]
      exact iff_of_true named fun _ => isName_short named

/-- What a target is classified as is spelled in the one way, unless the target has two points at
its end, and is classified as it stands, unless a label is completed to too long a name. -/
theorem classifyTarget_canonical_iff (valid : isName name = true)
    (accepted : classifyTarget (.named id name) target = .ok (type, value)) :
    (Canonical (.named id name) target type value ↔
      (withoutPoint (Text.trim target)).toList.getLast? ≠ some '.') ∧
    (classifyTarget (.named id name) value = .ok (type, value) ↔
      ('.' ∉ (withoutPoint (Text.trim target)).toList →
        Text.byteLength (withoutPoint value).toList ≤ 255)) :=
  ⟨canonical_iff valid accepted, classifyTarget_value_iff valid accepted⟩

theorem paddedLabel_canonical :
    let zone := Zone.named "z1" "Example.com."
    classifyTarget zone " NAS. " = .ok (.canonicalName, "nas.example.com.") ∧
      Canonical zone " NAS. " .canonicalName "nas.example.com." ∧
      classifyTarget zone "nas.example.com." = .ok (.canonicalName, "nas.example.com.") := by
  have valid : isName "Example.com." = true := by decide
  have accepted : classifyTarget (.named "z1" "Example.com.") " NAS. " =
      .ok (.canonicalName, "nas.example.com.") := by decide +kernel
  obtain ⟨canonical, again⟩ := classifyTarget_canonical_iff valid accepted
  exact ⟨accepted, canonical.mpr (by decide +kernel), again.mpr fun _ => by decide +kernel⟩

/-! ### Targets that are spelled otherwise -/

theorem doublyPointed_accepted : classifyTarget (.named "z1" "example.com") "hub.example.com.." =
    .ok (.canonicalName, "hub.example.com..") := by
  decide +kernel

def longLabel : String := .ofList (List.replicate 63 'a')

/-- A name that leaves no room for another label of this length. -/
def longName : String :=
  longLabel ++ "." ++ (longLabel ++ "." ++ (longLabel ++ "." ++ "example.com"))

theorem toList_longLabel : longLabel.toList = List.replicate 63 'a' :=
  String.toList_ofList

theorem byteLength_longLabel : Text.byteLength longLabel.toList = 63 := by
  rw [toList_longLabel, Text.byteLength_replicate]
  rfl

theorem longLabel_isLabel : isLabel longLabel = true := by
  rw [isLabel, toList_longLabel]
  decide

theorem longName_isName : isName longName = true ∧ longName.toList.getLast? ≠ some '.' ∧
    Text.byteLength longName.toList = 203 := by
  have short : Text.byteLength "example.com".toList = 11 := by decide
  have extend {domain : String} {n : Nat} (named : isName domain = true ∧
      domain.toList.getLast? ≠ some '.' ∧ Text.byteLength domain.toList = n) (room : n < 192) :
      isName (longLabel ++ "." ++ domain) = true ∧
        (longLabel ++ "." ++ domain).toList.getLast? ≠ some '.' ∧
        Text.byteLength (longLabel ++ "." ++ domain).toList = 64 + n := by
    obtain ⟨valid, pointless, length⟩ := named
    have longer := byteLength_under longLabel domain
    rw [byteLength_longLabel, length] at longer
    rw [isName_under_iff longLabel_isLabel valid pointless, longer]
    exact ⟨by omega, getLast?_under valid pointless _, rfl⟩
  exact extend (extend (extend ⟨by decide, by decide, short⟩ (by decide)) (by decide)) (by decide)

theorem longLabel_accepted : classifyTarget (.named "z1" longName) longLabel =
    .ok (.canonicalName, longLabel ++ "." ++ (Zone.named "z1" longName).apex) := by
  refine classifyTarget_of_isLabel longLabel_isLabel ?_ _
  rw [← String.toList_inj, Text.toList_lower, toList_longLabel]
  decide

/-- Two points at the end are kept, and a label in a zone with a long name becomes a name that is
too long. -/
theorem spellings_refuted :
    (∃ (name target : String) (type : RecordType) (value : String), isName name = true ∧
      classifyTarget (.named "z1" name) target = .ok (type, value) ∧
      ¬Canonical (.named "z1" name) target type value) ∧
    ∃ (name target : String) (type : RecordType) (value : String), isName name = true ∧
      classifyTarget (.named "z1" name) target = .ok (type, value) ∧
      classifyTarget (.named "z1" name) value ≠ .ok (type, value) := by
  refine ⟨⟨_, _, _, _, by decide, doublyPointed_accepted, fun canonical => ?_⟩,
    ⟨_, _, _, _, longName_isName.1, longLabel_accepted, fun again => ?_⟩⟩
  · rw [canonical_iff (by decide) doublyPointed_accepted] at canonical
    exact canonical (by decide +kernel)
  · rw [classifyTarget_value_iff longName_isName.1 longLabel_accepted, completed_eq,
      withoutPoint_append_point, byteLength_under, Zone.name_named "z1" longName_isName.1,
      withoutPoint_of_pointless longName_isName.2.1, Text.toList_lower, Text.byteLength_map_toLower,
      longName_isName.2.2, byteLength_longLabel] at again
    refine absurd (again ?_) (by decide)
    have absent := not_mem_of_isLabel longLabel_isLabel
    rwa [Text.trim_eq_self fun c member => ((isLabel_plain longLabel_isLabel).2 c member).2,
      withoutPoint_of_pointless fun last => absent (List.mem_of_getLast? last)]

end HubKeeper.Dns
