import HubKeeper.Dns.Reconciliation
import HubKeeper.Proofs.Text.Basic

/-!
Names in the one spelling in which names are compared: lower case, and one point at
the end.
-/

namespace HubKeeper.Dns

theorem eq_withoutPoint_append {s : String} (last : s.toList.getLast? = some '.') :
    s = withoutPoint s ++ "." := by
  obtain ⟨start, split⟩ := List.getLast?_eq_some_iff.mp last
  apply String.toList_inj.mp
  rw [withoutPoint, if_pos last, split]
  simp

theorem toList_withoutPoint (s : String) : (withoutPoint s).toList =
    if s.toList.getLast? = some '.' then s.toList.dropLast else s.toList := by
  rw [withoutPoint]
  split <;> simp

theorem withoutPoint_of_pointless {s : String} (pointless : s.toList.getLast? ≠ some '.') :
    withoutPoint s = s := by
  rw [withoutPoint, if_neg pointless]

theorem getLast?_append_point (bare : String) : (bare ++ ".").toList.getLast? = some '.' := by
  simp

theorem withoutPoint_append_point (bare : String) : withoutPoint (bare ++ ".") = bare := by
  apply String.toList_inj.mp
  rw [toList_withoutPoint, if_pos (getLast?_append_point bare)]
  simp

theorem lower_append_point (s : String) : Text.lower (s ++ ".") = Text.lower s ++ "." := by
  apply String.toList_inj.mp
  simp [Text.toLower_of_not_isAlpha]

theorem qualified_eq_lower (bare : String) : qualified bare = Text.lower (bare ++ ".") :=
  (lower_append_point bare).symm

theorem toList_qualified (bare : String) :
    (qualified bare).toList = (Text.lower bare).toList ++ ['.'] := by
  simp [qualified]

/-! ### Points at the end do not count -/

theorem trimEndOf_append_point (name : String) :
    Text.trimEndOf '.' (name ++ ".") = Text.trimEndOf '.' name := by
  apply String.toList_inj.mp
  rw [Text.toList_trimEndOf, Text.toList_trimEndOf, String.toList_append,
    show ".".toList = ['.'] from rfl, Text.dropEndWhile_concat, if_pos (by decide)]

theorem comparableName_append_point (name : String) :
    comparableName (name ++ ".") = comparableName name := by
  rw [comparableName, trimEndOf_append_point, comparableName]

theorem trimEndOf_plain {s : String} (plain : s.toList.getLast? ≠ some '.') :
    Text.trimEndOf '.' s = s := by
  apply String.toList_inj.mp
  rw [Text.toList_trimEndOf]
  refine Text.dropEndWhile_of_getLast? fun c last => ?_
  have pointless : c ≠ '.' := by
    rintro rfl
    exact plain last
  simpa using pointless

theorem trimEndOf_trimEndOf (s : String) :
    Text.trimEndOf '.' (Text.trimEndOf '.' s) = Text.trimEndOf '.' s := by
  apply String.toList_inj.mp
  simp only [Text.toList_trimEndOf]
  induction s.toList using List.reverseRecOn with
  | nil => rfl
  | append_singleton cs c ih =>
      rw [Text.dropEndWhile_concat]
      split
      · exact ih
      · rename_i kept
        rw [Text.dropEndWhile_concat, if_neg kept]

section Plain

variable {bare : String} (plain : bare.toList.getLast? ≠ some '.')
include plain

theorem trimEndOf_qualified : Text.trimEndOf '.' (qualified bare) = Text.lower bare := by
  rw [qualified, trimEndOf_append_point]
  exact trimEndOf_plain fun last => plain ((Text.getLast?_lower_eq_iff (by decide)).mp last)

theorem comparableName_qualified : comparableName (qualified bare) = qualified bare := by
  rw [comparableName, trimEndOf_qualified plain, qualified, qualified, Text.lower_lower]

end Plain

/-! ### Managed names -/

/-- What is left of a name to manage: lower case, no blanks around it, no point at its end. -/
def bareName (name : String) : String :=
  Text.lower (withoutPoint (Text.trim name))

theorem normalizeName_ok_iff {name fqdn : String} :
    normalizeName name = .ok fqdn ↔ fqdn = qualified (bareName name) ∧
      minLabels ≤ (Text.fields '.' (bareName name).toList).length ∧
      ∀ label ∈ Text.fields '.' (bareName name).toList, isLabelChars label = true := by
  have fit : (Text.splitOn '.' (bareName name)).find? (fun label => !isLabel label) = none ↔
      ∀ label ∈ Text.fields '.' (bareName name).toList, isLabelChars label = true := by
    simp [Text.splitOn, List.find?_eq_none, isLabel]
  have count : (Text.splitOn '.' (bareName name)).length =
      (Text.fields '.' (bareName name).toList).length := List.length_map _
  rw [← fit, ← count, bareName]
  constructor
  · intro accepted
    simp only [normalizeName] at accepted
    split at accepted
    · cases accepted
    · split at accepted
      · cases accepted
      · rename_i unfit
        split at accepted
        · cases accepted
        · rename_i enough
          exact ⟨(Except.ok.inj accepted).symm, Nat.le_of_not_lt enough, unfit⟩
  · rintro ⟨rfl, enough, labels⟩
    -- The two checks on the name as a whole follow from those on its labels.
    have started : ¬(bareName name = "" ∨ (bareName name).toList.head? = some '.') := by
      have filled : [] ∉ Text.fields '.' (bareName name).toList := fun empty =>
        absurd (fit.mp labels [] empty) (by decide)
      rintro (empty | point)
      · rw [empty] at filled
        exact filled (List.mem_singleton_self _)
      · obtain ⟨rest, chars⟩ := List.head?_eq_some_iff.mp point
        rw [chars, Text.fields, if_pos rfl] at filled
        exact filled List.mem_cons_self
    rw [bareName] at started
    simp only [normalizeName, Bool.or_eq_true, decide_eq_true_eq, if_neg started, labels,
      if_neg (Nat.not_lt.mpr enough)]

theorem normalizeName_plain {name fqdn : String} (accepted : normalizeName name = .ok fqdn) :
    ∃ bare, fqdn = qualified bare ∧ bare.toList.getLast? ≠ some '.' ∧ '.' ∈ bare.toList := by
  obtain ⟨rfl, enough, labels⟩ := normalizeName_ok_iff.mp accepted
  refine ⟨_, rfl, fun last => ?_, ?_⟩
  · exact absurd (labels [] (Text.nil_mem_fields_of_getLast? last)) (by decide)
  · by_contra absent
    rw [Text.fields_of_not_mem absent] at enough
    simp [minLabels] at enough

/-- The name that is managed is in the spelling in which names are compared. -/
theorem comparableName_normalizeName {name fqdn : String}
    (accepted : normalizeName name = .ok fqdn) : comparableName fqdn = fqdn := by
  obtain ⟨bare, rfl, plain, _⟩ := normalizeName_plain accepted
  exact comparableName_qualified plain

/-! ### Targets -/

theorem not_mem_of_isLabel {bare : String} (accepted : isLabel bare = true) :
    '.' ∉ bare.toList := by
  intro member
  simp only [isLabel, isLabelChars, Bool.and_eq_true, List.all_eq_true] at accepted
  exact absurd (accepted.2 '.' member) (by decide)

/-- How a target is read: as an address, a label in the zone or a name. -/
inductive Classified (zone : Zone) (target : String) : RecordType → String → Prop
  | address (parsed : Ipv4.parse? (Text.trim target) = some ip) :
      Classified zone target .address ip.text
  | label (unparsed : Ipv4.parse? (Text.trim target) = none)
      (spelled : bare = Text.lower (withoutPoint (Text.trim target)))
      (accepted : isLabel bare = true) :
      Classified zone target .canonicalName (bare ++ "." ++ zone.apex)
  | name (unparsed : Ipv4.parse? (Text.trim target) = none)
      (spelled : bare = Text.lower (withoutPoint (Text.trim target)))
      (accepted : isName bare = true) :
      Classified zone target .canonicalName (qualified bare)

theorem classifyTarget_ok (accepted : classifyTarget zone target = .ok (type, value)) :
    Classified zone target type value := by
  simp only [classifyTarget] at accepted
  split at accepted
  · cases accepted
  · split at accepted
    · rename_i parsed
      cases accepted
      exact .address parsed
    · rename_i unparsed
      split at accepted
      · split at accepted
        · rename_i fits
          cases accepted
          exact .label unparsed rfl fits
        · cases accepted
      · split at accepted
        · rename_i fits
          cases accepted
          exact .name unparsed rfl fits
        · cases accepted

end HubKeeper.Dns
