import HubKeeper.Proofs.Dns.SelfAlias
import HubKeeper.Proofs.Dns.Placement

/-!
The zone in which a name is managed.

A zone lies around a name if its labels are the last labels of the name.  Testing for an
ending of the text comes to the same, because a point has to stand before the ending; and of
two zones around one name, the one with the longer text is the one with more labels.
-/

namespace HubKeeper.Dns

namespace Zone

def labels (zone : Zone) : List (List Char) :=
  Text.fields '.' zone.name.toList

/-- The labels of the zone are the last ones of the name. -/
def Encloses (zone : Zone) (name : String) : Prop :=
  zone.labels <:+ Dns.labels name.toList

instance (zone : Zone) (name : String) : Decidable (zone.Encloses name) :=
  inferInstanceAs (Decidable (_ <:+ _))

/-- Of the zones around a name, this one has the most labels. -/
structure IsLongest (zones : List Zone) (name : String) (zone : Zone) : Prop where
  listed : zone ∈ zones
  encloses : zone.Encloses name
  longest : ∀ other ∈ zones, other.Encloses name → other ≠ zone →
    other.labels.length < zone.labels.length

variable {zone other : Zone} {bare name fqdn : String}

theorem labels_qualified (bare : String) :
    Dns.labels (qualified bare).toList = Text.fields '.' (Text.lower bare).toList := by
  rw [Dns.labels, toList_qualified, if_pos (by simp), List.dropLast_concat]

section Normalized

variable (normalized : normalizeName name = .ok fqdn)
include normalized

/-- The zones that are considered are those whose labels the name ends in. -/
theorem contains_iff_encloses : zone.contains fqdn = true ↔ zone.Encloses fqdn := by
  obtain ⟨bare, rfl, plain, _⟩ := normalizeName_plain normalized
  rw [contains_qualified_iff plain, Encloses, labels_qualified, labels, Text.fields_suffix_iff]

theorem apex_eq_iff : zone.apex = fqdn ↔ zone.labels = Dns.labels fqdn.toList := by
  obtain ⟨bare, rfl, _⟩ := normalizeName_plain normalized
  rw [labels_qualified, labels, apex, qualified, String.append_left_inj]
  exact ⟨fun same => by rw [same], fun same => String.toList_inj.mp (Text.fields_injective same)⟩

end Normalized

theorem byteLength_lt_of_labels (inside : zone.labels <:+ other.labels)
    (different : zone.name ≠ other.name) :
    Text.byteLength zone.name.toList < Text.byteLength other.name.toList := by
  rcases Text.fields_suffix_iff.mp inside with same | ⟨before, parts⟩
  · exact absurd (String.toList_inj.mp same).symm different
  · rw [parts, Text.byteLength_append, Text.byteLength]
    have positive : 0 < '.'.utf8Size := by decide
    omega

/-- Of two zones around a name, the one whose name is not shorter has more labels. -/
theorem labels_lt_of_byteLength_le (encloses : zone.Encloses name)
    (otherEncloses : other.Encloses name) (different : other.name ≠ zone.name)
    (shorter : Text.byteLength other.name.toList ≤ Text.byteLength zone.name.toList) :
    other.labels.length < zone.labels.length := by
  rcases List.suffix_or_suffix_of_suffix encloses otherEncloses with around | within
  · have longer := byteLength_lt_of_labels around (Ne.symm different)
    omega
  · refine Nat.lt_of_le_of_ne within.length_le fun same => different ?_
    exact String.toList_inj.mp (Text.fields_injective (within.eq_of_length same))

end Zone

theorem longest?_eq_none {zones : List Zone} : longest? zones = none ↔ zones = [] := by
  cases zones with
  | nil => simp [longest?]
  | cons first rest =>
      simp only [longest?]
      split
      · simp
      · split <;> simp

theorem byteLength_le_of_longest? {zones : List Zone} {zone : Zone}
    (longest : longest? zones = some zone) :
    ∀ other ∈ zones, Text.byteLength other.name.toList ≤ Text.byteLength zone.name.toList := by
  induction zones generalizing zone with
  | nil => cases longest
  | cons first rest ih =>
      simp only [longest?] at longest
      split at longest
      · rename_i nothing
        cases longest
        simp [longest?_eq_none.mp nothing]
      · rename_i best found
        have within := ih found
        split at longest
        · rename_i longer
          cases longest
          intro other member
          rcases List.mem_cons.mp member with rfl | member
          · exact Nat.le_refl _
          · exact Nat.le_trans (within other member) (Nat.le_of_lt longer)
        · rename_i notLonger
          cases longest
          intro other member
          rcases List.mem_cons.mp member with rfl | member
          · exact Nat.le_of_not_lt notLonger
          · exact within other member

section Choice

variable {name fqdn : String} {zones : List Zone} {zone : Zone}
variable (normalized : normalizeName name = .ok fqdn) (distinct : (zones.map (·.name)).Nodup)
include normalized

theorem mem_around_iff :
    zone ∈ zones.filter (fun zone => zone.contains fqdn) ↔ zone ∈ zones ∧ zone.Encloses fqdn := by
  rw [List.mem_filter, Zone.contains_iff_encloses normalized]

theorem longest?_around_eq_none_iff :
    longest? (zones.filter fun zone => zone.contains fqdn) = none ↔
      ∀ zone ∈ zones, ¬ zone.Encloses fqdn := by
  rw [longest?_eq_none, List.filter_eq_nil_iff]
  simp only [Zone.contains_iff_encloses normalized]

include distinct

theorem longest?_around_iff :
    longest? (zones.filter fun zone => zone.contains fqdn) = some zone ↔
      zone.IsLongest zones fqdn := by
  have isLongest {chosen : Zone}
      (found : longest? (zones.filter fun zone => zone.contains fqdn) = some chosen) :
      chosen.IsLongest zones fqdn := by
    obtain ⟨listed, encloses⟩ := (mem_around_iff normalized).mp (mem_of_longest? found)
    refine ⟨listed, encloses, fun other member around different => ?_⟩
    have unlike : other.name ≠ chosen.name := fun same =>
      different (List.inj_on_of_nodup_map distinct member listed same)
    exact Zone.labels_lt_of_byteLength_le encloses around unlike
      (byteLength_le_of_longest? found other ((mem_around_iff normalized).mpr ⟨member, around⟩))
  refine ⟨isLongest, fun longest => ?_⟩
  cases found : longest? (zones.filter fun zone => zone.contains fqdn) with
  | none =>
      exact absurd longest.encloses
        ((longest?_around_eq_none_iff normalized).mp found zone longest.listed)
  | some chosen =>
      have best := isLongest found
      by_contra different
      have unlike : chosen ≠ zone := fun same => different (by rw [same])
      have more := longest.longest chosen best.listed best.encloses unlike
      have less := best.longest zone longest.listed longest.encloses (Ne.symm unlike)
      omega

theorem isLongest_iff_eq {best : Zone} (longest : best.IsLongest zones fqdn) :
    zone.IsLongest zones fqdn ↔ zone = best := by
  rw [← longest?_around_iff normalized distinct,
    (longest?_around_iff normalized distinct).mpr longest, Option.some.injEq, eq_comm]

theorem chooseZone_of_isLongest (longest : zone.IsLongest zones fqdn) :
    chooseZone zones fqdn =
      if zone.labels = labels fqdn.toList then
        .error (.invalidInput ("'" ++ fqdn ++ "' is the apex of zone " ++ zone.name ++
          "; refusing to manage it"))
      else .ok zone := by
  rw [chooseZone, (longest?_around_iff normalized distinct).mpr longest]
  simp only [Zone.apex_eq_iff normalized]

omit distinct in
theorem chooseZone_outside (outside : ∀ zone ∈ zones, ¬ zone.Encloses fqdn) :
    chooseZone zones fqdn = .error (.zoneNotFound fqdn) := by
  rw [chooseZone, (longest?_around_eq_none_iff normalized).mpr outside]

end Choice

/-- The zone of a name is the one around it with the most labels.  It is refused where its
labels are all the labels of the name, and there is none where no zone lies around the name. -/
theorem findZone_longest {service : Service σ} {state : σ} {name fqdn : String}
    {zones : List Zone} (normalized : normalizeName name = .ok fqdn)
    (listed : (service .listZones state).1 = .ok zones)
    (distinct : (zones.map (·.name)).Nodup) :
    (∀ zone : Zone, zone.contains fqdn = true ↔ zone.Encloses fqdn) ∧
    (∀ zone : Zone, ((Reconciliation.findZone fqdn).run service state).result = .ok zone ↔
      zone.IsLongest zones fqdn ∧ zone.labels ≠ labels fqdn.toList) ∧
    (((Reconciliation.findZone fqdn).run service state).result = .error (.zoneNotFound fqdn) ↔
      ∀ zone ∈ zones, ¬ zone.Encloses fqdn) ∧
    ((∃ reason, ((Reconciliation.findZone fqdn).run service state).result =
        .error (.invalidInput reason)) ↔
      ∃ zone : Zone, zone.IsLongest zones fqdn ∧ zone.labels = labels fqdn.toList) := by
  have chosen : ((Reconciliation.findZone fqdn).run service state).result =
      chooseZone zones fqdn := by
    have answered : ((Dialogue.call .listZones).run service state).result = .ok zones := by
      rw [Dialogue.run_call, listed]
    rw [Reconciliation.findZone, Dialogue.bind_result_of_ok answered]
    rfl
  refine ⟨fun zone => Zone.contains_iff_encloses normalized, ?_⟩
  rw [chosen]
  -- With distinct names there is at most one zone with the most labels.
  cases found : longest? (zones.filter fun zone => zone.contains fqdn) with
  | none =>
      have outside := (longest?_around_eq_none_iff normalized).mp found
      have noLongest (zone : Zone) : ¬ zone.IsLongest zones fqdn := fun longest =>
        outside zone longest.listed longest.encloses
      rw [chooseZone_outside normalized outside]
      exact ⟨by simp [noLongest], iff_of_true rfl outside, by simp [noLongest]⟩
  | some best =>
      have longest := (longest?_around_iff normalized distinct).mp found
      have inside : ¬ ∀ zone ∈ zones, ¬ zone.Encloses fqdn := fun outside =>
        outside best longest.listed longest.encloses
      simp only [isLongest_iff_eq normalized distinct longest, exists_eq_left,
        chooseZone_of_isLongest normalized distinct longest]
      by_cases whole : best.labels = labels fqdn.toList
      · rw [if_pos whole]
        refine ⟨fun zone => iff_of_false nofun ?_, iff_of_false nofun inside,
          iff_of_true ⟨_, rfl⟩ whole⟩
        rintro ⟨rfl, apart⟩
        exact apart whole
      · rw [if_neg whole]
        refine ⟨fun zone => ⟨?_, ?_⟩, iff_of_false nofun inside, iff_of_false nofun whole⟩
        · rintro ⟨rfl⟩
          exact ⟨rfl, whole⟩
        · rintro ⟨rfl, _⟩
          rfl

/-- Two zones around a name, one inside the other, and one whose name only ends the text of a
label. -/
def nestedZones : List Zone :=
  [⟨"z1", "b.example.com"⟩, ⟨"z2", "example.com"⟩, ⟨"z3", "ample.com"⟩]

def zoneOfName : Zone :=
  ⟨"z4", "a.b.example.com"⟩

theorem nestedZones_longest :
    normalizeName "A.b.example.com" = .ok "a.b.example.com." ∧
    (nestedZones.map (·.name)).Nodup ∧ ((zoneOfName :: nestedZones).map (·.name)).Nodup ∧
    ((Reconciliation.findZone "a.b.example.com.").run
      (MemoryAccount.answer Request.emptyZone.conditions) ⟨nestedZones, [], 0⟩).result =
        .ok ⟨"z1", "b.example.com"⟩ ∧
    ∃ reason, ((Reconciliation.findZone "a.b.example.com.").run
      (MemoryAccount.answer Request.emptyZone.conditions)
      ⟨zoneOfName :: nestedZones, [], 0⟩).result = .error (.invalidInput reason) := by
  have normalized : normalizeName "A.b.example.com" = .ok "a.b.example.com." := by
    decide +kernel
  have distinct : (nestedZones.map (·.name)).Nodup := by decide
  have distinctToo : ((zoneOfName :: nestedZones).map (·.name)).Nodup := by decide
  have inner : (⟨"z1", "b.example.com"⟩ : Zone).IsLongest nestedZones "a.b.example.com." :=
    ⟨by decide, by decide, by decide⟩
  have own : zoneOfName.IsLongest (zoneOfName :: nestedZones) "a.b.example.com." :=
    ⟨by decide, by decide, by decide⟩
  exact ⟨normalized, distinct, distinctToo,
    ((findZone_longest normalized rfl distinct).2.1 _).mpr ⟨inner, by decide⟩,
    (findZone_longest normalized rfl distinctToo).2.2.2.mpr ⟨_, own, by decide⟩⟩

end HubKeeper.Dns
