import HubKeeper.Proofs.Dns.Grounds

/-!
Aliases that point at their own name.

A request refuses a target that is the name itself, and it compares spellings to do so.
The name is always spelled with one point at its end, and so are targets, with one
exception: of a target with two points at its end, both are kept.
-/

namespace HubKeeper.Dns

/-- Whether two names are the same, whatever the case of letters and the points at the end. -/
def SameName (a b : String) : Prop :=
  Text.lower (Text.trimEndOf '.' a) = Text.lower (Text.trimEndOf '.' b)

instance (a b : String) : Decidable (SameName a b) :=
  inferInstanceAs (Decidable (_ = _))

def Record.IsSelfAlias (record : Record) : Prop :=
  record.type = .canonicalName ∧ SameName record.value record.name

instance (record : Record) : Decidable record.IsSelfAlias :=
  inferInstanceAs (Decidable (_ ∧ _))

theorem sameName_iff {a b : String} : SameName a b ↔ comparableName a = comparableName b := by
  simp [SameName, comparableName, qualified]

/-! ### Zones around a name -/

theorem mem_of_longest? {zones : List Zone} (longest : longest? zones = some zone) :
    zone ∈ zones := by
  induction zones with
  | nil => cases longest
  | cons first rest ih =>
      simp only [longest?] at longest
      split at longest
      · cases longest
        exact List.mem_cons_self
      · rename_i best found
        split at longest
        · cases longest
          exact List.mem_cons_self
        · cases longest
          exact List.mem_cons_of_mem _ (ih found)

theorem chooseZone_ok (chosen : chooseZone zones fqdn = .ok zone) :
    zone.contains fqdn = true ∧ zone.apex ≠ fqdn := by
  simp only [chooseZone] at chosen
  split at chosen
  · cases chosen
  · rename_i longest
    split at chosen
    · cases chosen
    · rename_i below
      cases chosen
      exact ⟨(List.mem_filter.mp (mem_of_longest? longest)).2, below⟩

theorem Zone.contains_qualified_iff {zone : Zone} {bare : String}
    (plain : bare.toList.getLast? ≠ some '.') :
    zone.contains (qualified bare) = true ↔ (Text.lower bare).toList = zone.name.toList ∨
      ∃ before, (Text.lower bare).toList = before ++ '.' :: zone.name.toList := by
  simp only [contains, trimEndOf_qualified plain, Bool.or_eq_true, beq_iff_eq,
    Option.bind_eq_some_iff, beforeEnding?, Option.map_eq_some_iff, Text.dropLead_eq_some_iff,
    String.toList_inj]
  refine or_congr_right ⟨?_, ?_⟩
  · rintro ⟨_, ⟨reversed, split, rfl⟩, point⟩
    obtain ⟨before, ends⟩ := List.getLast?_eq_some_iff.mp point
    have parts := congrArg List.reverse split
    rw [List.reverse_reverse, List.reverse_append, List.reverse_reverse, ends] at parts
    exact ⟨before, by simpa using parts⟩
  · rintro ⟨before, parts⟩
    exact ⟨before ++ ['.'], ⟨'.' :: before.reverse, by simp [parts], by simp⟩, by simp⟩

/-- The name of a zone around a managed name is in lower case and has no point at its end. -/
theorem plain_of_contains {zone : Zone} {bare : String}
    (plain : bare.toList.getLast? ≠ some '.')
    (around : zone.contains (qualified bare) = true) (below : zone.apex ≠ qualified bare) :
    Text.lower zone.name = zone.name ∧ zone.name ≠ "" ∧
      zone.name.toList.getLast? ≠ some '.' := by
  have pointless : (Text.lower bare).toList.getLast? ≠ some '.' :=
    mt (Text.getLast?_lower_eq_iff (by decide)).mp plain
  rcases (Zone.contains_qualified_iff plain).mp around with same | ⟨before, parts⟩
  · exact absurd (by rw [Zone.apex, ← String.toList_inj.mp same, qualified]) below
  · have named : zone.name ≠ "" := by
      intro empty
      rw [empty, show "".toList = [] from rfl] at parts
      exact pointless (by simp [parts])
    have ends : before ++ '.' :: zone.name.toList = (before ++ ['.']) ++ zone.name.toList := by
      simp
    rw [ends] at parts
    refine ⟨?_, named, ?_⟩
    · have lowered : (Text.lower bare).toList.map Char.toLower = (Text.lower bare).toList := by
        rw [← Text.toList_lower, Text.lower_lower]
      rw [parts, List.map_append] at lowered
      apply String.toList_inj.mp
      rw [Text.toList_lower]
      exact (List.append_inj lowered (by simp)).2
    · rwa [parts, List.getLast?_append_of_ne_nil _ (by simpa using named)] at pointless

/-! ### Spellings of a target -/

theorem lower_withoutPoint_eq_iff {target fqdn : String}
    (qualified : fqdn.toList.getLast? = some '.') :
    Text.lower (withoutPoint target) = fqdn ↔ Text.lower target = fqdn ++ "." := by
  by_cases last : target.toList.getLast? = some '.'
  · have split : Text.lower target = Text.lower (withoutPoint target) ++ "." := by
      rw [← lower_append_point, ← eq_withoutPoint_append last]
    rw [split]
    exact ⟨fun same => by rw [same], fun same => by simpa using same⟩
  · have pointless : (Text.lower target).toList.getLast? ≠ some '.' :=
      mt (Text.getLast?_lower_eq_iff (by decide)).mp last
    rw [withoutPoint, if_neg last]
    constructor
    · rintro rfl
      exact absurd qualified pointless
    · intro same
      rw [same] at pointless
      simp at pointless

theorem comparableName_label {zone : Zone} {bare : String} (lowered : Text.lower bare = bare)
    (zoneLowered : Text.lower zone.name = zone.name) (named : zone.name ≠ "")
    (zonePlain : zone.name.toList.getLast? ≠ some '.') :
    comparableName (bare ++ "." ++ zone.apex) = bare ++ "." ++ zone.apex := by
  have spelled : bare ++ "." ++ zone.apex = qualified (bare ++ "." ++ zone.name) := by
    apply String.toList_inj.mp
    have bareLowered := congrArg String.toList lowered
    have nameLowered := congrArg String.toList zoneLowered
    rw [Text.toList_lower] at bareLowered nameLowered
    simp [toList_qualified, Zone.apex, bareLowered, nameLowered]
  rw [spelled]
  refine comparableName_qualified ?_
  rwa [String.toList_append, List.getLast?_append_of_ne_nil _ (by simpa using named)]

/-- A name may end in a point; then it is qualified already. -/
theorem comparableName_name {bare : String} (lowered : Text.lower bare = bare)
    (accepted : isName bare = true) :
    comparableName (qualified bare) =
      if bare.toList.getLast? = some '.' then bare else qualified bare := by
  split
  · rename_i last
    have labelled : ∀ label ∈ labels bare.toList, isLabelChars label = true := by
      simp only [isName, isNameChars, Bool.and_eq_true, List.all_eq_true] at accepted
      exact accepted.2
    have plain : (withoutPoint bare).toList.getLast? ≠ some '.' := by
      intro again
      rw [withoutPoint, if_pos last, String.toList_ofList] at again
      refine absurd (labelled [] ?_) (by decide)
      rw [labels, if_pos last]
      exact Text.nil_mem_fields_of_getLast? again
    have spelled : qualified (withoutPoint bare) = bare := by
      rw [qualified_eq_lower, ← eq_withoutPoint_append last, lowered]
    have settled : comparableName bare = bare := by
      rw [← spelled]
      exact comparableName_qualified plain
    rw [qualified, comparableName_append_point, lowered, settled]
  · rename_i plain
    exact comparableName_qualified plain

/-! ### Records for a target -/

/-- The record for a target is an alias of its own name only if the target is the name with
two points at its end. -/
theorem isSelfAlias_iff {name : String} (normalized : normalizeName name = .ok fqdn)
    (chosen : chooseZone zones fqdn = .ok zone)
    (classified : classifyTarget zone target = .ok (type, value))
    (noAlias : ¬(type = .canonicalName ∧ value = fqdn)) (ttl : Nat) (id : Option String) :
    Record.IsSelfAlias ⟨fqdn, type, ttl, value, id⟩ ↔
      Text.lower (Text.trim target) = fqdn ++ "." := by
  obtain ⟨bare, rfl, plain, pointed⟩ := normalizeName_plain normalized
  obtain ⟨around, below⟩ := chooseZone_ok chosen
  have last : (qualified bare).toList.getLast? = some '.' := by simp [toList_qualified]
  rw [← lower_withoutPoint_eq_iff last, Record.IsSelfAlias, sameName_iff,
    comparableName_qualified plain]
  -- An address ends in no point, and a label has none inside; so the target is a name.
  cases classifyTarget_ok classified with
  | address parsed =>
      refine iff_of_false (fun self => nomatch self.1) fun same => ?_
      have pointed := (lower_withoutPoint_eq_iff last).mp same
      have ending : (Text.trim target).toList.getLast? = some '.' := by
        rw [← Text.getLast?_lower_eq_iff (by decide), pointed]
        simp
      rw [Ipv4.parse?_of_getLast? ending] at parsed
      cases parsed
  | label unparsed spelled accepted =>
      subst spelled
      obtain ⟨zoneLowered, named, zonePlain⟩ := plain_of_contains plain around below
      refine iff_of_false (fun self => ?_) fun same => ?_
      · rw [comparableName_label (Text.lower_lower _) zoneLowered named zonePlain] at self
        exact noAlias self
      · refine not_mem_of_isLabel accepted ?_
        rw [same]
        simp [toList_qualified]
  | name unparsed spelled accepted =>
      subst spelled
      rw [comparableName_name (Text.lower_lower _) accepted]
      split
      · exact and_iff_right rfl
      · rename_i single
        refine iff_of_false noAlias fun same => ?_
        rw [same] at single
        exact single last

theorem Reconciliation.planUpdate_batch {present : Option Record} {desired : Record}
    (planned : planUpdate policy present desired = .ok (.change batch outcome)) :
    ∀ change ∈ batch, if change.action = .delete then change.record ∈ present
      else ∃ id, change.record = { desired with id := id } := by
  cases present with
  | none =>
      cases planned
      exact List.forall_mem_singleton.mpr ⟨desired.id, rfl⟩
  | some current =>
      simp only [planUpdate] at planned
      split at planned
      · split at planned <;> cases planned
      · split at planned
        · cases planned
        · split at planned
          · cases planned
            exact List.forall_mem_singleton.mpr ⟨current.id, rfl⟩
          · cases planned
            exact List.forall_mem_cons.mpr ⟨rfl, List.forall_mem_singleton.mpr ⟨desired.id, rfl⟩⟩

namespace Request

/-- A batch that is applied to update a name deletes what was listed there, and it makes an
alias of its own name exactly if the target is the name with two points at its end. -/
theorem applied_isSelfAlias_iff {service : Service σ} {state : σ} {name target : String}
    {policy : Policy} (applied : .apply zone batch ∈
      ((createOrUpdate name target policy).dialogue.run service state).calls) :
    ∃ fqdn, normalizeName name = .ok fqdn ∧ ∀ change ∈ batch,
      if change.action = .delete then
        ∃ records, ⟨.listRecords zone fqdn, .ok records⟩ ∈
          (createOrUpdate name target policy).dialogue.exchanges service state ∧
            change.record ∈ managedAt fqdn records
      else change.record.IsSelfAlias ↔ Text.lower (Text.trim target) = fqdn ++ "." := by
  rw [Dialogue.run_calls] at applied
  obtain ⟨⟨call, answer⟩, said, rfl⟩ := List.mem_map.mp applied
  obtain ⟨fqdn, outcome, grounded, _⟩ :=
    (transcript_course (Dialogue.transcript_run _ service state)).grounded said
  cases grounded with
  | update normalized _ chosen classified noAlias _ read sole planned =>
      refine ⟨fqdn, normalized, fun change member => ?_⟩
      have changed := Reconciliation.planUpdate_batch planned change member
      split at changed
      · rename_i deletes
        rw [if_pos deletes]
        exact ⟨_, read, by rwa [sole, Option.mem_toList]⟩
      · rename_i writes
        obtain ⟨id, written⟩ := changed
        rw [if_neg writes, written]
        exact isSelfAlias_iff normalized chosen classified noAlias policy.ttl id

def emptyZone : MemoryAccount :=
  ⟨[⟨"z1", "example.com"⟩], [], 0⟩

def emptyZone.conditions : Conditions :=
  ⟨fun _ => none, false, fun _ => [], ⟨0, 0, 0, 0⟩⟩

/-- Makes a name an alias of itself with two points at its end. -/
def doublyPointed : Request :=
  .createOrUpdate "hub.example.com" "hub.example.com.." .default

def doublyPointed.batch : Batch :=
  [⟨.create, ⟨"hub.example.com.", .canonicalName, 300, "hub.example.com..", none⟩⟩]

theorem doublyPointed_calls :
    .apply ⟨"z1", "example.com"⟩ doublyPointed.batch ∈
      (emptyZone.serve emptyZone.conditions doublyPointed).calls := by
  decide +kernel

theorem doublyPointed_applied :
    .apply ⟨"z1", "example.com"⟩ doublyPointed.batch ∈
        (emptyZone.serve emptyZone.conditions doublyPointed).calls ∧
      ∃ fqdn, normalizeName "hub.example.com" = .ok fqdn ∧ ∀ change ∈ doublyPointed.batch,
        if change.action = .delete then
          ∃ records, ⟨.listRecords ⟨"z1", "example.com"⟩ fqdn, .ok records⟩ ∈
            doublyPointed.dialogue.exchanges (MemoryAccount.answer emptyZone.conditions) emptyZone ∧
              change.record ∈ managedAt fqdn records
        else change.record.IsSelfAlias ↔
          Text.lower (Text.trim "hub.example.com..") = fqdn ++ "." := by
  exact ⟨doublyPointed_calls, applied_isSelfAlias_iff doublyPointed_calls⟩

theorem doublyPointed_isSelfAlias :
    ¬∀ (account : MemoryAccount) (conditions : Conditions) (name target : String)
      (policy : Policy) (zone : Zone) (batch : Batch),
      .apply zone batch ∈ (account.serve conditions (.createOrUpdate name target policy)).calls →
        ∀ change ∈ batch, ¬change.record.IsSelfAlias := by
  intro never
  refine never _ _ _ _ _ _ _ doublyPointed_calls _ (List.mem_singleton_self _) ?_
  decide +kernel

end Request

end HubKeeper.Dns
