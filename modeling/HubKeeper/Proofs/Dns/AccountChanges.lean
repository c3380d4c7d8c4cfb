import HubKeeper.Dns.MemoryAccount
import HubKeeper.Proofs.Dns.Names

/-!
What changes do to an account.

The managed records of a zone at a name are told apart from all other records of the
account.  A change at a name makes or removes one of the former and moves none of the
latter, not even in the order of the account.
-/

namespace HubKeeper.Dns

namespace Placed

/-- Whether a record is a managed one of a zone at a name. -/
def isAt (zone : Zone) (name : String) (placed : Placed) : Bool :=
  placed.zone == zone.id && placed.record.name == name && placed.record.type.isManaged

theorem isAt_iff {zone : Zone} {name : String} {placed : Placed} :
    placed.isAt zone name = true ↔ placed.zone = zone.id ∧ placed.record.name = name ∧
      placed.record.type.isManaged = true := by
  simp [isAt, and_assoc]

/-- What a change is matched by. -/
def key (placed : Placed) : String × Option String :=
  (placed.zone, placed.record.id)

end Placed

namespace MemoryAccount

def managed (account : MemoryAccount) (zone : Zone) (name : String) : List Record :=
  (account.records.filter (·.isAt zone name)).map (·.record)

/-- All records but the managed ones of a zone at a name. -/
def others (account : MemoryAccount) (zone : Zone) (name : String) : List Placed :=
  account.records.filter fun placed => !placed.isAt zone name

/-- No name of a zone has more than one managed record. -/
def Unambiguous (account : MemoryAccount) (zone : Zone) : Prop :=
  ∀ name, (account.managed zone name).length ≤ 1

/-- Ids are told apart within a zone, names are spelled in the one way in which they
are compared, and the ids of records to come are not in use. -/
structure WellFormed (account : MemoryAccount) : Prop where
  distinct : (account.records.map Placed.key).Nodup
  canonical : ∀ placed ∈ account.records, comparableName placed.record.name = placed.record.name
  fresh : ∀ placed ∈ account.records, ∀ number, account.created < number →
    placed.record.id ≠ some (createdId number)

/-- The account has changed in nothing but its managed records of a zone at a name. -/
structure ChangedAt (zone : Zone) (name : String) (before after : MemoryAccount) : Prop where
  zones : after.zones = before.zones
  others : after.others zone name = before.others zone name

namespace ChangedAt

theorem refl (account : MemoryAccount) : ChangedAt zone name account account :=
  ⟨rfl, rfl⟩

theorem trans {before middle after : MemoryAccount} (first : ChangedAt zone name before middle)
    (second : ChangedAt zone name middle after) : ChangedAt zone name before after :=
  ⟨second.zones.trans first.zones, second.others.trans first.others⟩

/-- At another name, or in another zone, there is what was there before. -/
theorem managed_eq {zone otherZone : Zone} {name otherName : String} {before after : MemoryAccount}
    (changed : ChangedAt zone name before after)
    (elsewhere : ¬(otherZone.id = zone.id ∧ otherName = name)) :
    after.managed otherZone otherName = before.managed otherZone otherName := by
  have among : ∀ account : MemoryAccount, account.records.filter (·.isAt otherZone otherName) =
      (account.others zone name).filter (·.isAt otherZone otherName) := by
    intro account
    rw [MemoryAccount.others, List.filter_filter]
    refine List.filter_congr fun placed _ => ?_
    rw [Bool.eq_iff_iff, Bool.and_eq_true, Bool.not_eq_true', ← Bool.not_eq_true, Placed.isAt_iff,
      Placed.isAt_iff]
    constructor
    · intro there
      refine ⟨there, fun here => elsewhere ?_⟩
      exact ⟨there.1.symm.trans here.1, there.2.1.symm.trans here.2.1⟩
    · exact And.left
  rw [managed, managed, among after, among before, changed.others]

theorem unambiguous {zone otherZone : Zone} {name : String} {before after : MemoryAccount}
    (changed : ChangedAt zone name before after)
    (settled : (after.managed zone name).length ≤ 1)
    (unambiguous : before.Unambiguous otherZone) : after.Unambiguous otherZone := by
  intro otherName
  by_cases here : otherZone.id = zone.id ∧ otherName = name
  · have same : after.managed otherZone otherName = after.managed zone name := by
      simp [managed, Placed.isAt, here.1, here.2]
    rwa [same]
  · rw [changed.managed_eq here]
    exact unambiguous otherName

end ChangedAt

theorem createdId_injective {n m : Nat} (same : createdId n = createdId m) : n = m :=
  Text.natText_injective ((String.append_right_inj _).mp same)

/-! ### Creating -/

def withCreated (account : MemoryAccount) (zone : Zone) (record : Record) : MemoryAccount :=
  ⟨account.zones, account.records ++ [⟨zone.id, { record with
    id := some (createdId (account.created + 1)) }⟩], account.created + 1⟩

theorem applyChange_create (account : MemoryAccount) (zone : Zone) (record : Record) :
    applyChange zone account ⟨.create, record⟩ = (account.withCreated zone record, .ok ()) := rfl

theorem managed_withCreated (account : MemoryAccount) (zone : Zone) {record : Record}
    (managedType : record.type.isManaged = true) :
    (account.withCreated zone record).managed zone record.name =
      account.managed zone record.name ++
        [{ record with id := some (createdId (account.created + 1)) }] := by
  simp [managed, withCreated, Placed.isAt, managedType]

theorem changedAt_withCreated (account : MemoryAccount) (zone : Zone) {record : Record}
    (managedType : record.type.isManaged = true) :
    ChangedAt zone record.name account (account.withCreated zone record) where
  zones := rfl
  others := by simp [others, withCreated, Placed.isAt, managedType]

theorem WellFormed.withCreated {account : MemoryAccount} (wellFormed : account.WellFormed)
    (zone : Zone) {record : Record} (canonical : comparableName record.name = record.name) :
    (account.withCreated zone record).WellFormed where
  distinct := by
    have unused : (zone.id, some (createdId (account.created + 1))) ∉
        account.records.map Placed.key := by
      intro used
      obtain ⟨placed, member, key⟩ := List.mem_map.mp used
      exact wellFormed.fresh placed member _ (Nat.lt_succ_self _) (congrArg Prod.snd key)
    simp only [MemoryAccount.withCreated, List.map_append, List.map_cons, List.map_nil]
    refine List.nodup_append.mpr ⟨wellFormed.distinct, by simp, ?_⟩
    intro key member created isNew same
    have new : created = (zone.id, some (createdId (account.created + 1))) :=
      List.mem_singleton.mp isNew
    exact unused (new ▸ same ▸ member)
  canonical := by
    intro placed member
    rcases List.mem_append.mp member with old | new
    · exact wellFormed.canonical placed old
    · rw [List.mem_singleton.mp new]
      exact canonical
  fresh := by
    intro placed member number later
    rcases List.mem_append.mp member with old | new
    · exact wellFormed.fresh placed old number (Nat.lt_of_succ_lt later)
    · rw [List.mem_singleton.mp new]
      intro same
      exact Nat.lt_irrefl _ (createdId_injective (Option.some.inj same) ▸ later)

/-! ### Replacing and removing -/

theorem replaceFirst?_of_nodup {before after : List Placed} {placed : Placed}
    (distinct : ((before ++ placed :: after).map Placed.key).Nodup) (replacement : List Placed) :
    replaceFirst? placed.zone placed.record.id replacement (before ++ placed :: after) =
      some (before ++ replacement ++ after) := by
  induction before with
  | nil => simp [replaceFirst?]
  | cons first rest ih =>
      obtain ⟨unique, others⟩ := List.nodup_cons.mp distinct
      have different : ¬(first.zone = placed.zone ∧ first.record.id = placed.record.id) := by
        intro same
        have key : first.key = placed.key := Prod.ext same.1 same.2
        exact unique (by simp [key])
      simp only [List.cons_append, replaceFirst?, if_neg different, ih others, Option.map_some]

/-- Puts managed records in place of the only one of a zone at a name.  The records
around it stay where they are. -/
theorem replaceFirst?_managed {account : MemoryAccount} (wellFormed : account.WellFormed)
    {zone : Zone} {name : String} {current : Record}
    (sole : account.managed zone name = [current]) {replacement : List Placed}
    (fits : ∀ placed ∈ replacement, placed.isAt zone name = true) :
    ∃ before after, account.records = before ++ ⟨zone.id, current⟩ :: after ∧
      replaceFirst? zone.id current.id replacement account.records =
        some (before ++ replacement ++ after) ∧
      ChangedAt zone name account { account with records := before ++ replacement ++ after } ∧
      managed { account with records := before ++ replacement ++ after } zone name =
        replacement.map (·.record) := by
  obtain ⟨placed, kept, rfl⟩ := List.map_eq_singleton_iff.mp sole
  obtain ⟨before, after, split, noneBefore, here, noneAfter⟩ := List.filter_eq_cons_iff.mp kept
  have inZone : placed.zone = zone.id := (Placed.isAt_iff.mp here).1
  have placedEq : placed = ⟨zone.id, placed.record⟩ := by rw [← inZone]
  have distinct : ((before ++ placed :: after).map Placed.key).Nodup :=
    split ▸ wellFormed.distinct
  have aroundManaged : before.filter (·.isAt zone name) = [] ∧
      after.filter (·.isAt zone name) = [] :=
    ⟨List.filter_eq_nil_iff.mpr noneBefore, noneAfter⟩
  have newOthers : (replacement.filter fun placed => !placed.isAt zone name) = [] := by
    refine List.filter_eq_nil_iff.mpr fun placed member => ?_
    simp [fits placed member]
  refine ⟨before, after, by rw [split, ← placedEq], ?_, ⟨rfl, ?_⟩, ?_⟩
  · rw [split, ← inZone]
    exact replaceFirst?_of_nodup distinct replacement
  · simp [others, split, newOthers, here]
  · simp [managed, aroundManaged, List.filter_eq_self.mpr fits]

theorem applyChange_upsert {account : MemoryAccount} (wellFormed : account.WellFormed)
    {zone : Zone} {current : Record} (record : Record)
    (sole : account.managed zone record.name = [current]) (sameId : record.id = current.id)
    (canonical : comparableName record.name = record.name)
    (managedType : record.type.isManaged = true) :
    ∃ later, applyChange zone account ⟨.upsert, record⟩ = (later, .ok ()) ∧ later.WellFormed ∧
      ChangedAt zone record.name account later ∧ later.managed zone record.name = [record] := by
  have fits : ∀ placed ∈ [Placed.mk zone.id record], placed.isAt zone record.name = true := by
    simp [Placed.isAt, managedType]
  obtain ⟨before, after, split, replaced, changed, managedLater⟩ :=
    replaceFirst?_managed wellFormed sole fits
  refine ⟨_, by simp only [applyChange, sameId, replaced], ?_, changed, managedLater⟩
  -- Every record afterwards has the key, and up to the new one all else, of one before.
  have keys : (before ++ [Placed.mk zone.id record] ++ after).map Placed.key =
      account.records.map Placed.key := by
    simp [split, Placed.key, sameId]
  have cases : ∀ placed ∈ before ++ [Placed.mk zone.id record] ++ after,
      placed ∈ account.records ∨ placed = ⟨zone.id, record⟩ := by
    intro placed member
    rw [split]
    simp only [List.mem_append, List.mem_cons] at member ⊢
    grind
  constructor
  · rw [keys]
    exact wellFormed.distinct
  · intro placed member
    rcases cases placed member with old | rfl
    · exact wellFormed.canonical placed old
    · exact canonical
  · intro placed member number later
    rcases cases placed member with old | rfl
    · exact wellFormed.fresh placed old number later
    · rw [sameId]
      exact wellFormed.fresh ⟨zone.id, current⟩ (by simp [split]) number later

theorem applyChange_delete {account : MemoryAccount} (wellFormed : account.WellFormed)
    {zone : Zone} {name : String} {current : Record}
    (sole : account.managed zone name = [current]) :
    ∃ later, applyChange zone account ⟨.delete, current⟩ = (later, .ok ()) ∧ later.WellFormed ∧
      ChangedAt zone name account later ∧ later.managed zone name = [] := by
  obtain ⟨before, after, split, replaced, changed, managedLater⟩ :=
    replaceFirst?_managed wellFormed sole (List.forall_mem_nil _)
  refine ⟨_, by simp only [applyChange, replaced], ?_, changed, managedLater⟩
  have remaining : (before ++ [] ++ after).Sublist account.records := by
    rw [split, List.append_nil]
    exact (List.Sublist.refl before).append (List.sublist_cons_self _ _)
  exact
    { distinct := (remaining.map Placed.key).nodup wellFormed.distinct
      canonical := fun placed member => wellFormed.canonical placed (remaining.subset member)
      fresh := fun placed member => wellFormed.fresh placed (remaining.subset member) }

end MemoryAccount

end HubKeeper.Dns
