import HubKeeper.Proofs.Dns.Deciding

/-!
Requests served on an account, one after the other.

A request either fails and leaves the account as it is, or it brings the managed
records at its name to what was asked for and leaves all other records as they are.
Accounts stay well formed, and a zone without ambiguous names stays one.
-/

namespace HubKeeper.Dns

theorem classifyTarget_isManaged (accepted : classifyTarget zone target = .ok (type, value)) :
    type.isManaged = true := by
  simp only [classifyTarget] at accepted
  repeat' split at accepted
  all_goals cases accepted
  all_goals rfl

namespace Request

/-- What a request asks of the managed records at its name. -/
def Fulfilled (zone : Zone) (fqdn : String) (records : List Record) : Request → Prop
  | createOrUpdate _ target policy =>
      ∃ type value record, classifyTarget zone target = .ok (type, value) ∧
        records = [record] ∧ record.agrees ⟨fqdn, type, policy.ttl, value, none⟩ = true
  | delete .. => records = []

theorem Fulfilled.length_le_one {request : Request} {records : List Record}
    (fulfilled : request.Fulfilled zone fqdn records) : records.length ≤ 1 := by
  cases request with
  | createOrUpdate name target policy =>
      obtain ⟨_, _, _, _, rfl, _⟩ := fulfilled
      exact Nat.le_refl 1
  | delete name policy =>
      have none : records = [] := fulfilled
      simp [none]

end Request

namespace Reconciliation.Plan

def batch : Plan → Batch
  | settled _ => []
  | change batch _ => batch

end Reconciliation.Plan

namespace MemoryAccount

open Reconciliation

theorem applyAll_singleton (zone : Zone) (change : Change) (account : MemoryAccount) :
    applyAll zone [change] account = applyChange zone account change := by
  simp only [applyAll]
  split <;> simp_all

theorem applyAll_cons_of_ok {account later : MemoryAccount} {zone : Zone} {change : Change}
    {rest : Batch} (applied : applyChange zone account change = (later, .ok ())) :
    applyAll zone (change :: rest) account = applyAll zone rest later := by
  simp only [applyAll, applied]

section Carried

variable {account : MemoryAccount} (wellFormed : account.WellFormed)
include wellFormed

/-- Carrying out what was planned for a desired record leaves it as the only managed
one at its name. -/
theorem applyAll_planUpdate {zone : Zone} {desired : Record} {present : Option Record}
    (canonical : comparableName desired.name = desired.name)
    (managedType : desired.type.isManaged = true)
    (read : account.managed zone desired.name = present.toList)
    (planned : planUpdate policy present desired = .ok plan) :
    ∃ later, applyAll zone plan.batch account = (later, .ok ()) ∧ later.WellFormed ∧
      ChangedAt zone desired.name account later ∧
      ∃ record, later.managed zone desired.name = [record] ∧ record.agrees desired = true := by
  cases present with
  | none =>
      cases planned
      refine ⟨account.withCreated zone desired, ?_, wellFormed.withCreated zone canonical,
        changedAt_withCreated account zone managedType, ?_⟩
      · rw [Plan.batch, applyAll_singleton, applyChange_create]
      · rw [managed_withCreated account zone managedType, read]
        exact ⟨_, rfl, by simp [Record.agrees]⟩
  | some current =>
      simp only [planUpdate] at planned
      split at planned
      · -- The present record already publishes the desired one.
        rename_i agrees
        split at planned
        · cases planned
          exact ⟨account, rfl, wellFormed, .refl account, current, read, agrees⟩
        · cases planned
      · split at planned
        · cases planned
        · split at planned
          · cases planned
            obtain ⟨later, applied, laterWellFormed, changed, managedLater⟩ :=
              applyChange_upsert wellFormed { desired with id := current.id } read rfl canonical
                managedType
            exact ⟨later, by rw [Plan.batch, applyAll_singleton, applied], laterWellFormed, changed,
              _, managedLater, by simp [Record.agrees]⟩
          · -- The type changes: nothing is left at the name in between.
            cases planned
            obtain ⟨middle, removed, middleWellFormed, removedAt, managedMiddle⟩ :=
              applyChange_delete wellFormed read
            refine ⟨middle.withCreated zone desired, ?_, middleWellFormed.withCreated zone canonical,
              removedAt.trans (changedAt_withCreated middle zone managedType), ?_⟩
            · rw [Plan.batch, applyAll_cons_of_ok removed, applyAll_singleton, applyChange_create]
            · rw [managed_withCreated middle zone managedType, managedMiddle]
              exact ⟨_, rfl, by simp [Record.agrees]⟩

/-- Carrying out what was planned for a removal leaves no managed record at the name. -/
theorem applyAll_planRemoval {zone : Zone} {fqdn : String} {present : Option Record}
    (read : account.managed zone fqdn = present.toList)
    (planned : planRemoval policy fqdn present = .ok plan) :
    ∃ later, applyAll zone plan.batch account = (later, .ok ()) ∧ later.WellFormed ∧
      ChangedAt zone fqdn account later ∧ later.managed zone fqdn = [] := by
  cases present with
  | none =>
      simp only [planRemoval] at planned
      split at planned
      · cases planned
        exact ⟨account, rfl, wellFormed, .refl account, read⟩
      · cases planned
  | some current =>
      cases planned
      obtain ⟨later, applied, laterWellFormed, changed, managedLater⟩ :=
        applyChange_delete wellFormed read
      exact ⟨later, by rw [Plan.batch, applyAll_singleton, applied], laterWellFormed, changed,
        managedLater⟩

theorem applyAll_decided {request : Request} (decided : request.Decided account fqdn zone plan) :
    ∃ later, applyAll zone plan.batch account = (later, .ok ()) ∧ later.WellFormed ∧
      ChangedAt zone fqdn account later ∧
      request.Fulfilled zone fqdn (later.managed zone fqdn) := by
  cases decided with
  | update normalized chosen classified read planned =>
      obtain ⟨later, applied, laterWellFormed, changed, record, sole, agrees⟩ :=
        applyAll_planUpdate wellFormed (comparableName_normalizeName normalized)
          (classifyTarget_isManaged classified) read planned
      exact ⟨later, applied, laterWellFormed, changed, _, _, record, classified, sole, agrees⟩
  | removal normalized chosen read planned =>
      exact applyAll_planRemoval wellFormed read planned

end Carried

theorem carryOut_run (conditions : Conditions) {account later : MemoryAccount} {plan : Plan}
    (applied : applyAll zone plan.batch account = (later, .ok ())) :
    (∃ e calls, (carryOut zone plan).run (answer conditions) account =
      ⟨.error e, calls, account⟩) ∨
    ∃ outcome calls, (carryOut zone plan).run (answer conditions) account =
      ⟨.ok outcome, calls, later⟩ := by
  cases plan with
  | settled outcome =>
      cases applied
      exact .inr ⟨outcome, [], rfl⟩
  | change batch outcome =>
      rw [carryOut_change]
      cases refused : conditions.refusal (.apply zone batch) with
      | some e => exact .inl ⟨e, [.apply zone batch], by simp [Dialogue.run, answer, refused]⟩
      | none =>
          have answered : answer conditions (.apply zone batch) account = (.ok (), later) := by
            have batchApplied : applyAll zone batch account = (later, .ok ()) := applied
            simp only [answer, refused, respond, batchApplied]
            rfl
          exact .inr ⟨outcome, [.apply zone batch], by simp [Dialogue.run, answered]⟩

/-- What serving a request makes of an account: nothing when it fails, else what was asked
for at its name and nothing anywhere else. -/
inductive Served (before : MemoryAccount) (request : Request) : Run MemoryAccount Outcome → Prop
  | refused (error : Error) (calls : List Call) : Served before request ⟨.error error, calls, before⟩
  | fulfilled (fqdn : String) (zone : Zone) (outcome : Outcome) (calls : List Call)
      (later : MemoryAccount) (normalized : normalizeName request.name = .ok fqdn)
      (chosen : chooseZone before.zones fqdn = .ok zone)
      (changed : ChangedAt zone fqdn before later)
      (reached : request.Fulfilled zone fqdn (later.managed zone fqdn)) :
      Served before request ⟨.ok outcome, calls, later⟩

/-- One request keeps an account well formed and does what it is there for, whatever is
refused on the way. -/
theorem serve_served {account : MemoryAccount} (wellFormed : account.WellFormed)
    (conditions : Conditions) (request : Request) :
    Served account request (account.serve conditions request) ∧
      (account.serve conditions request).state.WellFormed := by
  have unread : (request.decide.run (answer conditions) account).state = account :=
    state_of_reading request.callsOnly_decide
  unfold serve
  rw [request.dialogue_eq, Dialogue.run_bind]
  cases decidedEq : (request.decide.run (answer conditions) account).result with
  | error e =>
      rw [Run.followedBy_of_error decidedEq, unread]
      exact ⟨.refused e _, wellFormed⟩
  | ok decided =>
      obtain ⟨zone, plan⟩ := decided
      obtain ⟨fqdn, decided⟩ := Request.decide_ok wellFormed decidedEq
      obtain ⟨later, applied, laterWellFormed, changed, reached⟩ :=
        applyAll_decided wellFormed decided
      rw [Run.followedBy_of_ok decidedEq, unread]
      rcases carryOut_run conditions applied with ⟨e, calls, run⟩ | ⟨outcome, calls, run⟩
      · rw [run]
        exact ⟨.refused e _, wellFormed⟩
      · rw [run]
        exact ⟨.fulfilled fqdn zone outcome _ later decided.normalized decided.chosen changed
          reached, laterWellFormed⟩

theorem after_wellFormed {account : MemoryAccount} (wellFormed : account.WellFormed)
    (past : List (Conditions × Request)) : (account.after past).WellFormed := by
  induction past generalizing account with
  | nil => exact wellFormed
  | cons step rest ih => exact ih (serve_served wellFormed step.1 step.2).2

theorem Served.unambiguous {before : MemoryAccount} {request : Request}
    (served : Served before request run) (unambiguous : before.Unambiguous zone) :
    run.state.Unambiguous zone := by
  cases served with
  | refused e calls => exact unambiguous
  | fulfilled _ _ _ _ _ _ _ changed reached =>
      exact changed.unambiguous reached.length_le_one unambiguous

theorem after_unambiguous {account : MemoryAccount} (wellFormed : account.WellFormed)
    (unambiguous : account.Unambiguous zone) (past : List (Conditions × Request)) :
    (account.after past).Unambiguous zone := by
  induction past generalizing account with
  | nil => exact unambiguous
  | cons step rest ih =>
      obtain ⟨served, laterWellFormed⟩ := serve_served wellFormed step.1 step.2
      exact ih laterWellFormed (served.unambiguous unambiguous)

/-- Requests in any order, each under conditions of its own, do what they are there for
and keep the names of a zone unambiguous. -/
theorem requests_served {account : MemoryAccount} (wellFormed : account.WellFormed)
    (past : List (Conditions × Request)) :
    (∀ conditions request, Served (account.after past) request
      ((account.after past).serve conditions request)) ∧
    ∀ zone, account.Unambiguous zone → (account.after past).Unambiguous zone :=
  ⟨fun conditions request =>
      (serve_served (after_wellFormed wellFormed past) conditions request).1,
    fun _ unambiguous => after_unambiguous wellFormed unambiguous past⟩

/-- A zone with an address and a text at one name. -/
def household : MemoryAccount where
  zones := [⟨"z1", "example.com"⟩]
  records :=
    [⟨"z1", ⟨"hub.example.com.", .address, 300, "192.0.2.1", some "seed-1"⟩⟩,
      ⟨"z1", ⟨"hub.example.com.", .other "TXT", 300, "hello", some "seed-2"⟩⟩]
  created := 0

theorem household_wellFormed : household.WellFormed where
  distinct := by decide
  canonical := by
    have canonical : comparableName "hub.example.com." = "hub.example.com." := by cbv
    simp [household, canonical]
  fresh := by
    have seeded : ∀ placed ∈ household.records,
        (placed.record.id.getD "").toList.head? = some 's' := by decide
    intro placed member number _ id
    have started := seeded placed member
    rw [id, Option.getD_some, createdId, String.toList_append] at started
    cases started

def household.conditions : Conditions :=
  ⟨fun _ => none, true, fun _ => [], ⟨0, 0, 0, 0⟩⟩

def household.past : List (Conditions × Request) :=
  [(household.conditions,
    .createOrUpdate "Hub.example.com" "www.example.org" (Policy.default.overwrite true))]

theorem household_requests_served :
    (household.after household.past).records.map (·.record.value) = ["hello", "www.example.org."] ∧
    (∀ conditions request, Served (household.after household.past) request
      ((household.after household.past).serve conditions request)) ∧
    ∀ zone, household.Unambiguous zone → (household.after household.past).Unambiguous zone :=
  ⟨by decide +kernel, requests_served household_wellFormed household.past⟩

end MemoryAccount

end HubKeeper.Dns
