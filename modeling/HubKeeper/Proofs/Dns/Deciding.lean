import HubKeeper.Dns.MemoryService
import HubKeeper.Proofs.Dns.AccountChanges
import HubKeeper.Proofs.Dns.Dialogues

/-!
What the reconciler decides for a request, before it writes anything.

Every request is decided by calls that only read, and carried out by at most one call
that writes.  What has been decided is told by the account that was read.
-/

namespace HubKeeper.Dns

namespace Request

def name : Request → String
  | createOrUpdate name .. | delete name _ => name

/-- The part of a request that only reads. -/
def decide : Request → Dialogue (Zone × Reconciliation.Plan)
  | createOrUpdate name target policy => Reconciliation.decideUpdate name target policy
  | delete name policy => Reconciliation.decideRemoval name policy

theorem dialogue_eq (request : Request) :
    request.dialogue = request.decide >>= fun decided =>
      Reconciliation.carryOut decided.1 decided.2 := by
  cases request <;> rfl

end Request

namespace Reconciliation

theorem callsOnly_findZone (fqdn : String) : (findZone fqdn).CallsOnly (·.isReading) :=
  .bind (Dialogue.callsOnly_call.mpr rfl) fun _ => trivial

theorem callsOnly_findRecord (zone : Zone) (fqdn : String) :
    (findRecord zone fqdn).CallsOnly (·.isReading) :=
  .bind (Dialogue.callsOnly_call.mpr rfl) fun _ => trivial

theorem callsOnly_verify_of {allowed : Call → Prop} (ownAddress : allowed .publicAddress)
    (addressesOf : ∀ name, allowed (.resolve name)) (policy : Policy) (type : RecordType)
    (value : String) : (verify policy type value).CallsOnly allowed := by
  have expected : (expectedAddress policy).CallsOnly allowed := by
    unfold expectedAddress
    split
    · trivial
    · exact Dialogue.callsOnly_call.mpr ownAddress
  have resolved : (targetAddresses type value).CallsOnly allowed := by
    cases type with
    | address => trivial
    | _ => exact Dialogue.callsOnly_call.mpr (addressesOf _)
  refine .bind expected fun _ => .bind resolved fun _ => ?_
  split <;> trivial

theorem callsOnly_verify (policy : Policy) (type : RecordType) (value : String) :
    (verify policy type value).CallsOnly (·.isReading) := by
  refine callsOnly_verify_of ?_ (fun name => ?_) policy type value <;> rfl

theorem callsOnly_decideUpdate (name target : String) (policy : Policy) :
    (decideUpdate name target policy).CallsOnly (·.isReading) := by
  apply Dialogue.CallsOnly.bind (Dialogue.callsOnly_lift _ _)
  intro _
  apply Dialogue.CallsOnly.bind (Dialogue.callsOnly_lift _ _)
  intro fqdn
  apply Dialogue.CallsOnly.bind (callsOnly_findZone fqdn)
  intro zone
  apply Dialogue.CallsOnly.bind (Dialogue.callsOnly_lift _ _)
  rintro ⟨type, value⟩
  dsimp only
  split
  · trivial
  · have rest : (do
        let present ← findRecord zone fqdn
        let plan ← planUpdate policy present ⟨fqdn, type, policy.ttl, value, none⟩
        return (zone, plan)).CallsOnly (·.isReading) :=
      .bind (callsOnly_findRecord zone fqdn) fun _ => .bind (Dialogue.callsOnly_lift _ _) fun _ => trivial
    split
    · exact .bind (callsOnly_verify policy type value) fun _ => rest
    · exact rest

theorem callsOnly_decideRemoval (name : String) (policy : Policy) :
    (decideRemoval name policy).CallsOnly (·.isReading) :=
  .bind (Dialogue.callsOnly_lift _ _) fun fqdn => .bind (callsOnly_findZone fqdn) fun zone =>
    .bind (callsOnly_findRecord zone fqdn) fun _ => .bind (Dialogue.callsOnly_lift _ _) fun _ => trivial

theorem carryOut_change (zone : Zone) (batch : Batch) (outcome : Outcome) :
    carryOut zone (.change batch outcome) =
      .ask (.apply zone batch) fun _ => .done (.ok outcome) := rfl

theorem apply_of_carryOut {service : Service σ} {state : σ}
    (carried : ((carryOut zone (.change batch outcome)).run service state).result = .ok final) :
    service (.apply zone batch) state =
      (.ok (), ((carryOut zone (.change batch outcome)).run service state).state) := by
  rw [carryOut_change] at carried ⊢
  simp only [Dialogue.run] at carried ⊢
  cases answered : service (.apply zone batch) state with
  | mk answer later =>
      rw [answered] at carried
      cases answer with
      | error e => cases carried
      | ok done => rfl

end Reconciliation

theorem Request.callsOnly_decide (request : Request) :
    request.decide.CallsOnly (·.isReading) := by
  cases request with
  | createOrUpdate name target policy =>
      exact Reconciliation.callsOnly_decideUpdate name target policy
  | delete name policy => exact Reconciliation.callsOnly_decideRemoval name policy

namespace MemoryAccount

theorem answer_reading (conditions : Conditions) (call : Call) (account : MemoryAccount)
    (reading : call.isReading = true) : (answer conditions call account).2 = account := by
  unfold answer
  split
  · rfl
  · cases call with
    | apply zone batch => cases reading
    | _ => rfl

theorem answer_ok {conditions : Conditions} {call : Call} {account : MemoryAccount}
    {answered : call.Answer} (accepted : (answer conditions call account).1 = .ok answered) :
    answer conditions call account = respond conditions call account := by
  unfold answer at accepted ⊢
  split at accepted
  · cases accepted
  · rfl

section Reading

variable {account : MemoryAccount} {conditions : Conditions}

theorem state_of_reading {dialogue : Dialogue α} (reading : dialogue.CallsOnly (·.isReading)) :
    (dialogue.run (answer conditions) account).state = account :=
  reading.run_state (answer_reading conditions) account

theorem bind_result_ok_iff {first : Dialogue α} {next : α → Dialogue β}
    (reading : first.CallsOnly (·.isReading)) :
    ((first >>= next).run (answer conditions) account).result = .ok b ↔
      ∃ a, (first.run (answer conditions) account).result = .ok a ∧
        ((next a).run (answer conditions) account).result = .ok b := by
  rw [Dialogue.run_bind, Run.followedBy_result_ok_iff, state_of_reading reading]

theorem findZone_ok
    (found : ((Reconciliation.findZone fqdn).run (answer conditions) account).result = .ok zone) :
    chooseZone account.zones fqdn = .ok zone := by
  obtain ⟨zones, listed, chosen⟩ := (bind_result_ok_iff (Dialogue.callsOnly_call.mpr rfl)).mp found
  rw [Dialogue.run_call] at listed
  rw [answer_ok listed] at listed
  cases listed
  exact chosen

/-- Whatever is listed, the managed records at a name are found in it. -/
theorem managedAt_listed (wellFormed : account.WellFormed) (wholeZone : Bool) (zone : Zone)
    (name : String) :
    managedAt name (if wholeZone then account.recordsOf zone else account.recordsAt zone name) =
      account.managed zone name := by
  have same : ∀ placed ∈ account.records,
      (comparableName placed.record.name == name) = (placed.record.name == name) := by
    intro placed member
    rw [wellFormed.canonical placed member]
  cases wholeZone with
  | false =>
      simp only [Bool.false_eq_true, if_false, managedAt, recordsAt, managed, List.filter_map,
        List.filter_filter]
      congr 1
      refine List.filter_congr fun placed member => ?_
      simp only [Function.comp, same placed member, Placed.isAt]
      grind
  | true =>
      simp only [if_true, managedAt, recordsOf, managed, List.filter_map, List.filter_filter]
      congr 1
      refine List.filter_congr fun placed member => ?_
      simp only [Function.comp, same placed member, Placed.isAt]
      grind

theorem soleRecord_ok {records : List Record} (sole : soleRecord fqdn records = .ok present) :
    managedAt fqdn records = present.toList := by
  simp only [soleRecord] at sole
  split at sole
  · rename_i found
    cases sole
    exact found
  · rename_i found
    cases sole
    exact found
  · cases sole

theorem findRecord_ok (wellFormed : account.WellFormed)
    (found : ((Reconciliation.findRecord zone fqdn).run (answer conditions) account).result =
      .ok present) :
    account.managed zone fqdn = present.toList := by
  obtain ⟨records, listed, sole⟩ := (bind_result_ok_iff (Dialogue.callsOnly_call.mpr rfl)).mp found
  rw [Dialogue.run_call] at listed
  rw [answer_ok listed] at listed
  cases listed
  rw [← managedAt_listed wellFormed conditions.listsWholeZone]
  exact soleRecord_ok sole

end Reading

end MemoryAccount

namespace Request

/-- What has been decided for a request: the name, the zone and the plan. -/
inductive Decided (account : MemoryAccount) : Request → String → Zone → Reconciliation.Plan → Prop
  | update {name : String} (normalized : normalizeName name = .ok fqdn)
      (chosen : chooseZone account.zones fqdn = .ok zone)
      (classified : classifyTarget zone target = .ok (type, value))
      (read : account.managed zone fqdn = present.toList)
      (planned : Reconciliation.planUpdate policy present ⟨fqdn, type, policy.ttl, value, none⟩ =
        .ok plan) :
      Decided account (createOrUpdate name target policy) fqdn zone plan
  | removal {name : String} (normalized : normalizeName name = .ok fqdn)
      (chosen : chooseZone account.zones fqdn = .ok zone)
      (read : account.managed zone fqdn = present.toList)
      (planned : Reconciliation.planRemoval policy fqdn present = .ok plan) :
      Decided account (delete name policy) fqdn zone plan

theorem Decided.normalized {request : Request} (decided : Decided account request fqdn zone plan) :
    normalizeName request.name = .ok fqdn := by
  cases decided with
  | update normalized => exact normalized
  | removal normalized => exact normalized

theorem Decided.chosen {request : Request} (decided : Decided account request fqdn zone plan) :
    chooseZone account.zones fqdn = .ok zone := by
  cases decided with
  | update _ chosen => exact chosen
  | removal _ chosen => exact chosen

open MemoryAccount Reconciliation in
theorem decide_ok {request : Request} {account : MemoryAccount} (wellFormed : account.WellFormed)
    (decided : (request.decide.run (answer conditions) account).result = .ok (zone, plan)) :
    ∃ fqdn, Decided account request fqdn zone plan := by
  cases request with
  | createOrUpdate name target policy =>
      obtain ⟨_, _, decided⟩ := Dialogue.lift_bind_result_ok_iff.mp decided
      obtain ⟨fqdn, normalized, decided⟩ := Dialogue.lift_bind_result_ok_iff.mp decided
      obtain ⟨chosen, found, decided⟩ := (bind_result_ok_iff (callsOnly_findZone fqdn)).mp decided
      obtain ⟨⟨type, value⟩, classified, decided⟩ := Dialogue.lift_bind_result_ok_iff.mp decided
      dsimp only at decided
      split at decided
      · cases decided
      · have unverified : ((do
            let present ← findRecord chosen fqdn
            let plan ← planUpdate policy present ⟨fqdn, type, policy.ttl, value, none⟩
            return (chosen, plan)).run (answer conditions) account).result = .ok (zone, plan) := by
          split at decided
          · obtain ⟨_, _, decided⟩ :=
              (bind_result_ok_iff (callsOnly_verify policy type value)).mp decided
            exact decided
          · exact decided
        obtain ⟨present, read, decided⟩ :=
          (bind_result_ok_iff (callsOnly_findRecord chosen fqdn)).mp unverified
        obtain ⟨chosenPlan, planned, decided⟩ := Dialogue.lift_bind_result_ok_iff.mp decided
        cases decided
        exact ⟨fqdn, .update normalized (findZone_ok found) classified
          (findRecord_ok wellFormed read) planned⟩
  | delete name policy =>
      obtain ⟨fqdn, normalized, decided⟩ := Dialogue.lift_bind_result_ok_iff.mp decided
      obtain ⟨chosen, found, decided⟩ := (bind_result_ok_iff (callsOnly_findZone fqdn)).mp decided
      obtain ⟨present, read, decided⟩ :=
        (bind_result_ok_iff (callsOnly_findRecord chosen fqdn)).mp decided
      obtain ⟨chosenPlan, planned, decided⟩ := Dialogue.lift_bind_result_ok_iff.mp decided
      cases decided
      exact ⟨fqdn, .removal normalized (findZone_ok found) (findRecord_ok wellFormed read) planned⟩

end Request

end HubKeeper.Dns
