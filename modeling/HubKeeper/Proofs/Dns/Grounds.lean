import HubKeeper.Proofs.Dns.Deciding
import HubKeeper.Proofs.Dns.Transcripts
import HubKeeper.Proofs.Net.Ipv4

/-!
What a request rests on, whoever answers its calls.

Nothing is assumed of the answers: they need not be those of an account, and any call may
fail.  A batch is applied on the grounds of what has been heard before, by the last call.
-/

namespace HubKeeper.Dns

open Reconciliation (Plan planUpdate planRemoval carryOut)

/-- The address that a policy expects has been given with it, or heard. -/
def Policy.Expects (policy : Policy) (heard : List Exchange) (address : Ipv4) : Prop :=
  policy.expectedAddress = some address ∨
    policy.expectedAddress = none ∧ ⟨.publicAddress, .ok address⟩ ∈ heard

/-- A target has a single address: it is one, or this is all that its name resolves to. -/
inductive SoleAddress (heard : List Exchange) (address : Ipv4) : RecordType → String → Prop
  | literal (parsed : Ipv4.parse? value = some address) :
      SoleAddress heard address .address value
  | resolved (named : type ≠ .address)
      (answered : ⟨.resolve (Text.trimEndOf '.' value), .ok [address]⟩ ∈ heard) :
      SoleAddress heard address type value

namespace Request

/-- What a plan for a request rests on. -/
inductive Grounded (heard : List Exchange) : Request → String → Zone → Plan → Prop
  | update {name : String} (normalized : normalizeName name = .ok fqdn)
      (listed : ⟨.listZones, .ok zones⟩ ∈ heard) (chosen : chooseZone zones fqdn = .ok zone)
      (classified : classifyTarget zone target = .ok (type, value))
      (noAlias : ¬(type = .canonicalName ∧ value = fqdn))
      (verified : policy.verifyTarget = true →
        ∃ address, policy.Expects heard address ∧ SoleAddress heard address type value)
      (read : ⟨.listRecords zone fqdn, .ok records⟩ ∈ heard)
      (sole : managedAt fqdn records = present.toList)
      (planned : planUpdate policy present ⟨fqdn, type, policy.ttl, value, none⟩ = .ok plan) :
      Grounded heard (createOrUpdate name target policy) fqdn zone plan
  | removal {name : String} (normalized : normalizeName name = .ok fqdn)
      (listed : ⟨.listZones, .ok zones⟩ ∈ heard) (chosen : chooseZone zones fqdn = .ok zone)
      (read : ⟨.listRecords zone fqdn, .ok records⟩ ∈ heard)
      (sole : managedAt fqdn records = present.toList)
      (planned : planRemoval policy fqdn present = .ok plan) :
      Grounded heard (delete name policy) fqdn zone plan

end Request

theorem Policy.Expects.mono (expects : Policy.Expects policy heard address)
    (more : heard ⊆ all) : policy.Expects all address :=
  expects.imp_right fun ⟨notGiven, answered⟩ => ⟨notGiven, more answered⟩

theorem SoleAddress.mono (sole : SoleAddress heard address type value) (more : heard ⊆ all) :
    SoleAddress all address type value := by
  cases sole with
  | literal parsed => exact .literal parsed
  | resolved named answered => exact .resolved named (more answered)

namespace Reconciliation

variable {heard : List Exchange} {policy : Policy}

theorem findZone_heard (said : (findZone fqdn).Transcript heard (.ok zone)) :
    ∃ zones, ⟨.listZones, .ok zones⟩ ∈ heard ∧ chooseZone zones fqdn = .ok zone := by
  obtain ⟨zones, before, after, rfl, listed, chosen⟩ := said.of_bind_ok
  exact ⟨zones, by simp [listed.of_call], chosen.of_done.2.symm⟩

theorem findRecord_heard (said : (findRecord zone fqdn).Transcript heard (.ok present)) :
    ∃ records, ⟨.listRecords zone fqdn, .ok records⟩ ∈ heard ∧
      managedAt fqdn records = present.toList := by
  obtain ⟨records, before, after, rfl, listed, sole⟩ := said.of_bind_ok
  exact ⟨records, by simp [listed.of_call], MemoryAccount.soleRecord_ok sole.of_done.2.symm⟩

theorem expectedAddress_heard (said : (expectedAddress policy).Transcript heard (.ok address)) :
    policy.Expects heard address := by
  simp only [expectedAddress] at said
  split at said
  · rename_i given
    cases said.of_done.2
    exact .inl given
  · rename_i notGiven
    exact .inr ⟨notGiven, by simp [said.of_call]⟩

theorem targetAddresses_heard
    (said : (targetAddresses type value).Transcript heard (.ok [address])) :
    SoleAddress heard address type value := by
  cases type with
  | address =>
      refine .literal ?_
      have addresses : [address] = (Ipv4.parse? value).toList := Except.ok.inj said.of_done.2
      cases parsed : Ipv4.parse? value with
      | none => simp [parsed] at addresses
      | some found => simpa [parsed] using addresses.symm
  | canonicalName => exact .resolved nofun (by simp [Dialogue.Transcript.of_call said])
  | other name => exact .resolved nofun (by simp [Dialogue.Transcript.of_call said])

theorem verify_heard (said : (verify policy type value).Transcript heard (.ok ())) :
    ∃ address, policy.Expects heard address ∧ SoleAddress heard address type value := by
  obtain ⟨expected, early, late, rfl, expects, said⟩ := said.of_bind_ok
  obtain ⟨resolved, before, after, rfl, addresses, said⟩ := said.of_bind_ok
  split at said
  · rename_i same
    subst same
    exact ⟨expected, (expectedAddress_heard expects).mono (by simp),
      (targetAddresses_heard addresses).mono (by simp)⟩
  · cases said.of_done.2

end Reconciliation

namespace Request

open Reconciliation

/-- Whatever has been decided rests on what was heard. -/
theorem decide_heard {request : Request} (said : request.decide.Transcript heard (.ok (zone, plan))) :
    ∃ fqdn, request.Grounded heard fqdn zone plan := by
  cases request with
  | createOrUpdate name target policy =>
      obtain ⟨_, _, said⟩ := said.of_lift_bind_ok
      obtain ⟨fqdn, normalized, said⟩ := said.of_lift_bind_ok
      obtain ⟨chosen, early, late, rfl, found, said⟩ := said.of_bind_ok
      obtain ⟨zones, listed, isChosen⟩ := findZone_heard found
      obtain ⟨⟨type, value⟩, classified, said⟩ := said.of_lift_bind_ok
      dsimp only at said
      split at said
      · cases said.of_done.2
      · rename_i noAlias
        -- The target is verified, if at all, before the records are listed.
        have verifiedFirst : ∃ before after, late = before ++ after ∧
            (policy.verifyTarget = true → ∃ address, policy.Expects before address ∧
              SoleAddress before address type value) ∧
            (do
              let present ← findRecord chosen fqdn
              let plan ← planUpdate policy present ⟨fqdn, type, policy.ttl, value, none⟩
              return (chosen, plan)).Transcript after (.ok (zone, plan)) := by
          split at said
          · obtain ⟨_, before, after, rfl, verified, said⟩ := said.of_bind_ok
            exact ⟨before, after, rfl, fun _ => verify_heard verified, said⟩
          · rename_i unverified
            exact ⟨[], late, rfl, fun asked => absurd asked unverified, said⟩
        obtain ⟨before, after, rfl, verified, said⟩ := verifiedFirst
        obtain ⟨present, there, rest, rfl, read, said⟩ := said.of_bind_ok
        obtain ⟨records, recordsListed, sole⟩ := findRecord_heard read
        obtain ⟨chosenPlan, planned, said⟩ := said.of_lift_bind_ok
        cases said.of_done.2
        refine ⟨fqdn, .update normalized ?_ isChosen classified noAlias ?_ ?_ sole planned⟩
        · simp [listed]
        · intro asked
          obtain ⟨address, expects, has⟩ := verified asked
          exact ⟨address, expects.mono (by simp), has.mono (by simp)⟩
        · simp [recordsListed]
  | delete name policy =>
      obtain ⟨fqdn, normalized, said⟩ := said.of_lift_bind_ok
      obtain ⟨chosen, early, late, rfl, found, said⟩ := said.of_bind_ok
      obtain ⟨zones, listed, isChosen⟩ := findZone_heard found
      obtain ⟨present, there, rest, rfl, read, said⟩ := said.of_bind_ok
      obtain ⟨records, recordsListed, sole⟩ := findRecord_heard read
      obtain ⟨chosenPlan, planned, said⟩ := said.of_lift_bind_ok
      cases said.of_done.2
      exact ⟨fqdn, .removal normalized (by simp [listed]) isChosen (by simp [recordsListed]) sole
        planned⟩

/-- With a service, whatever has been decided rests on answers given in states that look like
the first one, if no call that reads changes how the state looks. -/
theorem decide_grounded {service : Service σ} (view : σ → τ)
    (still : ∀ call state, call.isReading = true → view (service call state).2 = view state)
    {request : Request} {state : σ}
    (decided : (request.decide.run service state).result = .ok (zone, plan)) :
    ∃ heard fqdn, request.Grounded heard fqdn zone plan ∧
      ∀ exchange ∈ heard, ∃ present, view present = view state ∧
        exchange.answer = (service exchange.call present).1 := by
  have said := Dialogue.transcript_run request.decide service state
  rw [decided] at said
  obtain ⟨fqdn, grounded⟩ := decide_heard said
  exact ⟨_, fqdn, grounded, request.callsOnly_decide.exchanges_answered view still state⟩

/-- How a request goes: it comes to nothing, finds nothing to do, or applies a batch by
its last call. -/
inductive Course (request : Request) : List Exchange → Except Error Outcome → Prop
  | undecided (reading : ∀ exchange ∈ heard, exchange.call.isReading = true) (e : Error) :
      Course request heard (.error e)
  | settled (reading : ∀ exchange ∈ heard, exchange.call.isReading = true)
      (grounded : request.Grounded heard fqdn zone (.settled outcome)) :
      Course request heard (.ok outcome)
  | applied (reading : ∀ exchange ∈ heard, exchange.call.isReading = true)
      (grounded : request.Grounded heard fqdn zone (.change batch outcome))
      (answer : Except Error Unit) :
      Course request (heard ++ [⟨.apply zone batch, answer⟩]) (answer.map fun _ => outcome)

theorem transcript_course {request : Request} {result : Except Error Outcome}
    (said : request.dialogue.Transcript heard result) : request.Course heard result := by
  rw [request.dialogue_eq] at said
  rcases said.of_bind with ⟨e, failed, rfl⟩ | ⟨⟨zone, plan⟩, reads, after, rfl, decided, said⟩
  · exact .undecided (request.callsOnly_decide.transcript failed) e
  · have reading := request.callsOnly_decide.transcript decided
    obtain ⟨fqdn, grounded⟩ := decide_heard decided
    cases plan with
    | settled outcome =>
        obtain ⟨rfl, rfl⟩ := said.of_done
        simpa using Course.settled reading grounded
    | change batch outcome =>
        cases said with
        | refused _ e => exact .applied reading grounded (.error e)
        | answered _ answer said =>
            obtain ⟨rfl, rfl⟩ := said.of_done
            exact .applied reading grounded (.ok answer)

end Request

/-! ### What plans come to -/

namespace Reconciliation

theorem planUpdate_settled {desired : Record}
    (planned : planUpdate policy present desired = .ok (.settled outcome)) :
    outcome.isApplied = false := by
  unfold planUpdate at planned
  repeat' split at planned
  all_goals cases planned
  rfl

/-- A present record is changed only where it differs and may be overwritten. -/
theorem planUpdate_change {desired : Record}
    (planned : planUpdate policy present desired = .ok (.change batch outcome)) :
    outcome.isApplied = true ∧
      ∀ current ∈ present, current.agrees desired = false ∧ policy.allowOverwrite = true := by
  cases present with
  | none =>
      cases planned
      exact ⟨rfl, nofun⟩
  | some current =>
      simp only [planUpdate] at planned
      split at planned
      · split at planned <;> cases planned
      · rename_i differs
        split at planned
        · cases planned
        · rename_i mayOverwrite
          refine ⟨?_, fun _ same => ?_⟩
          · split at planned <;> cases planned <;> rfl
          · cases same
            exact ⟨by simpa using differs, by simpa using mayOverwrite⟩

/-- What is planned for an update: nothing, where the record agrees; else to create it, to put
it in place of the present one, or to create it once that is gone. -/
theorem planUpdate_ok {desired : Record} (planned : planUpdate policy present desired = .ok plan) :
    (∃ current, present = some current ∧ current.agrees desired = true ∧
      plan = .settled (.unchanged (some current))) ∨
    (present = none ∧ plan = .change [⟨.create, desired⟩] (.created desired)) ∨
    (∃ current, present = some current ∧
      plan = .change [⟨.upsert, { desired with id := current.id }⟩] (.updated current desired)) ∨
    ∃ current, present = some current ∧
      plan = .change [⟨.delete, current⟩, ⟨.create, desired⟩] (.updated current desired) := by
  cases present with
  | none =>
      cases planned
      exact .inr (.inl ⟨rfl, rfl⟩)
  | some current =>
      simp only [planUpdate] at planned
      split at planned
      · rename_i agrees
        split at planned <;> cases planned
        exact .inl ⟨current, rfl, agrees, rfl⟩
      · split at planned
        · cases planned
        · split at planned <;> cases planned
          · exact .inr (.inr (.inl ⟨current, rfl, rfl⟩))
          · exact .inr (.inr (.inr ⟨current, rfl, rfl⟩))

theorem planRemoval_settled
    (planned : planRemoval policy fqdn present = .ok (.settled outcome)) :
    outcome.isApplied = false := by
  unfold planRemoval at planned
  repeat' split at planned
  all_goals cases planned
  rfl

theorem planRemoval_change
    (planned : planRemoval policy fqdn present = .ok (.change batch outcome)) :
    outcome.isApplied = true := by
  unfold planRemoval at planned
  repeat' split at planned
  all_goals cases planned
  rfl

end Reconciliation

namespace Request

open Reconciliation

variable {request : Request}

theorem Grounded.settled (grounded : request.Grounded heard fqdn zone (.settled outcome)) :
    outcome.isApplied = false := by
  cases grounded with
  | update _ _ _ _ _ _ _ _ planned => exact planUpdate_settled planned
  | removal _ _ _ _ _ planned => exact planRemoval_settled planned

theorem Grounded.change (grounded : request.Grounded heard fqdn zone (.change batch outcome)) :
    outcome.isApplied = true := by
  cases grounded with
  | update _ _ _ _ _ _ _ _ planned => exact (planUpdate_change planned).1
  | removal _ _ _ _ _ planned => exact planRemoval_change planned

theorem Grounded.read (grounded : request.Grounded heard fqdn zone plan) :
    normalizeName request.name = .ok fqdn ∧
      ∃ records, ⟨.listRecords zone fqdn, .ok records⟩ ∈ heard ∧
        (managedAt fqdn records).length ≤ 1 := by
  have atMostOne (present : Option Record) : present.toList.length ≤ 1 := by
    cases present <;> simp
  cases grounded with
  | update normalized _ _ _ _ _ read sole _ =>
      exact ⟨normalized, _, read, sole ▸ atMostOne _⟩
  | removal normalized _ _ read sole _ => exact ⟨normalized, _, read, sole ▸ atMostOne _⟩

theorem Grounded.mono (grounded : request.Grounded heard fqdn zone plan) (more : heard ⊆ all) :
    request.Grounded all fqdn zone plan := by
  cases grounded with
  | update normalized listed chosen classified noAlias verified read sole planned =>
      refine .update normalized (more listed) chosen classified noAlias (fun asked => ?_)
        (more read) sole planned
      obtain ⟨address, expects, has⟩ := verified asked
      exact ⟨address, expects.mono more, has.mono more⟩
  | removal normalized listed chosen read sole planned =>
      exact .removal normalized (more listed) chosen (more read) sole planned

theorem Course.grounded (course : request.Course heard result)
    (applied : ⟨.apply zone batch, answer⟩ ∈ heard) :
    ∃ fqdn outcome, request.Grounded heard fqdn zone (.change batch outcome) ∧
      result = answer.map fun _ => outcome := by
  cases course with
  | undecided reading e => exact absurd (reading _ applied) (by simp [Call.isReading])
  | settled reading _ => exact absurd (reading _ applied) (by simp [Call.isReading])
  | applied reading grounded answered =>
      rcases List.mem_append.mp applied with early | last
      · exact absurd (reading _ early) (by simp [Call.isReading])
      · cases List.mem_singleton.mp last
        exact ⟨_, _, grounded.mono (List.subset_append_left _ _), rfl⟩

/-- A request whose last call reads has applied nothing. -/
theorem Course.reading_of_last (course : request.Course heard result)
    (last : heard = before ++ [exchange]) (reads : exchange.call.isReading = true) :
    ∀ exchange ∈ heard, exchange.call.isReading = true := by
  cases course with
  | undecided reading e => exact reading
  | settled reading _ => exact reading
  | applied reading _ answered =>
      obtain ⟨_, same⟩ := List.append_inj' last rfl
      cases List.singleton_inj.mp same
      cases reads

theorem Course.applied_iff (course : request.Course heard result) :
    (∃ outcome, result = .ok outcome ∧ outcome.isApplied = true) ↔
      ∃ zone batch, ⟨.apply zone batch, .ok ()⟩ ∈ heard := by
  constructor
  · rintro ⟨outcome, succeeded, isApplied⟩
    cases course with
    | undecided _ e => cases succeeded
    | settled _ grounded =>
        cases succeeded
        simp [grounded.settled] at isApplied
    | applied _ _ answer =>
        cases answer with
        | error e => cases succeeded
        | ok done => exact ⟨_, _, List.mem_append_right _ (List.mem_singleton_self _)⟩
  · rintro ⟨zone, batch, applied⟩
    obtain ⟨fqdn, outcome, grounded, rfl⟩ := course.grounded applied
    exact ⟨outcome, rfl, grounded.change⟩

end Request

end HubKeeper.Dns
