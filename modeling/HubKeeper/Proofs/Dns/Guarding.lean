import HubKeeper.Proofs.Dns.Grounds

/-!
The guards of a request.

Every guard is read off the grounds of the batch that was applied, except for ambiguous
names: a listing with several managed records ends the request at once.
-/

namespace HubKeeper.Dns

variable {heard : List Exchange} {policy : Policy}

namespace Request

open Reconciliation

/-! ### Ambiguous names -/

/-- A listing with several managed records at the name it was asked for. -/
def ambiguity : Exchange → Option Error
  | ⟨.listRecords _ fqdn, .ok records⟩ =>
      if 2 ≤ (managedAt fqdn records).length then
        some (.ambiguousRecords fqdn (managedAt fqdn records).length)
      else none
  | _ => none

theorem soleRecord_of_several (several : 2 ≤ (managedAt fqdn records).length) :
    soleRecord fqdn records = .error (.ambiguousRecords fqdn (managedAt fqdn records).length) := by
  unfold soleRecord
  split
  · rename_i none
    simp [none] at several
  · rename_i one
    simp [one] at several
  · rfl

theorem stopsAt_findZone (fqdn : String) : (findZone fqdn).StopsAt ambiguity := by
  refine Dialogue.CallsOnly.stopsAt (.bind (Dialogue.callsOnly_call.mpr fun zones => ?_) fun _ => ?_)
  · rfl
  · trivial

theorem stopsAt_findRecord (zone : Zone) (fqdn : String) :
    (findRecord zone fqdn).StopsAt ambiguity := by
  intro records
  refine ⟨fun e ambiguous => ?_, trivial⟩
  simp only [ambiguity, Option.ite_none_right_eq_some, Option.some.injEq] at ambiguous
  obtain ⟨several, rfl⟩ := ambiguous
  show Dialogue.done (soleRecord fqdn records) = _
  rw [soleRecord_of_several several]

theorem stopsAt_verify (policy : Policy) (type : RecordType) (value : String) :
    (verify policy type value).StopsAt ambiguity := by
  refine (callsOnly_verify_of (fun address => ?_) (fun name addresses => ?_) policy type
    value).stopsAt <;> rfl

theorem stopsAt_decide (request : Request) : request.decide.StopsAt ambiguity := by
  have planned {zone : Zone} {fqdn : String} {plan : Option Record → Except Error Plan} :
      (do
        let present ← findRecord zone fqdn
        let plan ← plan present
        return (zone, plan)).StopsAt ambiguity :=
    .bind (stopsAt_findRecord zone fqdn) fun _ => .bind (Dialogue.stopsAt_lift _ _) fun _ => trivial
  cases request with
  | createOrUpdate name target policy =>
      apply Dialogue.StopsAt.bind (Dialogue.stopsAt_lift _ _)
      intro _
      apply Dialogue.StopsAt.bind (Dialogue.stopsAt_lift _ _)
      intro fqdn
      apply Dialogue.StopsAt.bind (stopsAt_findZone fqdn)
      intro zone
      apply Dialogue.StopsAt.bind (Dialogue.stopsAt_lift _ _)
      rintro ⟨type, value⟩
      dsimp only
      split
      · trivial
      · split
        · exact .bind (stopsAt_verify policy type value) fun _ => planned
        · exact planned
  | delete name policy =>
      exact .bind (Dialogue.stopsAt_lift _ _) fun fqdn => .bind (stopsAt_findZone fqdn) fun _ => planned

theorem stopsAt_dialogue (request : Request) : request.dialogue.StopsAt ambiguity := by
  rw [request.dialogue_eq]
  refine .bind (stopsAt_decide request) fun ⟨zone, plan⟩ => ?_
  cases plan with
  | settled outcome => trivial
  | change batch outcome =>
      intro answer
      exact ⟨nofun, trivial⟩

/-! ### The guards of a request -/

/-- A target has a single address: it is written as that, or its name resolves to it only. -/
inductive TargetAddress (heard : List Exchange) (zone : Zone) (target : String)
    (address : Ipv4) : Prop
  | literal (parsed : Ipv4.parse? (Text.trim target) = some address)
  | resolved (classified : classifyTarget zone target = .ok (.canonicalName, value))
      (answered : ⟨.resolve (Text.trimEndOf '.' value), .ok [address]⟩ ∈ heard)

theorem targetAddress_of_sole (classified : classifyTarget zone target = .ok (type, value))
    (sole : SoleAddress heard address type value) : TargetAddress heard zone target address := by
  cases classifyTarget_ok classified with
  | address parsed =>
      cases sole with
      | literal same =>
          rw [Ipv4.parse?_text] at same
          cases same
          exact .literal parsed
      | resolved named _ => exact absurd rfl named
  | label _ _ _ =>
      cases sole with
      | resolved _ answered => exact .resolved classified answered
  | name _ _ _ =>
      cases sole with
      | resolved _ answered => exact .resolved classified answered

/-- What a request keeps to, told by its calls, their answers and its result. -/
structure Guarded (request : Request) (heard : List Exchange) (result : Except Error Outcome) :
    Prop where
  /-- At most one batch is applied, by the last call. -/
  appliesLast : ∃ reads : List Exchange, (∀ exchange ∈ reads, exchange.call.isReading = true) ∧
    (heard = reads ∨ ∃ zone batch answer, heard = reads ++ [⟨.apply zone batch, answer⟩])
  /-- The error of a call is the result, and nothing is applied after it. -/
  refused : ∀ call e, ⟨call, .error e⟩ ∈ heard → result = .error e ∧
    (call.isReading = true → ∀ exchange ∈ heard, exchange.call.isReading = true)
  /-- A target that is to be verified has the expected address and no other. -/
  verified : ∀ name target policy zone batch answer,
    request = createOrUpdate name target policy → policy.verifyTarget = true →
      ⟨.apply zone batch, answer⟩ ∈ heard →
        ∃ address, policy.Expects heard address ∧ TargetAddress heard zone target address
  /-- Nothing is applied to a name with several managed records. -/
  unambiguous : ∀ zone fqdn records, ⟨.listRecords zone fqdn, .ok records⟩ ∈ heard →
    2 ≤ (managedAt fqdn records).length →
      result = .error (.ambiguousRecords fqdn (managedAt fqdn records).length) ∧
        ∀ exchange ∈ heard, exchange.call.isReading = true
  /-- Nothing is applied before the name has been read in the zone. -/
  read : ∀ zone batch answer, ⟨.apply zone batch, answer⟩ ∈ heard →
    ∃ fqdn records, normalizeName request.name = .ok fqdn ∧
      ⟨.listRecords zone fqdn, .ok records⟩ ∈ heard ∧ (managedAt fqdn records).length ≤ 1
  /-- A record that is present is replaced only if it differs and may be overwritten. -/
  overwrites : ∀ name target policy zone batch answer,
    request = createOrUpdate name target policy → ⟨.apply zone batch, answer⟩ ∈ heard →
      ∃ fqdn type value records, normalizeName name = .ok fqdn ∧
        classifyTarget zone target = .ok (type, value) ∧
        ⟨.listRecords zone fqdn, .ok records⟩ ∈ heard ∧
        ∀ current ∈ managedAt fqdn records,
          current.agrees ⟨fqdn, type, policy.ttl, value, none⟩ = false ∧
            policy.allowOverwrite = true
  /-- The outcome tells whether a batch was applied. -/
  applied : (∃ outcome, result = .ok outcome ∧ outcome.isApplied = true) ↔
    ∃ zone batch, ⟨.apply zone batch, .ok ()⟩ ∈ heard

theorem guarded_of_transcript {request : Request} {result : Except Error Outcome}
    (said : request.dialogue.Transcript heard result) : request.Guarded heard result := by
  have course := transcript_course said
  constructor
  case appliesLast =>
    cases course with
    | undecided reading e => exact ⟨heard, reading, .inl rfl⟩
    | settled reading _ => exact ⟨heard, reading, .inl rfl⟩
    | applied reading _ answer => exact ⟨_, reading, .inr ⟨_, _, answer, rfl⟩⟩
  case refused =>
    intro call e refused
    obtain ⟨failed, before, last⟩ := said.of_refused refused
    exact ⟨failed, course.reading_of_last last⟩
  case verified =>
    rintro name target policy zone batch answer rfl asked applied
    obtain ⟨fqdn, outcome, grounded, _⟩ := course.grounded applied
    cases grounded with
    | update _ _ _ classified _ verified _ _ _ =>
        obtain ⟨address, expects, sole⟩ := verified asked
        exact ⟨address, expects, targetAddress_of_sole classified sole⟩
  case unambiguous =>
    intro zone fqdn records listed several
    obtain ⟨failed, before, last⟩ := (stopsAt_dialogue request).transcript said listed
      (if_pos several) rfl
    exact ⟨failed, course.reading_of_last last rfl⟩
  case read =>
    intro zone batch answer applied
    obtain ⟨fqdn, outcome, grounded, _⟩ := course.grounded applied
    obtain ⟨normalized, records, listed, sole⟩ := grounded.read
    exact ⟨fqdn, records, normalized, listed, sole⟩
  case overwrites =>
    rintro name target policy zone batch answer rfl applied
    obtain ⟨fqdn, outcome, grounded, _⟩ := course.grounded applied
    cases grounded with
    | update normalized _ _ classified _ _ read sole planned =>
        refine ⟨fqdn, _, _, _, normalized, classified, read, fun current member => ?_⟩
        rw [sole, Option.mem_toList] at member
        exact (planUpdate_change planned).2 current member
  case applied => exact course.applied_iff

/-- Every request keeps to its guards, whatever the answers and whichever calls fail. -/
theorem run_guarded (request : Request) (service : Service σ) (state : σ) :
    (request.dialogue.run service state).calls =
        (request.dialogue.exchanges service state).map (·.call) ∧
      request.Guarded (request.dialogue.exchanges service state)
        (request.dialogue.run service state).result :=
  ⟨request.dialogue.run_calls service state,
    guarded_of_transcript (request.dialogue.transcript_run service state)⟩

end Request

end HubKeeper.Dns
