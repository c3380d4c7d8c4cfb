import HubKeeper.Json.Printer
import HubKeeper.Proofs.Cloudflare.Keeping
import HubKeeper.Proofs.Dns.Grounds

/-!
One request after the other, on a server that keeps what it is sent.

A request that succeeds leaves at its name a single managed record that agrees with what it
desired.  The next request for the same finds this record, and sends no batch.
-/

namespace HubKeeper.Cloudflare

open Dns (Record Zone Policy)

section Requests

variable {transport : Http.Transport σ} {account : Account} {zones : List Zone} {zone : Zone}
  {listed : Json → Bool} {held : σ → Dict Json} {services : Net.LookupServices} {state : σ}

/-- What a request wants to be published, and in which zone. -/
structure Desires (zones : List Zone) (zone : Zone) (desired : Record) (name target : String)
    (policy : Policy) : Prop where
  normalized : Dns.normalizeName name = .ok desired.name
  chosen : Dns.chooseZone zones desired.name = .ok zone
  classified : Dns.classifyTarget zone target = .ok (desired.type, desired.value)
  lifetime : policy.ttl = desired.ttl
  unnamed : desired.id = none

theorem Desires.record_eq {desired : Record} {name target : String} {policy : Policy}
    (desires : Desires zones zone desired name target policy) :
    (⟨desired.name, desired.type, policy.ttl, desired.value, none⟩ : Record) = desired := by
  rw [desires.lifetime, ← desires.unnamed]

theorem createOrUpdate_eq (name target : String) (policy : Policy) :
    Dns.Reconciliation.createOrUpdate name target policy =
      Dns.Reconciliation.decideUpdate name target policy >>= fun decided =>
        Dns.Reconciliation.carryOut decided.1 decided.2 :=
  Dns.Request.dialogue_eq (.createOrUpdate name target policy)

theorem perm_toList {as : List α} {a : Option α} (permutation : as.Perm a.toList) :
    as = a.toList := by
  cases a with
  | none => exact List.perm_nil.mp permutation
  | some a => exact List.perm_singleton.mp permutation

namespace Keeps

open Dns.Reconciliation (Plan createOrUpdate decideUpdate carryOut planUpdate)

variable {desired current : Record} {name target : String} {policy : Policy}
  (keeps : Keeps transport account zones zone desired.name listed held)
include keeps

/-- What is decided rests on what is held at the name. -/
theorem decided {place : Zone} {plan : Plan}
    (desires : Desires zones zone desired name target policy)
    (decided : ((decideUpdate name target policy).run (account.service services transport)
      state).result = .ok (place, plan)) :
    place = zone ∧ ¬(desired.type = .canonicalName ∧ desired.value = desired.name) ∧
      Readable listed (held state) ∧
      ∃ present : Option Record, heldAt listed desired.name (held state) = present.toList ∧
        planUpdate policy present desired = .ok plan := by
  have asked : ((Dns.Request.createOrUpdate name target policy).decide.run
      (account.service services transport) state).result = .ok (place, plan) := decided
  obtain ⟨heard, fqdn, grounded, answered⟩ :=
    Dns.Request.decide_grounded held (keeps.service_still services) asked
  cases grounded with
  | update normalized zonesHeard chosen classified noAlias _ read sole planned =>
      rename_i present _
      cases Except.ok.inj (desires.normalized.symm.trans normalized)
      obtain ⟨early, _, zonesAnswer⟩ := answered _ zonesHeard
      cases zonesAnswer.trans (keeps.zones early)
      cases Except.ok.inj (desires.chosen.symm.trans chosen)
      cases Except.ok.inj (desires.classified.symm.trans classified)
      obtain ⟨late, looks, recordsAnswer⟩ := answered _ read
      obtain ⟨readable, permutation⟩ := (keeps.listRecords late).2 _ recordsAnswer.symm
      rw [looks] at readable permutation
      rw [desires.record_eq] at planned
      rw [sole] at permutation
      exact ⟨rfl, noAlias, readable, present, perm_toList permutation.symm, planned⟩

theorem applied {batch : Dns.Batch} {payload : Payload} {later : σ} (live : account.dryRun = false)
    (some : batch.isEmpty = false) (built : Payload.ofBatch batch = .ok payload)
    (applied : account.service services transport (.apply zone batch) state = (.ok (), later)) :
    ∃ newIds, newIds.length = payload.posts.length ∧
      (∀ id ∈ newIds, (held state).get? id = none) ∧
      held later = payload.storedIn newIds (held state) := by
  obtain ⟨sent, response, envelope, sentBuilt, delivered, opened⟩ :=
    Account.apply_ok live some applied
  cases built.symm.trans sentBuilt
  obtain ⟨newIds, _, counted, fresh, stored⟩ :=
    keeps.stores payload state response later envelope delivered opened
  exact ⟨newIds, counted, fresh, stored⟩

theorem publishes_of_applied {present : Option Record} {batch : Dns.Batch} {outcome : Dns.Outcome}
    {later : σ} (live : account.dryRun = false) (manageable : Manageable desired)
    (readable : Readable listed (held state))
    (sole : heldAt listed desired.name (held state) = present.toList)
    (planned : planUpdate policy present desired = .ok (.change batch outcome))
    (applied : account.service services transport (.apply zone batch) state = (.ok (), later)) :
    ∃ current, Publishes listed desired (held later) current := by
  have posted : Payload.ofBatch [⟨.create, desired⟩] =
      .ok ⟨[], [], [.obj (recordFields desired)]⟩ := rfl
  obtain ⟨_, _, _, settled⟩ | ⟨rfl, change⟩ | ⟨current, rfl, change⟩ | ⟨current, rfl, change⟩ :=
    Dns.Reconciliation.planUpdate_ok planned
  · cases settled
  · cases change
    -- A new record: nothing was held at the name, so nothing is held there under other ids.
    obtain ⟨newIds, counted, fresh, stored⟩ := keeps.applied live rfl posted applied
    obtain ⟨id, rfl⟩ := List.length_eq_one_iff.mp counted
    have insertion : held later = (held state).insert id (sentBody desired id) := stored
    rw [insertion]
    refine ⟨_, publishes_insert manageable keeps.own (readable.erase id) ?_⟩
    rw [Dict.erase_of_get?_eq_none (fresh id (List.mem_singleton_self id))]
    exact sole
  · cases change
    obtain ⟨id, body, found, read, nothing⟩ := heldAt_singleton sole
    rw [record?_id read (keeps.ids state id body found)] at applied
    -- A record of the same type: the new one takes its id.
    have put : Payload.ofBatch [⟨.upsert, { desired with id := some id }⟩] =
        .ok ⟨[], [sentBody desired id], []⟩ := rfl
    obtain ⟨newIds, counted, _, stored⟩ := keeps.applied live rfl put applied
    cases List.length_eq_zero_iff.mp counted
    have insertion : held later = (held state).insert id (sentBody desired id) := stored
    rw [insertion]
    exact ⟨_, publishes_insert manageable keeps.own (readable.erase id) nothing⟩
  · cases change
    obtain ⟨id, body, found, read, nothing⟩ := heldAt_singleton sole
    -- A record of another type goes, and the new one gets an id of its own.
    have replaced : Payload.ofBatch [⟨.delete, current⟩, ⟨.create, desired⟩] =
        .ok ⟨[.obj [("id", .str id)]], [], [.obj (recordFields desired)]⟩ := by
      rw [Payload.ofBatch, Payload.add, recordId,
        record?_id read (keeps.ids state id body found), posted]
      rfl
    obtain ⟨newIds, counted, fresh, stored⟩ := keeps.applied live rfl replaced applied
    obtain ⟨new, rfl⟩ := List.length_eq_one_iff.mp counted
    have insertion : held later =
        ((held state).erase id).insert new (sentBody desired new) := stored
    have gone : ((held state).erase id).get? new = none := by
      rw [Dict.get?_erase, fresh new (List.mem_singleton_self new), ite_self]
    rw [insertion]
    refine ⟨_, publishes_insert manageable keeps.own ((readable.erase id).erase new) ?_⟩
    rwa [Dict.erase_of_get?_eq_none gone]

/-- A request that succeeds leaves what it desired. -/
theorem publishes {outcome : Dns.Outcome} (live : account.dryRun = false)
    (manageable : Manageable desired) (desires : Desires zones zone desired name target policy)
    (succeeded : ((createOrUpdate name target policy).run (account.service services transport)
      state).result = .ok outcome) :
    ¬(desired.type = .canonicalName ∧ desired.value = desired.name) ∧
      ∃ current, Publishes listed desired (held ((createOrUpdate name target policy).run
        (account.service services transport) state).state) current := by
  rw [createOrUpdate_eq, Dns.Dialogue.run_bind] at succeeded ⊢
  obtain ⟨⟨place, plan⟩, decided, carried⟩ := Dns.Run.followedBy_result_ok_iff.mp succeeded
  obtain ⟨rfl, noAlias, readable, present, sole, planned⟩ := keeps.decided desires decided
  have same := (Dns.Reconciliation.callsOnly_decideUpdate name target policy).run_view held
    (keeps.service_still services) state
  rw [Dns.Run.followedBy_of_ok decided]
  refine ⟨noAlias, ?_⟩
  rw [← same] at readable sole
  generalize ((decideUpdate name target policy).run (account.service services transport) state).state =
    middle at readable sole carried
  cases plan with
  | settled settledOutcome =>
      obtain ⟨current, rfl, agrees, _⟩ | ⟨_, ⟨⟩⟩ | ⟨_, _, ⟨⟩⟩ | ⟨_, _, ⟨⟩⟩ :=
        Dns.Reconciliation.planUpdate_ok planned
      exact ⟨current, readable, sole, agrees⟩
  | change batch _ =>
      exact keeps.publishes_of_applied live manageable readable sole planned
        (Dns.Reconciliation.apply_of_carryOut carried)

/-- Where the desired record is published, a request for it sends no batch. -/
theorem run_of_publishes (services : Net.LookupServices)
    (desires : Desires zones zone desired name target policy)
    (publishes : Publishes listed desired (held state) current) :
    (∀ call ∈ ((createOrUpdate name target policy).run (account.service services transport)
      state).calls, call.isReading = true) ∧
    held ((createOrUpdate name target policy).run (account.service services transport) state).state =
      held state ∧
    ∀ outcome, ((createOrUpdate name target policy).run (account.service services transport)
      state).result = .ok outcome → outcome = .unchanged (some current) := by
  have callsOnly := Dns.Reconciliation.callsOnly_decideUpdate name target policy
  have same := callsOnly.run_view held (keeps.service_still services) state
  have reading : ∀ call ∈ ((decideUpdate name target policy).run
      (account.service services transport) state).calls, call.isReading = true := by
    rw [Dns.Dialogue.run_calls]
    exact List.forall_mem_map.mpr (callsOnly.transcript (Dns.Dialogue.transcript_run _ _ _))
  rw [createOrUpdate_eq, Dns.Dialogue.run_bind]
  cases decided : ((decideUpdate name target policy).run (account.service services transport)
      state).result with
  | error e =>
      rw [Dns.Run.followedBy_of_error decided]
      exact ⟨reading, same, nofun⟩
  | ok found =>
      obtain ⟨place, plan⟩ := found
      obtain ⟨rfl, _, _, present, sole, planned⟩ := keeps.decided desires decided
      obtain rfl : present = some current := by
        rw [publishes.sole] at sole
        cases present with
        | none => cases sole
        | some record => rw [(List.cons.inj sole).1]
      rw [Dns.Run.followedBy_of_ok decided]
      cases plan with
      | settled outcome =>
          obtain ⟨_, ⟨⟩, _, ⟨⟩⟩ | ⟨⟨⟩, _⟩ | ⟨_, _, ⟨⟩⟩ | ⟨_, _, ⟨⟩⟩ :=
            Dns.Reconciliation.planUpdate_ok planned
          refine ⟨?_, same, ?_⟩
          · simpa [carryOut, Dns.Dialogue.ok] using reading
          · intro settledOutcome settled
            exact (Except.ok.inj settled).symm
      | change batch outcome =>
          -- A change is planned only where the present record differs.
          have differs := ((Dns.Reconciliation.planUpdate_change planned).2 current rfl).1
          rw [publishes.agrees] at differs
          cases differs

theorem findZone_result (services : Net.LookupServices)
    (desires : Desires zones zone desired name target policy) (state : σ) :
    ((Dns.Reconciliation.findZone desired.name).run (account.service services transport)
      state).result = .ok zone := by
  have answer : ((Dns.Dialogue.call .listZones).run (account.service services transport)
      state).result = .ok zones := by
    rw [Dns.Dialogue.run_call]
    exact keeps.zones state
  rw [Dns.Reconciliation.findZone, Dns.Dialogue.bind_result_of_ok answer, desires.chosen]
  rfl

theorem findRecord_result (services : Net.LookupServices)
    (publishes : Publishes listed desired (held state) current) :
    ((Dns.Reconciliation.findRecord zone desired.name).run (account.service services transport)
      state).result = .ok (some current) := by
  obtain ⟨records, heard⟩ := (keeps.listRecords state).1 publishes.readable
  have permutation := ((keeps.listRecords state).2 records heard).2
  rw [publishes.sole] at permutation
  have sole : Dns.soleRecord desired.name records = .ok (some current) := by
    simp only [Dns.soleRecord, List.perm_singleton.mp permutation]
  have answer : ((Dns.Dialogue.call (.listRecords zone desired.name)).run
      (account.service services transport) state).result = .ok records := by
    rw [Dns.Dialogue.run_call]
    exact heard
  rw [Dns.Reconciliation.findRecord, Dns.Dialogue.bind_result_of_ok answer, sole]
  rfl

/-- Without a verification what is decided depends on what is published alone. -/
theorem decideUpdate_result (services : Net.LookupServices)
    (desires : Desires zones zone desired name target policy)
    (noAlias : ¬(desired.type = .canonicalName ∧ desired.value = desired.name))
    (valid : policy.validate = .ok ()) (unverified : policy.verifyTarget = false)
    (publishes : Publishes listed desired (held state) current) :
    ((decideUpdate name target policy).run (account.service services transport) state).result =
      (planUpdate policy (some current) desired).map fun plan => (zone, plan) := by
  have same := (Dns.Reconciliation.callsOnly_findZone desired.name).run_view held
    (keeps.service_still services) state
  have found := keeps.findZone_result services desires state
  have read := keeps.findRecord_result services (same ▸ publishes)
  simp only [decideUpdate, valid, desires.normalized, Dns.Dialogue.lift_eq,
    Dns.Dialogue.done_ok_bind]
  rw [Dns.Dialogue.bind_result_of_ok found]
  simp only [desires.classified, Dns.Dialogue.done_ok_bind, if_neg noAlias, unverified,
    Bool.false_eq_true, if_false]
  rw [Dns.Dialogue.bind_result_of_ok read, desires.record_eq]
  cases planUpdate policy (some current) desired <;> rfl

/-- Without a verification the request succeeds, or is told of the record it desires. -/
theorem result_of_publishes (services : Net.LookupServices)
    (desires : Desires zones zone desired name target policy)
    (noAlias : ¬(desired.type = .canonicalName ∧ desired.value = desired.name))
    (valid : policy.validate = .ok ()) (unverified : policy.verifyTarget = false)
    (publishes : Publishes listed desired (held state) current) :
    ((createOrUpdate name target policy).run (account.service services transport) state).result =
      if policy.allowExisting then .ok (.unchanged (some current))
      else .error (.recordExists desired.name current.text) := by
  have decided := keeps.decideUpdate_result services desires noAlias valid unverified
    publishes
  rw [planUpdate, publishes.agrees, if_pos rfl] at decided
  rw [createOrUpdate_eq]
  cases allowed : policy.allowExisting with
  | true =>
      rw [allowed, if_pos rfl] at decided
      rw [Dns.Dialogue.bind_result_of_ok decided]
      rfl
  | false =>
      rw [allowed, if_neg Bool.false_ne_true] at decided
      rw [Dns.Dialogue.run_bind, Dns.Run.followedBy_of_error decided]
      rfl

end Keeps

end Requests

/-- What is sent of a managed record is read as the record, whatever its id.  A request for what
has been requested before therefore finds it and sends no batch, on a server that keeps what it
is sent. -/
theorem createOrUpdate_again :
    (∀ {record : Record}, Manageable record → ∀ id,
      record? (.obj (recordFields record ++ [("id", .str id)])) = some { record with id := some id }) ∧
    ∀ {σ : Type} {transport : Http.Transport σ} {account : Account} {services : Net.LookupServices}
      {zones : List Zone} {zone : Zone} {desired : Record} {listed : Json → Bool}
      {held : σ → Dict Json} {name target name' target' : String} {policy policy' : Policy}
      {state : σ} {outcome : Dns.Outcome},
      Keeps transport account zones zone desired.name listed held → account.dryRun = false →
      Manageable desired → Desires zones zone desired name target policy →
      Desires zones zone desired name' target' policy' →
      let service := account.service services transport
      let first := (Dns.Reconciliation.createOrUpdate name target policy).run service state
      let second := (Dns.Reconciliation.createOrUpdate name' target' policy').run service first.state
      first.result = .ok outcome →
        (∀ call ∈ second.calls, call.isReading = true) ∧ held second.state = held first.state ∧
        ∃ current : Record, current.agrees desired = true ∧
          (∀ again, second.result = .ok again → again = .unchanged (some current)) ∧
          (policy'.validate = .ok () → policy'.verifyTarget = false → second.result =
            if policy'.allowExisting then .ok (.unchanged (some current))
            else .error (.recordExists desired.name current.text)) := by
  refine ⟨fun manageable id => manageable.record?_sent id, ?_⟩
  intro σ transport account services zones zone desired listed held name target name' target'
    policy policy' state outcome keeps live manageable desires desiresAgain service first second
    succeeded
  obtain ⟨noAlias, current, publishes⟩ := keeps.publishes live manageable desires succeeded
  obtain ⟨reading, same, settled⟩ := keeps.run_of_publishes services desiresAgain publishes
  exact ⟨reading, same, current, publishes.agrees, settled, fun valid unverified =>
    keeps.result_of_publishes services desiresAgain noAlias valid unverified publishes⟩

/-! ### A server with a single record -/

namespace SmallServer

def account : Account := ⟨"token", none, "http://api", false⟩

def zone : Zone := ⟨"z1", "example.com"⟩

def record : Record := ⟨"nas.example.com.", .address, 300, "192.0.2.7", none⟩

def payload : Payload := ⟨[], [], [.obj (recordFields record)]⟩

/-- What is held, before and after the record has been posted. -/
def held (posted : Bool) : Dict Json :=
  if posted then .ofList [("r1", sentBody record "r1")] else .empty

def isListed (body : Json) : Bool :=
  textField? "name" body == some "nas.example.com"

def listing (items : List Json) : Json :=
  .obj [("success", .bool true), ("errors", .arr []), ("result", .arr items)]

/-- Lists the zone and the record, and accepts the record once. -/
def server : Http.Transport Bool := fun request posted =>
  if request = account.recordsRequest zone record.name then
    (.ok ⟨200, (listing ((held posted).entries.map (·.2))).compact⟩, posted)
  else if request = account.batchRequest zone payload ∧ posted = false then
    (.ok ⟨200, (listing []).compact⟩, true)
  else if request.isReading = true ∧ request.url.path = "/zones".toList then
    (.ok ⟨200, (listing [.obj [("id", .str "z1"), ("name", .str "example.com")]]).compact⟩, posted)
  else (.ok ⟨404, ""⟩, posted)

theorem payload_of_batchRequest {other : Payload}
    (same : account.batchRequest zone other = account.batchRequest zone payload) :
    other = payload := by
  have bodies : some other.toJson = some payload.toJson := congrArg Http.Request.body same
  obtain ⟨deletes, puts, posts⟩ := other
  simp only [Payload.toJson, Option.some.injEq, Json.obj.injEq, List.cons.injEq, Prod.mk.injEq,
    Json.arr.injEq, true_and, and_true] at bodies
  obtain ⟨rfl, rfl, rfl⟩ := bodies
  rfl

/-- Results are compared as options, which can be decided. -/
theorem eq_ok_of_toOption {result : Except ε α} {a : α} (same : result.toOption = some a) :
    result = .ok a := by
  cases result with
  | error e => cases same
  | ok b =>
      cases same
      rfl

theorem listZones_server (posted : Bool) :
    (account.listZones.run server posted).1 = .ok [zone] := by
  apply eq_ok_of_toOption
  cases posted <;> decide +kernel

theorem server_still {request : Http.Request} (reading : request.isReading = true)
    (posted : Bool) : (Http.Transport.deliver server request posted).2 = posted := by
  unfold Http.Transport.deliver server
  split
  · split
    · rfl
    · split
      · rename_i batch
        rw [batch.1] at reading
        cases reading
      · split <;> rfl
  · rfl

theorem filter_isListed_held (posted : Bool) :
    ((held posted).entries.map (·.2)).filter isListed = (held posted).entries.map (·.2) := by
  cases posted <;> rfl

theorem deliver_recordsRequest (posted : Bool) :
    Http.Transport.deliver server (account.recordsRequest zone record.name) posted =
      (.ok ⟨200, (listing ((held posted).entries.map (·.2))).compact⟩, posted) := by
  have sendable : (account.recordsRequest zone record.name).isWellFormed = true := by decide
  rw [Http.Transport.deliver, if_pos sendable, server, if_pos rfl]

theorem lists_listing (posted : Bool) :
    Lists ⟨200, (listing ((held posted).entries.map (·.2))).compact⟩
      ((held posted).entries.map (·.2)) := by
  have read : ∀ posted, Json.parseChars?
      (listing ((held posted).entries.map (·.2))).compact.toList =
        some (listing ((held posted).entries.map (·.2))) := by decide +kernel
  refine ⟨rfl, ⟨true, [], some (.arr _), none⟩, ?_, rfl, rfl⟩
  rw [Http.Response.json?, read]
  rfl

theorem keeps : Keeps server account [zone] zone record.name isListed held where
  still _ posted reading := congrArg held (server_still reading posted)
  ids posted id body found := by
    cases posted with
    | false => cases found
    | true =>
        have listed : (id, body) ∈ (held true).entries := Dict.mem_entries.mpr found
        cases List.mem_singleton.mp listed
        rfl
  own body named := by
    simp [isListed, named]
    decide
  zones := listZones_server
  lists posted :=
    ⟨_, _, posted, deliver_recordsRequest posted, lists_listing posted,
      by rw [filter_isListed_held posted]⟩
  stores other posted response later envelope delivered opened := by
    unfold Http.Transport.deliver server at delivered
    split at delivered
    · rw [if_neg (fun same => by cases congrArg Http.Request.method same)] at delivered
      split at delivered
      · rename_i accepted
        cases payload_of_batchRequest accepted.1
        cases delivered
        rw [accepted.2]
        exact ⟨["r1"], by simp, rfl, by simp [held], by decide +kernel⟩
      · split at delivered
        · rename_i listing
          cases listing.1
        · cases delivered
          cases opened
    · cases delivered

def service : Dns.Service Bool :=
  account.service .default server

theorem desires (name target : String)
    (normalized : (Dns.normalizeName name).toOption = some record.name)
    (classified : (Dns.classifyTarget zone target).toOption = some (record.type, record.value)) :
    Desires [zone] zone record name target .default :=
  ⟨eq_ok_of_toOption normalized, eq_ok_of_toOption (by decide +kernel),
    eq_ok_of_toOption classified, rfl, rfl⟩

theorem manageable : Manageable record :=
  ⟨⟨"nas.example.com", eq_ok_of_toOption (by decide +kernel)⟩, by decide,
    .inl ⟨rfl, by decide +kernel⟩⟩

end SmallServer

open Dns.Reconciliation in
theorem smallServer_again :
    ∃ current : Record, current.agrees SmallServer.record = true ∧
      let first := (createOrUpdate "nas.example.com" "192.0.2.7" .default).run
        SmallServer.service false
      let second := (createOrUpdate "NAS.example.com." " 192.0.2.7 " .default).run
        SmallServer.service first.state
      first.result = .ok (.created SmallServer.record) ∧
        second.result = .ok (.unchanged (some current)) ∧
        ∀ call ∈ second.calls, call.isReading = true := by
  have created : ((createOrUpdate "nas.example.com" "192.0.2.7" .default).run
      SmallServer.service false).result = .ok (.created SmallServer.record) :=
    SmallServer.eq_ok_of_toOption (by decide +kernel)
  obtain ⟨reading, _, current, agrees, _, settled⟩ := createOrUpdate_again.2 SmallServer.keeps rfl
    SmallServer.manageable
    (SmallServer.desires "nas.example.com" "192.0.2.7" (by decide +kernel) (by decide +kernel))
    (SmallServer.desires "NAS.example.com." " 192.0.2.7 " (by decide +kernel) (by decide +kernel))
    created
  exact ⟨current, agrees, created, settled rfl rfl, reading⟩

end HubKeeper.Cloudflare
