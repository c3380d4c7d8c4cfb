import HubKeeper.Cloudflare.Service
import HubKeeper.Proofs.Collections.Lookup
import HubKeeper.Proofs.Dns.Dialogues
import HubKeeper.Proofs.Http.Exchanges

/-!
What an account makes of the answers to its requests.

A listing is read item by item, and fails as a whole if one of them cannot be read.  A batch
has been applied once the response to it is opened.  Every other call reads only.
-/

namespace HubKeeper.Cloudflare

/-! ### Listings -/

structure Lists (response : Http.Response) (items : List Json) : Prop where
  status : Http.isSuccess response.status = true
  envelope : ∃ envelope, response.json?.bind (Envelope.ofJson? some) = some envelope ∧
    envelope.success = true ∧ envelope.result = some (.arr items)

/-- What stands in an envelope is read as it would be on its own. -/
theorem Envelope.ofJson?_result {json value : Json} {envelope : Envelope Json}
    (opened : ofJson? some json = some envelope) (result : envelope.result = some value)
    (read : Json → Option α) :
    ofJson? read json = (read value).map fun a => { envelope with result := some a } := by
  unfold ofJson? at opened ⊢
  split at opened
  · rename_i success errors slot info _
    obtain ⟨succeeded, read₁, opened⟩ := Option.bind_eq_some_iff.mp opened
    obtain ⟨messages, read₂, opened⟩ := Option.bind_eq_some_iff.mp opened
    obtain ⟨present, read₃, opened⟩ := Option.bind_eq_some_iff.mp opened
    obtain ⟨pages, read₄, opened⟩ := Option.bind_eq_some_iff.mp opened
    cases opened
    have held : slot.optional? read = (read value).map some := by
      cases slot with
      | missing inArray =>
          cases inArray with
          | false =>
              cases read₃
              cases result
          | true => cases read₃
      | value json =>
          simp only [Json.Slot.optional?, Json.Slot.nullable?] at read₃ ⊢
          split at read₃ <;> rename_i null <;> cases read₃ <;> cases result
          rw [if_neg null]
    simp only [read₁, read₂, held, read₄, Option.bind_eq_bind, Option.bind_some]
    cases read value <;> rfl
  · cases opened

def unreadable : Error :=
  .provider providerName ("Failed to parse response: " ++ Http.Response.undecodable)

theorem Lists.openEnvelope {response : Http.Response} {items : List Json}
    (lists : Lists response items) (read : Json → Option α) (context : String) :
    ∃ pages errors, openEnvelope (Json.listOf? read) context response =
      match items.mapM read with
      | none => .error unreadable
      | some found => .ok ⟨true, errors, some found, pages⟩ := by
  obtain ⟨envelope, opened, success, result⟩ := lists.envelope
  obtain ⟨json, body, opened⟩ := Option.bind_eq_some_iff.mp opened
  refine ⟨envelope.totalPages, envelope.errors, ?_⟩
  have readAs := Envelope.ofJson?_result opened result (Json.listOf? read)
  simp only [Cloudflare.openEnvelope, lists.status, body, Option.bind_some, readAs, Json.listOf?,
    Json.array?]
  cases items.mapM read with
  | none => rfl
  | some found => simp [success]

namespace Account

variable {account : Account} {zone : Dns.Zone} {transport : Http.Transport σ} {state later : σ}

theorem get_run (path : String) (parameters : List (String × String)) (read : Json → Option α)
    (context : String) :
    (account.get path parameters read context).run transport state =
      match transport.deliver ((Http.Request.get
        ((Http.Url.ofText (account.baseUrl ++ path)).withParameters parameters)).bearing
          account.token) state with
      | (.error fault, later) => (.error (requestFailed fault), later)
      | (.ok response, later) => (openEnvelope read context response, later) := by
  simp only [Account.get, Http.Exchange.run_bind, Http.Exchange.run_request]
  rcases transport.deliver _ state with ⟨_ | _, _⟩ <;> rfl

def recordsRequest (account : Account) (zone : Dns.Zone) (name : String) : Http.Request :=
  (Http.Request.get ((Http.Url.ofText
    (account.baseUrl ++ ("/zones/" ++ zone.id ++ "/dns_records"))).withParameters
      [("name", Text.trimEndOf '.' name), ("per_page", Text.natText recordsPerPage)])).bearing
    account.token

def batchRequest (account : Account) (zone : Dns.Zone) (payload : Payload) : Http.Request :=
  (Http.Request.post (Http.Url.ofText
    (account.baseUrl ++ "/zones/" ++ zone.id ++ "/dns_records/batch")) payload.toJson).bearing
    account.token

theorem listRecords_run {name : String} {response : Http.Response} {items : List Json}
    (delivered : transport.deliver (account.recordsRequest zone name) state = (.ok response, later))
    (lists : Lists response items) :
    (account.listRecords zone name).run transport state =
      ((items.mapM record?).elim (.error unreadable) .ok, later) := by
  obtain ⟨pages, errors, opened⟩ := lists.openEnvelope record? "Record listing"
  unfold recordsRequest at delivered
  simp only [listRecords, Http.Exchange.run_bind, get_run, delivered, opened]
  cases items.mapM record? <;> rfl

/-- A batch that is applied has been sent, and the response to it could be opened. -/
theorem apply_ok {batch : Dns.Batch} (live : account.dryRun = false) (some : batch.isEmpty = false)
    (applied : (account.apply zone batch).run transport state = (.ok (), later)) :
    ∃ payload response envelope, Payload.ofBatch batch = .ok payload ∧
      transport.deliver (account.batchRequest zone payload) state = (.ok response, later) ∧
      openEnvelope Option.some "Record batch" response = .ok envelope := by
  rw [Account.apply, some, if_neg Bool.false_ne_true] at applied
  obtain ⟨payload, built, applied⟩ := Http.Exchange.run_lift_bind_ok applied
  rw [live, if_neg Bool.false_ne_true] at applied
  obtain ⟨response, middle, delivered, applied⟩ := Http.Exchange.run_bind_ok applied
  obtain ⟨envelope, opened, applied⟩ := Http.Exchange.run_lift_bind_ok applied
  cases applied
  exact ⟨payload, response, envelope, built, Http.Exchange.run_request_ok delivered, opened⟩

/-! ### Calls that read -/

theorem reads_get (path : String) (parameters : List (String × String)) (read : Json → Option α)
    (context : String) : (account.get path parameters read context).Reads :=
  .bind (Http.Exchange.reads_request rfl _) fun _ => Http.Exchange.reads_lift _

theorem reads_zonesFrom (left page : Nat) : (account.zonesFrom left page).Reads := by
  induction left generalizing page with
  | zero => trivial
  | succ left ih =>
      refine .bind (reads_get _ _ _ _) fun envelope => ?_
      dsimp only
      split
      · exact .bind (ih _) fun _ => trivial
      · trivial

/-- Every call but the application of a batch sends reading requests only. -/
theorem reads_exchange (services : Net.LookupServices) {call : Dns.Call}
    (reading : call.isReading = true) : (account.exchange services call).Reads := by
  cases call with
  | listZones => exact reads_zonesFrom _ _
  | listRecords zone name => exact .bind (reads_get _ _ _ _) fun _ => trivial
  | apply zone batch => cases reading
  | resolve name =>
      exact .bind (Http.Exchange.reads_request rfl _) fun _ => Http.Exchange.reads_lift _
  | publicAddress =>
      exact .bind (Http.Exchange.reads_request rfl _) fun _ => Http.Exchange.reads_lift _

end Account

end HubKeeper.Cloudflare
