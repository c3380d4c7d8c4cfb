import HubKeeper.Proofs.Cloudflare.Answers
import HubKeeper.Proofs.Cloudflare.Encoding
import HubKeeper.Proofs.Collections.Lookup

/-!
A server that keeps what it is sent.

The server holds the records of a zone as JSON objects with an id each, puts and posts them as
they are sent, and lists those at a name.  What a record is sent as is read as the record, so
once a record has been brought to a name, it is found there.
-/

namespace HubKeeper.Cloudflare

open Dns (Record Zone comparableName managedAt)

/-- The text of a field that stands once in an object. -/
def textField? (name : String) : Json → Option String
  | .obj fields =>
      match Json.valuesOf name fields with
      | [value] => value.text?
      | _ => none
  | _ => none

def withId (id : String) : Json → Json
  | .obj fields => .obj (fields ++ [("id", .str id)])
  | other => other

/-- Records by id, without those to delete, with those put in place of what had their ids, and
with those posted under new ids. -/
def Payload.storedIn (payload : Payload) (newIds : List String) (records : Dict Json) : Dict Json :=
  let left := payload.deletes.foldl (fun records body =>
    (textField? "id" body).elim records records.erase) records
  let replaced := payload.puts.foldl (fun records body =>
    (textField? "id" body).elim records fun id => records.insert id body) left
  (newIds.zip payload.posts).foldl (fun records new =>
    records.insert new.1 (withId new.1 new.2)) replaced

/-- A server that keeps the records of a zone as they are sent.  It holds them by id, and lists
at a name at least those that were sent with this name. -/
structure Keeps (transport : Http.Transport σ) (account : Account) (zones : List Zone) (zone : Zone)
    (fqdn : String) (listed : Json → Bool) (held : σ → Dict Json) : Prop where
  still : ∀ request state, request.isReading = true →
    held (transport.deliver request state).2 = held state
  ids : ∀ state id body, (held state).get? id = some body → textField? "id" body = some id
  own : ∀ body, textField? "name" body = some (Text.trimEndOf '.' fqdn) → listed body = true
  zones : ∀ state, (account.listZones.run transport state).1 = .ok zones
  lists : ∀ state, ∃ response items later,
    transport.deliver (account.recordsRequest zone fqdn) state = (.ok response, later) ∧
      Lists response items ∧ items.Perm (((held state).entries.map (·.2)).filter listed)
  stores : ∀ payload state response later envelope,
    transport.deliver (account.batchRequest zone payload) state = (.ok response, later) →
    openEnvelope some "Record batch" response = .ok envelope →
      ∃ newIds : List String, newIds.Nodup ∧ newIds.length = payload.posts.length ∧
        (∀ id ∈ newIds, (held state).get? id = none) ∧
        held later = payload.storedIn newIds (held state)

/-! ### What is held at a name -/

def Readable (listed : Json → Bool) (records : Dict Json) : Prop :=
  ∀ id body, records.get? id = some body → listed body = true → (record? body).isSome = true

def managedRecord? (listed : Json → Bool) (fqdn : String) (entry : String × Json) : Option Record :=
  if listed entry.2 then
    (record? entry.2).filter fun record =>
      record.type.isManaged && comparableName record.name == fqdn
  else none

def heldAt (listed : Json → Bool) (fqdn : String) (records : Dict Json) : List Record :=
  records.entries.filterMap (managedRecord? listed fqdn)

variable {transport : Http.Transport σ} {account : Account} {zones : List Zone} {zone : Zone}
  {fqdn : String} {listed : Json → Bool} {held : σ → Dict Json} {services : Net.LookupServices}
  {state : σ}

theorem managedAt_filterMap (fqdn : String) (entries : List (String × Json)) :
    managedAt fqdn (((entries.map (·.2)).filter listed).filterMap record?) =
      entries.filterMap (managedRecord? listed fqdn) := by
  rw [List.filter_map, List.filterMap_map, List.filterMap_filter, managedAt, List.filter_filterMap]
  refine List.filterMap_congr fun entry _ => ?_
  simp only [Function.comp, managedRecord?]
  split <;> rfl

namespace Keeps

variable (keeps : Keeps transport account zones zone fqdn listed held)
include keeps

/-- The records at the name are read as they are held, unless one of them cannot be read. -/
theorem listRecords (state : σ) :
    (Readable listed (held state) → ∃ records,
      (account.service services transport (.listRecords zone fqdn) state).1 = .ok records) ∧
    ∀ records, (account.service services transport (.listRecords zone fqdn) state).1 = .ok records →
      Readable listed (held state) ∧
        (managedAt fqdn records).Perm (heldAt listed fqdn (held state)) := by
  obtain ⟨response, items, later, delivered, lists, permutation⟩ := keeps.lists state
  have answer : (account.service services transport (.listRecords zone fqdn) state).1 =
      (items.mapM record?).elim (.error unreadable) .ok :=
    congrArg Prod.fst (Account.listRecords_run delivered lists)
  -- The answer lists the held bodies in some order, so it can be read just if each of them can.
  have readable : Readable listed (held state) ↔ ∀ item ∈ items, (record? item).isSome = true := by
    simp only [permutation.mem_iff, List.mem_filter, List.mem_map, Readable]
    constructor
    · rintro each body ⟨⟨⟨id, _⟩, member, rfl⟩, isListed⟩
      exact each id _ (Dict.mem_entries.mp member) isListed
    · intro each id body found isListed
      exact each body ⟨⟨(id, body), Dict.mem_entries.mpr found, rfl⟩, isListed⟩
  rw [answer]
  constructor
  · intro each
    rw [mapM_eq_some_iff.mpr ⟨readable.mp each, rfl⟩]
    exact ⟨_, rfl⟩
  · intro records read
    cases found : items.mapM record? with
    | none =>
        rw [found] at read
        cases read
    | some all =>
        rw [found] at read
        cases read
        obtain ⟨each, rfl⟩ := mapM_eq_some_iff.mp found
        refine ⟨readable.mpr each, ?_⟩
        rw [heldAt, ← managedAt_filterMap]
        exact (permutation.filterMap record?).filter _

theorem service_still (services : Net.LookupServices) (call : Dns.Call) (state : σ)
    (reading : call.isReading = true) :
    held (account.service services transport call state).2 = held state :=
  (Account.reads_exchange services reading).run_view held keeps.still state

end Keeps

theorem Readable.erase {records : Dict Json} (readable : Readable listed records) (id : String) :
    Readable listed (records.erase id) := by
  intro other body found isListed
  rw [Dict.get?_erase] at found
  split at found
  · cases found
  · exact readable other body found isListed

theorem heldAt_of_get? {records : Dict Json} {id : String} {body : Json}
    (found : records.get? id = some body) (listed : Json → Bool) (fqdn : String) :
    (heldAt listed fqdn records).Perm
      ((managedRecord? listed fqdn (id, body)).toList ++ heldAt listed fqdn (records.erase id)) := by
  have permutation := (Dict.perm_of_get? found).filterMap (managedRecord? listed fqdn)
  rw [List.filterMap_cons] at permutation
  cases here : managedRecord? listed fqdn (id, body) with
  | none => simpa [heldAt, here] using permutation
  | some record => simpa [heldAt, here] using permutation

/-- Where a single managed record is held, it is under some id, and there is none without it. -/
theorem heldAt_singleton {records : Dict Json} {current : Record}
    (sole : heldAt listed fqdn records = [current]) :
    ∃ id body, records.get? id = some body ∧ record? body = some current ∧
      heldAt listed fqdn (records.erase id) = [] := by
  have member : current ∈ heldAt listed fqdn records := sole ▸ List.mem_singleton_self _
  obtain ⟨⟨id, body⟩, entry, managed⟩ := List.mem_filterMap.mp member
  have found := Dict.mem_entries.mp entry
  have permutation := heldAt_of_get? found listed fqdn
  rw [managed, sole] at permutation
  have alone := List.perm_singleton.mp permutation.symm
  refine ⟨id, body, found, ?_, (List.cons.inj alone).2⟩
  simp only [managedRecord?] at managed
  split at managed
  · exact (Option.filter_eq_some_iff.mp managed).1
  · cases managed

theorem text?_eq_some {json : Json} {text : String} (read : json.text? = some text) :
    json = .str text := by
  cases json with
  | str found =>
      cases read
      rfl
  | _ => cases read

theorem record?_id {body : Json} {id : String} {record : Record} (read : record? body = some record)
    (identified : textField? "id" body = some id) : record.id = some id := by
  cases body with
  | obj fields =>
      simp only [textField?] at identified
      split at identified
      · rename_i value held
        cases text?_eq_some identified
        simp only [record?] at read
        split at read
        · rename_i slots
          simp only [Json.record?, List.mapM_cons, held] at slots
          obtain ⟨_, ⟨⟩, slots⟩ := Option.bind_eq_some_iff.mp slots
          obtain ⟨_, _, ⟨⟩⟩ := Option.bind_eq_some_iff.mp slots
          obtain ⟨_, ⟨⟩, read⟩ := Option.bind_eq_some_iff.mp read
          obtain ⟨_, _, read⟩ := Option.bind_eq_some_iff.mp read
          obtain ⟨_, _, read⟩ := Option.bind_eq_some_iff.mp read
          obtain ⟨_, _, read⟩ := Option.bind_eq_some_iff.mp read
          obtain ⟨_, _, ⟨⟩⟩ := Option.bind_eq_some_iff.mp read
          exact identified
        · cases read
      · cases identified
  | _ => cases identified

/-! ### What a run leaves -/

/-- The records of a zone publish what is desired: the only managed one at the name agrees with
it. -/
structure Publishes (listed : Json → Bool) (desired : Record) (records : Dict Json)
    (current : Record) : Prop where
  readable : Readable listed records
  sole : heldAt listed desired.name records = [current]
  agrees : current.agrees desired = true

theorem publishes_insert {desired : Record} (manageable : Manageable desired)
    (own : ∀ body, textField? "name" body = some (Text.trimEndOf '.' desired.name) →
      listed body = true)
    {records : Dict Json} {id : String} (readable : Readable listed (records.erase id))
    (nothing : heldAt listed desired.name (records.erase id) = []) :
    Publishes listed desired (records.insert id (sentBody desired id))
      { desired with id := some id } := by
  have read : record? (sentBody desired id) = some { desired with id := some id } :=
    manageable.record?_sent id
  have isListed : listed (sentBody desired id) = true := own _ rfl
  have managedType : desired.type.isManaged = true := by
    obtain ⟨type, _⟩ | ⟨type, _⟩ := manageable.value <;> rw [type] <;> rfl
  have spelled : comparableName desired.name = desired.name := by
    obtain ⟨name, normalized⟩ := manageable.name
    exact Dns.comparableName_normalizeName normalized
  have managed : managedRecord? listed desired.name (id, sentBody desired id) =
      some { desired with id := some id } := by
    simp [managedRecord?, isListed, read, managedType, spelled]
  refine ⟨fun other body found isListed => ?_, ?_, by simp [Record.agrees]⟩
  · rw [Dict.get?_insert] at found
    split at found
    · cases found
      rw [read]
      rfl
    · rename_i different
      exact readable other body (by rw [Dict.get?_erase, if_neg different, found]) isListed
  · have held : (records.insert id (sentBody desired id)).get? id = some (sentBody desired id) :=
      Dict.get?_insert_self
    have permutation := heldAt_of_get? held listed desired.name
    rw [managed, Dict.erase_insert_self, nothing] at permutation
    exact List.perm_singleton.mp permutation

end HubKeeper.Cloudflare
