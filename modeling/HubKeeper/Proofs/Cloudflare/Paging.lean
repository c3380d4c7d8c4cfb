import HubKeeper.Dns.Reconciliation
import HubKeeper.Proofs.Cloudflare.Answers
import HubKeeper.Proofs.Cloudflare.Encoding
import HubKeeper.Proofs.Json.Reading

/-!
Listings that come in pages.

The zones are asked for page by page, and how many pages there are is told anew with every one
of them.  Whatever is told, the pages are those from the first one on without a gap, and the
last one is the first that tells of no further page or cannot be read.

The records at a name are asked for once.  What a server has on further pages is not read.
-/

namespace HubKeeper.Cloudflare

open Dns (Zone Record managedAt soleRecord)

/-! ### Page counts -/

theorem pages?_lt {json : Json} {pages : Nat} (counted : Envelope.pages? json = some pages) :
    pages < UInt32.size := by
  unfold Envelope.pages? at counted
  split at counted
  · rename_i total _
    cases total with
    | missing inArray => cases counted
    | value json =>
        simp only [Json.Slot.required?, Json.word?] at counted
        cases json with
        | num n =>
            cases n with
            | int n =>
                simp only [Json.natBelow?] at counted
                split at counted
                · rename_i bounds
                  cases counted
                  simp only [Bool.and_eq_true, decide_eq_true_eq] at bounds
                  omega
                · cases counted
            | double x => cases counted
        | _ => cases counted
  · cases counted

theorem Envelope.totalPages_lt {read : Json → Option α} {json : Json} {envelope : Envelope α}
    (opened : ofJson? read json = some envelope) : envelope.totalPages.getD 1 < UInt32.size := by
  unfold ofJson? at opened
  split at opened
  · rename_i info _
    obtain ⟨_, _, opened⟩ := Option.bind_eq_some_iff.mp opened
    obtain ⟨_, _, opened⟩ := Option.bind_eq_some_iff.mp opened
    obtain ⟨_, _, opened⟩ := Option.bind_eq_some_iff.mp opened
    obtain ⟨pages, counted, opened⟩ := Option.bind_eq_some_iff.mp opened
    cases opened
    cases pages with
    | none => exact (by decide : 1 < UInt32.size)
    | some pages =>
        cases info with
        | missing inArray => cases inArray <;> cases counted
        | value json =>
            simp only [Json.Slot.optional?, Json.Slot.nullable?] at counted
            split at counted
            · cases counted
            · obtain ⟨_, counted, ⟨⟩⟩ := Option.map_eq_some_iff.mp counted
              exact pages?_lt counted
  · cases opened

theorem openEnvelope_totalPages_lt {read : Json → Option α} {context : String}
    {response : Http.Response} {envelope : Envelope α}
    (opened : openEnvelope read context response = .ok envelope) :
    envelope.totalPages.getD 1 < UInt32.size := by
  unfold openEnvelope at opened
  split at opened
  · cases opened
  · split at opened
    · cases opened
    · rename_i found
      obtain ⟨json, _, read⟩ := Option.bind_eq_some_iff.mp found
      split at opened
      · cases opened
        exact Envelope.totalPages_lt read
      · cases opened

namespace Account

variable {account : Account} {transport : Http.Transport σ} {state : σ}

/-! ### Zones -/

def zonesRequest (account : Account) (page : Nat) : Http.Request :=
  (Http.Request.get ((Http.Url.ofText (account.baseUrl ++ "/zones")).withParameters
    ([("page", Text.natText page), ("per_page", Text.natText zonesPerPage)] ++
      (account.accountId.map fun id => ("account.id", id)).toList))).bearing account.token

def readZones : Except Http.Fault Http.Response → Except Error (Envelope (List Zone))
  | .error fault => .error (requestFailed fault)
  | .ok response => openEnvelope (Json.listOf? zone?) "Zone listing" response

/-- A page tells of further ones: it can be read, and there are more pages than that. -/
def TellsOfMore (page : Nat) (answer : Except Http.Fault Http.Response) : Prop :=
  ∃ envelope, readZones answer = .ok envelope ∧ page < envelope.totalPages.getD 1

theorem readZones_totalPages_lt {answer : Except Http.Fault Http.Response}
    {envelope : Envelope (List Zone)} (read : readZones answer = .ok envelope) :
    envelope.totalPages.getD 1 < UInt32.size := by
  cases answer with
  | error fault => cases read
  | ok response => exact openEnvelope_totalPages_lt read

theorem get_sent (path : String) (parameters : List (String × String)) (read : Json → Option α)
    (context : String) :
    let request := (Http.Request.get ((Http.Url.ofText (account.baseUrl ++ path)).withParameters
      parameters)).bearing account.token
    (account.get path parameters read context).sent transport state =
      [(request, (transport.deliver request state).1)] := by
  simp only [Account.get, Http.Exchange.sent_bind, Http.Exchange.sent_request]
  split
  · rfl
  · rw [Http.Exchange.sent_lift, List.append_nil]

theorem zonePage_run (page : Nat) :
    (account.zonePage page).run transport state =
      (readZones (transport.deliver (account.zonesRequest page) state).1,
        (transport.deliver (account.zonesRequest page) state).2) := by
  rw [zonePage, get_run]
  unfold zonesRequest
  rcases transport.deliver _ state with ⟨_ | _, _⟩ <;> rfl

theorem zonePage_sent (page : Nat) :
    (account.zonePage page).sent transport state =
      [(account.zonesRequest page, (transport.deliver (account.zonesRequest page) state).1)] :=
  get_sent _ _ _ _

/-- The course of a listing from a page on, by the requests that were sent with their answers:
they are for pages without gap or repeat, each can be counted in 32 bits, and one is followed by
another exactly if it tells of more.  The listing comes to the zones of all pages in order, or
to the error of the page that has one. -/
structure Paged (account : Account) (first : Nat)
    (sent : List (Http.Request × Except Http.Fault Http.Response))
    (result : Except Error (List Zone)) : Prop where
  consecutive : sent.map (·.1) = (List.range' first sent.length).map account.zonesRequest
  started : 0 < sent.length
  countable : first + sent.length ≤ UInt32.size
  goesOn : ∀ i exchange, sent[i]? = some exchange →
    (i + 1 < sent.length ↔ TellsOfMore (first + i) exchange.2)
  collected : result = (sent.mapM fun exchange => readZones exchange.2).map fun pages =>
    pages.flatMap fun page => page.result.getD []

variable {page : Nat} {answer : Except Http.Fault Http.Response}

theorem Paged.last (account : Account) (countable : page < UInt32.size)
    (last : ¬ TellsOfMore page answer) :
    Paged account page [(account.zonesRequest page, answer)]
      ((readZones answer).map fun page => page.result.getD []) where
  consecutive := rfl
  started := Nat.one_pos
  countable := countable
  goesOn i exchange there := by
    obtain ⟨rfl, rfl⟩ : i = 0 ∧ exchange = (account.zonesRequest page, answer) := by
      cases i <;> simp_all
    exact iff_of_false (Nat.lt_irrefl _) last
  collected := by
    rw [List.mapM_cons]
    cases readZones answer with
    | error e => rfl
    | ok envelope => exact congrArg Except.ok (List.append_nil _).symm

theorem Paged.cons {sent : List (Http.Request × Except Http.Fault Http.Response)}
    {result : Except Error (List Zone)} {envelope : Envelope (List Zone)}
    (read : readZones answer = .ok envelope) (more : page < envelope.totalPages.getD 1)
    (rest : Paged account (page + 1) sent result) :
    Paged account page ((account.zonesRequest page, answer) :: sent)
      (result.map (envelope.result.getD [] ++ ·)) where
  consecutive := by
    rw [List.map_cons, rest.consecutive, List.length_cons, List.range'_succ, List.map_cons]
  started := Nat.succ_pos _
  countable := by
    have bound := rest.countable
    rw [List.length_cons]
    omega
  goesOn i exchange there := by
    cases i with
    | zero =>
        cases there
        refine iff_of_true ?_ ⟨envelope, read, more⟩
        simpa using rest.started
    | succ i =>
        have further := rest.goesOn i exchange there
        rw [List.length_cons, Nat.add_lt_add_iff_right, further, Nat.add_right_comm, Nat.add_assoc]
  collected := by
    rw [rest.collected, List.mapM_cons, read]
    cases sent.mapM fun exchange => readZones exchange.2 <;> rfl

theorem zonesFrom_paged {left : Nat} (countable : page < UInt32.size)
    (enough : page + left = UInt32.size) :
    Paged account page ((account.zonesFrom left page).sent transport state)
      ((account.zonesFrom left page).run transport state).1 := by
  induction left generalizing page state with
  | zero => exact absurd enough (Nat.ne_of_lt countable)
  | succ left ih =>
      simp only [zonesFrom, Http.Exchange.sent_bind, Http.Exchange.run_bind, zonePage_run,
        zonePage_sent]
      generalize transport.deliver (account.zonesRequest page) state = delivered
      obtain ⟨answer, later⟩ := delivered
      -- A page that is not followed by another ends the course, read or not.
      have ends : ¬ TellsOfMore page answer → Paged account page _ _ :=
        Paged.last account countable
      cases read : readZones answer with
      | error e =>
          rw [read] at ends
          refine ends fun tells => ?_
          obtain ⟨envelope, opened, _⟩ := tells
          cases read.symm.trans opened
      | ok envelope =>
          by_cases more : page < envelope.totalPages.getD 1
          · -- The next page can be counted, since the number of pages can.
            have bound := readZones_totalPages_lt read
            have rest : Paged account (page + 1)
                ((account.zonesFrom left (page + 1)).sent transport later)
                ((account.zonesFrom left (page + 1)).run transport later).1 :=
              ih (by omega) (by omega)
            simp only [if_pos more, Http.Exchange.sent_bind_pure, Http.Exchange.run_bind_pure]
            exact rest.cons read more
          · rw [read] at ends
            simp only [if_neg more]
            refine ends fun tells => ?_
            obtain ⟨envelope, opened, further⟩ := tells
            cases read.symm.trans opened
            exact more further

/-- Whatever is answered, the zones are listed page by page from the first one on. -/
theorem listZones_paged (account : Account) (transport : Http.Transport σ) (state : σ) :
    Paged account 1 (account.listZones.sent transport state)
      (account.listZones.run transport state).1 :=
  zonesFrom_paged (by decide) (by decide)

end Account

/-! ### Records -/

/-- The response is a page of a listing, and tells how many there are. -/
structure IsPage (response : Http.Response) (items : List Json) (pages : Nat) : Prop extends
    Lists response items where
  counted : ∀ envelope, response.json?.bind (Envelope.ofJson? some) = some envelope →
    envelope.totalPages = some pages

def pageJson (items : List Json) (pages : Nat) : Json :=
  .obj [("success", .bool true), ("errors", .arr []), ("result", .arr items),
    ("result_info", .obj [("total_pages", .ofInt pages)])]

def pageResponse (items : List Json) (pages : Nat) : Http.Response :=
  ⟨200, (pageJson items pages).compact⟩

theorem isPage_pageResponse {items : List Json} {pages : Nat}
    (fit : Json.fitsItems (Json.maxDepth - 2) items = true) (countable : pages < UInt32.size) :
    IsPage (pageResponse items pages) items pages := by
  have small : (pages : Int) ≤ Json.maxSignificand := by
    have : UInt32.size ≤ Json.maxSignificand := by decide
    omega
  have natural : Number.minInt64 ≤ (pages : Int) := by
    have : Number.minInt64 ≤ 0 := by decide
    omega
  have text : (pageResponse items pages).json? = some (pageJson items pages) := by
    rw [Http.Response.json?, pageResponse, Json.compact, String.toList_ofList]
    refine Json.parseChars?_compactChars ?_
    simp only [Json.maxDepth] at fit ⊢
    simp [pageJson, Json.fits, Json.fitsFields, Json.fitsItems, Json.ofInt, fit, small, natural]
  have total : Envelope.pages? (.obj [("total_pages", .ofInt pages)]) = some pages :=
    required?_word?_ofInt countable
  have opened : (pageResponse items pages).json?.bind (Envelope.ofJson? some) =
      some ⟨true, [], some (.arr items), some pages⟩ := by
    rw [text, Option.bind_some]
    simp [Envelope.ofJson?, pageJson, Json.record?, Json.valuesOf, Json.Slot.required?,
      Json.Slot.withDefault?, Json.Slot.optional?, Json.Slot.nullable?, Json.isNull, Json.boolean?,
      Json.listOf?, Json.array?, total]
  exact {
    status := rfl
    envelope := ⟨_, opened, rfl, rfl⟩
    counted := by
      intro envelope found
      cases opened.symm.trans found
      rfl }

namespace Account

variable {account : Account} {transport : Http.Transport σ} {zone : Zone} {name : String}
  {pages : σ → List (List Json)}

def recordsPageRequest (account : Account) (zone : Zone) (name : String) (page : Nat) :
    Http.Request :=
  (Http.Request.get ((Http.Url.ofText
    (account.baseUrl ++ ("/zones/" ++ zone.id ++ "/dns_records"))).withParameters
      [("name", Text.trimEndOf '.' name), ("page", Text.natText page),
        ("per_page", Text.natText recordsPerPage)])).bearing account.token

/-- A server that lists the records at a name in pages.  Asked for none in particular it answers
with the first one. -/
structure ListsInPages (transport : Http.Transport σ) (account : Account) (zone : Zone)
    (name : String) (pages : σ → List (List Json)) : Prop where
  numbered : ∀ state i items, (pages state)[i]? = some items → ∃ response,
    (transport.deliver (account.recordsPageRequest zone name (i + 1)) state).1 = .ok response ∧
      IsPage response items (pages state).length
  unnumbered : ∀ state, ∃ response,
    (transport.deliver (account.recordsRequest zone name) state).1 = .ok response ∧
      IsPage response ((pages state).headD []) (pages state).length

theorem listRecords_sent (account : Account) (transport : Http.Transport σ) (zone : Zone)
    (name : String) (state : σ) :
    (account.listRecords zone name).sent transport state =
      [(account.recordsRequest zone name,
        (transport.deliver (account.recordsRequest zone name) state).1)] := by
  rw [listRecords, Http.Exchange.sent_bind_pure]
  exact get_sent _ _ _ _

theorem ListsInPages.run (server : ListsInPages transport account zone name pages) (state : σ) :
    ((account.listRecords zone name).run transport state).1 =
      (((pages state).headD []).mapM record?).elim (.error unreadable) .ok := by
  obtain ⟨response, answer, page⟩ := server.unnumbered state
  have delivered : transport.deliver (account.recordsRequest zone name) state =
      (.ok response, (transport.deliver (account.recordsRequest zone name) state).2) :=
    Prod.ext answer rfl
  exact congrArg Prod.fst (listRecords_run delivered page.toLists)

theorem ListsInPages.findRecord (server : ListsInPages transport account zone name pages)
    (services : Net.LookupServices) {state : σ} {listed : List Record}
    (read : ((pages state).headD []).mapM record? = some listed) :
    ((Dns.Reconciliation.findRecord zone name).run (account.service services transport)
      state).result = soleRecord name listed := by
  have answer : ((Dns.Dialogue.call (.listRecords zone name)).run
      (account.service services transport) state).result = .ok listed := by
    rw [Dns.Dialogue.run_call]
    exact (server.run state).trans (by rw [read]; rfl)
  rw [Dns.Reconciliation.findRecord, Dns.Dialogue.bind_result_of_ok answer]
  cases soleRecord name listed <;> rfl

/-- A check of the records at a name is as good as one of more records only if none of the
others is managed. -/
theorem soleRecord_append_iff {listed further : List Record} :
    soleRecord name listed = soleRecord name (listed ++ further) ↔ managedAt name further = [] := by
  have both : managedAt name (listed ++ further) = managedAt name listed ++ managedAt name further :=
    List.filter_append ..
  unfold soleRecord
  rw [both]
  generalize managedAt name listed = here
  generalize managedAt name further = there
  cases there with
  | nil => simp
  | cons record others =>
      match here with
      | [] => cases others <;> simp
      | [_] => simp
      | _ :: _ :: _ => simp

/-- The records at a name are read off the first page.  They are all that is listed exactly if
there is nothing on the further ones, and a check of them is one of all exactly if nothing there
is managed. -/
theorem listRecords_firstPage (server : ListsInPages transport account zone name pages)
    (services : Net.LookupServices) (state : σ) :
    ((account.listRecords zone name).sent transport state).map (·.1) =
        [account.recordsRequest zone name] ∧
      ((account.listRecords zone name).run transport state).1 =
        (((pages state).headD []).mapM record?).elim (.error unreadable) .ok ∧
      ∀ listed further, ((pages state).headD []).mapM record? = some listed →
        (pages state).tail.flatten.mapM record? = some further →
        (((account.listRecords zone name).run transport state).1 = .ok (listed ++ further) ↔
          (pages state).tail.flatten = []) ∧
        (((Dns.Reconciliation.findRecord zone name).run (account.service services transport)
          state).result = soleRecord name (listed ++ further) ↔ managedAt name further = []) := by
  refine ⟨by rw [listRecords_sent]; rfl, server.run state, ?_⟩
  intro listed further read readFurther
  have empty : further = [] ↔ (pages state).tail.flatten = [] := by
    rw [mapM_eq_some_iff] at readFurther
    obtain ⟨each, rfl⟩ := readFurther
    rw [List.filterMap_eq_nil_iff, List.eq_nil_iff_forall_not_mem]
    refine forall₂_congr fun item member => ?_
    rw [← Option.not_isSome_iff_eq_none]
    exact iff_of_false (fun gone => gone (each item member)) id
  constructor
  · rw [server.run, read, ← empty, Option.elim_some, Except.ok.injEq, List.self_eq_append_right]
  · rw [server.findRecord services read, soleRecord_append_iff]

end Account

/-! ### A server with more records than a page holds -/

namespace LongListing

def account : Account := ⟨"token", none, "http://api", false⟩

def zone : Zone := ⟨"z1", "example.com"⟩

def name : String := "nas.example.com."

def note (i : Nat) : Record := ⟨name, .other "TXT", 300, "note", some ("t" ++ Text.natText i)⟩

def notes : List Record := (List.range 100).map note

def address : Record := ⟨name, .address, 300, "192.0.2.7", some "a"⟩

def sent (record : Record) : Json := sentBody record (record.id.getD "")

def pages : List (List Json) := [notes.map sent, [sent address]]

def server : Http.Transport Unit := fun request _ =>
  (.ok (pageResponse (if request = account.recordsPageRequest zone name 2 then [sent address]
    else notes.map sent) 2), ())

theorem record?_note (i : Nat) : record? (sent (note i)) = some (note i) := by
  have named : Dns.comparableName name = name := by cbv
  have other : Dns.RecordType.named "TXT" = .other "TXT" := by cbv
  have plain : Text.trimEndOf '.' "note" = "note" := by cbv
  have fits : (note i).ttl < UInt32.size := (by decide : 300 < UInt32.size)
  rw [sent, sentBody, record?_recordFields fits]
  simp only [note, named, Dns.RecordType.text, other, plain, recordValue, Option.getD_some]

theorem mapM_notes : (notes.map sent).mapM record? = some notes := by
  rw [mapM_eq_some_iff, notes, List.map_map, List.filterMap_map]
  constructor
  · intro item member
    obtain ⟨i, _, rfl⟩ := List.mem_map.mp member
    exact Option.isSome_iff_exists.mpr ⟨_, record?_note i⟩
  · have each : (record? ∘ sent ∘ note) = some ∘ note := funext record?_note
    rw [each, ← List.filterMap_map, List.filterMap_some]

theorem record?_address : record? (sent address) = some address := by
  cbv

theorem isPage_notes : IsPage (pageResponse (notes.map sent) 2) (notes.map sent) 2 := by
  refine isPage_pageResponse (Json.fitsItems_iff.mpr fun item member => ?_) (by decide)
  obtain ⟨record, noted, rfl⟩ := List.mem_map.mp member
  obtain ⟨i, _, rfl⟩ := List.mem_map.mp noted
  rfl

theorem isPage_address : IsPage (pageResponse [sent address] 2) [sent address] 2 :=
  isPage_pageResponse (by decide) (by decide)

theorem listsInPages : Account.ListsInPages server account zone name fun _ => pages where
  numbered state i items there := by
    have sendable : (account.recordsPageRequest zone name (i + 1)).isWellFormed = true := rfl
    rw [Http.Transport.deliver, if_pos sendable]
    match i with
    | 0 =>
        cases there
        have first : account.recordsPageRequest zone name 1 ≠
            account.recordsPageRequest zone name 2 := by decide
        refine ⟨_, ?_, isPage_notes⟩
        rw [server, if_neg first]
    | 1 =>
        cases there
        exact ⟨_, by rw [server, if_pos rfl], isPage_address⟩
  unnumbered state := by
    have sendable : (account.recordsRequest zone name).isWellFormed = true := rfl
    have unnumbered : account.recordsRequest zone name ≠
        account.recordsPageRequest zone name 2 := by decide
    rw [Http.Transport.deliver, if_pos sendable]
    refine ⟨_, ?_, isPage_notes⟩
    rw [server, if_neg unnumbered]

theorem mapM_first : (pages.headD []).mapM record? = some notes := by
  rw [pages, List.headD_cons, mapM_notes]

theorem mapM_further : pages.tail.flatten.mapM record? = some [address] := by
  rw [pages, List.tail_cons, List.flatten_singleton, List.mapM_cons, record?_address]
  rfl

theorem mapM_pages : pages.flatten.mapM record? = some (notes ++ [address]) := by
  have split : pages.flatten = pages.headD [] ++ pages.tail.flatten := by
    rw [pages, List.flatten_cons, List.headD_cons, List.tail_cons]
  rw [split, List.mapM_append, mapM_first, mapM_further]
  rfl

end LongListing

theorem longListing_firstPage :
    let run := (LongListing.account.listRecords LongListing.zone LongListing.name).run
      LongListing.server ()
    let found := (Dns.Reconciliation.findRecord LongListing.zone LongListing.name).run
      (LongListing.account.service .default LongListing.server) ()
    run.1 = .ok LongListing.notes ∧
      run.1 ≠ .ok (LongListing.notes ++ [LongListing.address]) ∧
      found.result ≠ soleRecord LongListing.name (LongListing.notes ++ [LongListing.address]) := by
  obtain ⟨_, result, checks⟩ :=
    Account.listRecords_firstPage LongListing.listsInPages .default ()
  obtain ⟨complete, sees⟩ := checks _ _ LongListing.mapM_first LongListing.mapM_further
  refine ⟨?_, ?_, ?_⟩
  · rw [result, LongListing.mapM_first, Option.elim_some]
  · rw [Ne, complete]
    exact List.cons_ne_nil _ _
  · have managed : managedAt LongListing.name [LongListing.address] = [LongListing.address] := by
      cbv
    rw [Ne, sees, managed]
    exact List.cons_ne_nil _ _

/-- A server can hold more records at a name than are listed. -/
theorem longListing_incomplete :
    ¬∀ (σ : Type) (transport : Http.Transport σ) (account : Account) (zone : Zone) (name : String)
      (pages : σ → List (List Json)) (state : σ) (records : List Record),
      Account.ListsInPages transport account zone name pages →
      (pages state).flatten.mapM record? = some records →
        ((account.listRecords zone name).run transport state).1 = .ok records := by
  intro complete
  have all := complete _ _ _ _ _ _ () _ LongListing.listsInPages LongListing.mapM_pages
  rw [LongListing.listsInPages.run, LongListing.mapM_first, Option.elim_some, Except.ok.injEq,
    List.self_eq_append_right] at all
  cases all

end HubKeeper.Cloudflare
