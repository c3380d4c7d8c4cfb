import HubKeeper.Net.PublicAddress
import Mathlib.Data.List.Induction

/-!
What a cache of the public address tells in a run.

A history has an entry for every request, with the lookups that the request made.  What an entry
can be depends on the cached address alone, so a run is followed on this address.  The cached
address is that of a lookup that succeeded, and a clear or another such lookup takes it away.
A refresh that fails does not: the address from before is told by the next get.
-/

namespace HubKeeper.PublicAddress

inductive Request
  | get
  | refresh
  | clear
deriving DecidableEq

/-- A request with the answers of the lookups it made, and its own, which a clear has not. -/
structure Entry where
  request : Request
  lookups : List (Except Error Ipv4)
  answer : Option (Except Error Ipv4)

namespace Cache

variable {σ : Type}

def perform (lookup : AddressLookup σ) (cache : Cache σ) :
    Request → Option (Except Error Ipv4) × Cache σ
  | .get => (cache.get lookup).map some id
  | .refresh => (cache.refresh lookup).map some id
  | .clear => (none, cache.clear)

def noting (lookup : AddressLookup σ) : AddressLookup (σ × List (Except Error Ipv4)) :=
  fun (source, noted) =>
    let (answer, source) := lookup source
    (answer, (source, noted ++ [answer]))

def lookups (lookup : AddressLookup σ) (cache : Cache σ) (request : Request) :
    List (Except Error Ipv4) :=
  (perform (noting lookup) ⟨cache.address, (cache.source, [])⟩ request).2.source.2

def history (lookup : AddressLookup σ) (cache : Cache σ) : List Request → List Entry
  | [] => []
  | request :: rest =>
      ⟨request, cache.lookups lookup request, (cache.perform lookup request).1⟩ ::
        (cache.perform lookup request).2.history lookup rest

end Cache

/-- A request that gives up the cached address. -/
def Entry.Discards (entry : Entry) : Prop :=
  entry.request = .clear ∨ entry.request = .refresh ∧ ∃ address, entry.answer = some (.ok address)

/-- An address comes from a lookup, and no entry after this discards it. -/
def Supplied (discards : Entry → Prop) (history : List Entry) (address : Ipv4) : Prop :=
  ∃ front source back, history = front ++ source :: back ∧ .ok address ∈ source.lookups ∧
    ∀ later ∈ back, ¬discards later

/-- An address told by a get was not looked up before the last entry that discards. -/
def Fresh (discards : Entry → Prop) (history : List Entry) : Prop :=
  ∀ before entry after address, history = before ++ entry :: after → entry.request = .get →
    entry.answer = some (.ok address) → Supplied discards (before ++ [entry]) address

/-- Of gets in a row at most one lookup succeeds, and those after it tell its address without
another lookup. -/
def LooksUpOnce (history : List Entry) : Prop :=
  ∀ before gets after, history = before ++ gets ++ after →
    (∀ entry ∈ gets, entry.request = .get) →
      (gets.flatMap Entry.lookups).countP (·.isOk) ≤ 1 ∧
        ∀ front source back address, gets = front ++ source :: back →
          .ok address ∈ source.lookups →
            ∀ later ∈ back, later.lookups = [] ∧ later.answer = some (.ok address)

/-- A failure is told only where the lookup failed, and a get looks up again after one. -/
def ForgetsFailures (history : List Entry) : Prop :=
  (∀ entry ∈ history, ∀ e, entry.answer = some (.error e) → entry.lookups = [.error e]) ∧
    ∀ before entry next after e, history = before ++ entry :: next :: after →
      entry.request = .get → next.request = .get → .error e ∈ entry.lookups → next.lookups ≠ []

/-! ### Steps -/

/-- An entry with the cached address before and after it. -/
inductive Moves : Option Ipv4 → Entry → Option Ipv4 → Prop
  | found (address : Ipv4) :
      Moves (some address) ⟨.get, [], some (.ok address)⟩ (some address)
  | fetched (address : Ipv4) :
      Moves none ⟨.get, [.ok address], some (.ok address)⟩ (some address)
  | unfetched (e : Error) : Moves none ⟨.get, [.error e], some (.error e)⟩ none
  | renewed (cached : Option Ipv4) (address : Ipv4) :
      Moves cached ⟨.refresh, [.ok address], some (.ok address)⟩ (some address)
  | unrenewed (cached : Option Ipv4) (e : Error) :
      Moves cached ⟨.refresh, [.error e], some (.error e)⟩ cached
  | cleared (cached : Option Ipv4) : Moves cached ⟨.clear, [], none⟩ none

inductive Leads : Option Ipv4 → List Entry → Option Ipv4 → Prop
  | nil (cached : Option Ipv4) : Leads cached [] cached
  | cons {entry : Entry} {rest : List Entry} (first : Moves cached entry middle)
      (others : Leads middle rest last) : Leads cached (entry :: rest) last

theorem Cache.perform_moves (lookup : AddressLookup σ) (cache : Cache σ) (request : Request) :
    Moves cache.address
      ⟨request, cache.lookups lookup request, (cache.perform lookup request).1⟩
      (cache.perform lookup request).2.address := by
  obtain ⟨cached, source⟩ := cache
  cases answered : lookup source with
  | mk answer later =>
      cases request with
      | clear => exact .cleared cached
      | refresh =>
          cases answer with
          | error e =>
              simp only [lookups, perform, refresh, noting, answered]
              exact .unrenewed cached e
          | ok address =>
              simp only [lookups, perform, refresh, noting, answered]
              exact .renewed cached address
      | get =>
          cases cached with
          | some address => exact .found address
          | none =>
              cases answer with
              | error e =>
                  simp only [lookups, perform, get, refresh, noting, answered]
                  exact .unfetched e
              | ok address =>
                  simp only [lookups, perform, get, refresh, noting, answered]
                  exact .fetched address

theorem Cache.history_leads (lookup : AddressLookup σ) (cache : Cache σ)
    (requests : List Request) :
    ∃ last, Leads cache.address (cache.history lookup requests) last := by
  induction requests generalizing cache with
  | nil => exact ⟨cache.address, .nil cache.address⟩
  | cons request rest ih =>
      obtain ⟨last, others⟩ := ih (cache.perform lookup request).2
      exact ⟨last, .cons (cache.perform_moves lookup request) others⟩

variable {cached last : Option Ipv4} {address : Ipv4} {entry : Entry}
variable {before after entries : List Entry}

theorem Leads.split (leads : Leads cached (before ++ after) last) :
    ∃ middle, Leads cached before middle ∧ Leads middle after last := by
  induction before generalizing cached with
  | nil => exact ⟨cached, .nil cached, leads⟩
  | cons entry rest ih =>
      cases leads with
      | cons first others =>
          obtain ⟨middle, front, back⟩ := ih others
          exact ⟨middle, .cons first front, back⟩

/-! ### The cached address -/

theorem Supplied.latest (discards : Entry → Prop) (before : List Entry)
    (looked : .ok address ∈ entry.lookups) : Supplied discards (before ++ [entry]) address :=
  ⟨before, entry, [], rfl, looked, nofun⟩

theorem Supplied.keep {discards : Entry → Prop} (supplied : Supplied discards before address)
    (keeps : ¬discards entry) : Supplied discards (before ++ [entry]) address := by
  obtain ⟨front, source, back, rfl, looked, kept⟩ := supplied
  refine ⟨front, source, back ++ [entry], by simp, looked, ?_⟩
  intro later member
  rcases List.mem_append.mp member with earlier | same
  · exact kept later earlier
  · rw [List.mem_singleton.mp same]
    exact keeps

/-- Every entry keeps the cached address supplied. -/
theorem Moves.supplied (moves : Moves cached entry last)
    (known : ∀ address, cached = some address → Supplied Entry.Discards before address) :
    ∀ address, last = some address → Supplied Entry.Discards (before ++ [entry]) address := by
  intro address present
  cases moves with
  | found other =>
      apply (known address present).keep
      simp [Entry.Discards]
  | fetched other =>
      cases present
      exact .latest _ before List.mem_cons_self
  | unfetched e => cases present
  | renewed _ other =>
      cases present
      exact .latest _ before List.mem_cons_self
  | unrenewed _ e =>
      apply (known address present).keep
      simp [Entry.Discards]
  | cleared => cases present

theorem Leads.supplied (leads : Leads none entries last) :
    ∀ address, last = some address → Supplied Entry.Discards entries address := by
  -- From the end, as it is the last entry that keeps the address or puts one in its place.
  induction entries using List.reverseRecOn generalizing last with
  | nil =>
      cases leads
      exact nofun
  | append_singleton entries entry ih =>
      obtain ⟨middle, front, back⟩ := leads.split
      cases back with
      | cons moves done =>
          cases done
          exact moves.supplied (ih front)

theorem Leads.fresh (leads : Leads none entries last) : Fresh Entry.Discards entries := by
  rintro before entry after address rfl isGet told
  obtain ⟨middle, front, back⟩ := leads.split
  cases back with
  | cons moves _ =>
      cases moves with
      | found other =>
          cases told
          apply (front.supplied address rfl).keep
          simp [Entry.Discards]
      | fetched other =>
          cases told
          exact Supplied.latest _ before List.mem_cons_self
      | unfetched e => cases told
      | renewed | unrenewed | cleared => cases isGet

/-! ### Gets in a row -/

/-- Gets tell a cached address, without looking up. -/
theorem Leads.told (leads : Leads (some address) entries last)
    (gets : ∀ entry ∈ entries, entry.request = .get) :
    ∀ entry ∈ entries, entry.lookups = [] ∧ entry.answer = some (.ok address) := by
  induction entries with
  | nil => exact nofun
  | cons entry rest ih =>
      obtain ⟨isGet, others⟩ := List.forall_mem_cons.mp gets
      cases leads with
      | cons moves rest =>
          cases moves with
          | found => exact List.forall_mem_cons.mpr ⟨⟨rfl, rfl⟩, ih rest others⟩
          | renewed | unrenewed | cleared => cases isGet

theorem Leads.countP_le_one (leads : Leads cached entries last)
    (gets : ∀ entry ∈ entries, entry.request = .get) :
    (entries.flatMap Entry.lookups).countP (·.isOk) ≤ 1 := by
  induction entries generalizing cached with
  | nil => simp
  | cons entry rest ih =>
      obtain ⟨isGet, others⟩ := List.forall_mem_cons.mp gets
      cases leads with
      | cons moves later =>
          cases moves with
          | found => simpa using ih later others
          | fetched =>
              have none : rest.flatMap Entry.lookups = [] :=
                List.flatMap_eq_nil_iff.mpr fun entry member => (later.told others entry member).1
              simp [none, Except.isOk, Except.toBool]
          | unfetched => simpa [Except.isOk, Except.toBool] using ih later others
          | renewed | unrenewed | cleared => cases isGet

theorem Leads.looksUpOnce (leads : Leads cached entries last) : LooksUpOnce entries := by
  rintro before gets after rfl allGets
  obtain ⟨_, front, _⟩ := leads.split
  obtain ⟨_, _, row⟩ := front.split
  refine ⟨row.countP_le_one allGets, ?_⟩
  rintro front source back address rfl looked
  obtain ⟨_, _, later⟩ := row.split
  cases later with
  | cons moves later =>
      have others : ∀ entry ∈ back, entry.request = .get :=
        fun entry member => allGets entry (by simp [member])
      have isGet : source.request = .get := allGets source (by simp)
      cases moves with
      | found => cases looked
      | fetched other =>
          cases List.mem_singleton.mp looked
          exact later.told others
      | unfetched => cases List.mem_singleton.mp looked
      | renewed | unrenewed | cleared => cases isGet

/-! ### Failures -/

theorem Leads.forgetsFailures (leads : Leads cached entries last) : ForgetsFailures entries := by
  constructor
  case left =>
    intro entry member e told
    obtain ⟨before, after, rfl⟩ := List.append_of_mem member
    obtain ⟨_, _, back⟩ := leads.split
    cases back with
    | cons moves _ =>
        cases moves with
        | found | fetched | renewed | cleared => cases told
        | unfetched | unrenewed =>
            cases told
            rfl
  case right =>
    rintro before entry next after e rfl isGet nextIsGet failed
    obtain ⟨_, _, back⟩ := leads.split
    cases back with
    | cons moves later =>
        cases moves with
        | found => cases failed
        | fetched => cases List.mem_singleton.mp failed
        | unfetched =>
            -- Nothing is cached now, so the next get cannot find anything.
            cases later with
            | cons moves _ =>
                cases moves with
                | fetched | unfetched => exact List.cons_ne_nil _ _
                | renewed | unrenewed | cleared => cases nextIsGet
        | renewed | unrenewed | cleared => cases isGet

/-! ### Runs -/

/-- In any run of a new cache, a get tells what was looked up since the last clear or refresh that
succeeded, gets in a row look up until they succeed once, and failures are not remembered. -/
theorem Cache.history_remembered (lookup : AddressLookup σ) (source : σ)
    (requests : List Request) :
    let history := (Cache.mk none source).history lookup requests
    Fresh Entry.Discards history ∧ LooksUpOnce history ∧ ForgetsFailures history := by
  intro history
  obtain ⟨last, leads⟩ := (Cache.mk none source).history_leads lookup requests
  exact ⟨leads.fresh, leads.looksUpOnce, leads.forgetsFailures⟩

/-- Lookups answered in order, and refused when the answers run out. -/
def scripted : AddressLookup (List (Except Error Ipv4))
  | [] => (.error (.http "script exhausted"), [])
  | answer :: rest => (answer, rest)

def offline : Except Error Ipv4 := .error (.http "offline")

/-- The address from before a refresh that fails is told after it. -/
theorem failedRefresh_stale :
    ¬∀ (σ : Type) (lookup : AddressLookup σ) (source : σ) (requests : List Request),
      let history := (Cache.mk none source).history lookup requests
      Fresh (·.request ≠ .get) history ∧ LooksUpOnce history ∧ ForgetsFailures history := by
  intro claim
  have fresh := (claim _ scripted [.ok ⟨192, 0, 2, 1⟩, offline, .ok ⟨192, 0, 2, 2⟩]
    [.get, .refresh, .get]).1
  obtain ⟨front, source, back, parts, looked, kept⟩ := fresh
    [⟨.get, [.ok ⟨192, 0, 2, 1⟩], some (.ok ⟨192, 0, 2, 1⟩)⟩, ⟨.refresh, [offline], some offline⟩]
    ⟨.get, [], some (.ok ⟨192, 0, 2, 1⟩)⟩ [] ⟨192, 0, 2, 1⟩ rfl rfl rfl
  cases front with
  | nil =>
      obtain ⟨rfl, rfl⟩ := List.cons.inj parts
      exact kept ⟨.refresh, [offline], some offline⟩ (by simp) nofun
  | cons _ front =>
      have later : [⟨.refresh, [offline], some offline⟩, ⟨.get, [], some (.ok ⟨192, 0, 2, 1⟩)⟩] =
          front ++ source :: back := (List.cons.inj parts).2
      have member : source ∈ front ++ source :: back := by simp
      rw [← later] at member
      rcases List.mem_cons.mp member with rfl | member
      · cases List.mem_singleton.mp looked
      · rw [List.mem_singleton.mp member] at looked
        cases looked

end HubKeeper.PublicAddress
