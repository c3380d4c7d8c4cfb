import HubKeeper.Proofs.Cloudflare.Keeping
import Mathlib.Data.Fintype.EquivFin

/-!
Batches by kind and in order.

A batch is sent as its deletions, its replacements and its creations, and they are made in this
order, whatever the order of the batch.  Where no two changes are about the same record, nothing
depends on it: operations about different records commute, and a record that is created gets an
id that no record has.
-/

namespace HubKeeper.Cloudflare

open Dns (Action Batch Change)

/-! ### What is sent -/

/-- The body that is sent for a change; none if it needs an id and has none. -/
def changeBody? (change : Change) : Option Json :=
  match change.action with
  | .create => some (.obj (recordFields change.record))
  | .upsert => change.record.id.map (sentBody change.record)
  | .delete => change.record.id.map fun id => .obj [("id", .str id)]

/-- The id of the record that a change deletes or replaces; a record to create has none yet. -/
def targetId? (change : Change) : Option String :=
  if change.action = .create then none else change.record.id

/-- What is sent for the changes of a kind, in the order of the batch. -/
def bodies (action : Action) (batch : Batch) : List Json :=
  (batch.filter fun change => change.action = action).filterMap changeBody?

def grouped (batch : Batch) : Payload :=
  ⟨bodies .delete batch, bodies .upsert batch, bodies .create batch⟩

theorem isSome_changeBody? {change : Change} :
    (changeBody? change).isSome = true ↔
      (change.action ≠ .create → change.record.id.isSome = true) := by
  obtain ⟨action, record⟩ := change
  cases action <;> simp [changeBody?]

theorem add_ok_iff {change : Change} {payload : Payload} :
    Payload.add change ⟨[], [], []⟩ = .ok payload ↔
      (changeBody? change).isSome = true ∧ payload = grouped [change] := by
  obtain ⟨action, record⟩ := change
  cases identified : record.id <;> cases action <;>
    simp [Payload.add, recordId, Except.map, changeBody?, grouped, bodies, sentBody, identified,
      eq_comm]

theorem bodies_cons (action : Action) (change : Change) (rest : Batch) :
    bodies action (change :: rest) = bodies action [change] ++ bodies action rest := by
  rw [bodies, ← List.singleton_append, List.filter_append, List.filterMap_append]
  rfl

theorem ofBatch_ok_iff {batch : Batch} {payload : Payload} :
    Payload.ofBatch batch = .ok payload ↔
      (∀ change ∈ batch, (changeBody? change).isSome = true) ∧ payload = grouped batch := by
  induction batch generalizing payload with
  | nil =>
      rw [Payload.ofBatch, Except.ok.injEq]
      exact ⟨fun built => ⟨List.forall_mem_nil _, built.symm⟩, fun built => built.2.symm⟩
  | cons change rest ih =>
      -- Every change adds at most one body to one of the groups, at the front.
      have joined : grouped (change :: rest) =
          ⟨(grouped [change]).deletes ++ (grouped rest).deletes,
            (grouped [change]).puts ++ (grouped rest).puts,
            (grouped [change]).posts ++ (grouped rest).posts⟩ := by
        rw [grouped, bodies_cons .delete, bodies_cons .upsert, bodies_cons .create]
        rfl
      rw [List.forall_mem_cons, joined, Payload.ofBatch]
      constructor
      · intro built
        split at built
        · cases built
        · rename_i first added
          obtain ⟨bodied, rfl⟩ := add_ok_iff.mp added
          cases others : Payload.ofBatch rest with
          | error e =>
              rw [others] at built
              cases built
          | ok further =>
              rw [others] at built
              cases built
              obtain ⟨each, rfl⟩ := ih.mp others
              exact ⟨⟨bodied, each⟩, rfl⟩
      · rintro ⟨⟨bodied, each⟩, rfl⟩
        rw [add_ok_iff.mpr ⟨bodied, rfl⟩, ih.mpr ⟨each, rfl⟩]
        rfl

/-! ### Operations on records -/

/-- A body with what is to be done with it. -/
structure Operation where
  action : Action
  body : Json

/-- The operations of a payload in the order in which they are made. -/
def Payload.operations (payload : Payload) : List Operation :=
  payload.deletes.map (⟨.delete, ·⟩) ++ payload.puts.map (⟨.upsert, ·⟩) ++
    payload.posts.map (⟨.create, ·⟩)

def inOrder (batch : Batch) : List Operation :=
  batch.filterMap fun change => (changeBody? change).map (⟨change.action, ·⟩)

namespace Operation

def target? (operation : Operation) : Option String :=
  if operation.action = .create then none else textField? "id" operation.body

def posted? (operation : Operation) : Option Json :=
  if operation.action = .create then some operation.body else none

/-- One operation.  A record that is deleted or replaced is held, and one that is created gets an
id that is not in use. -/
inductive Step : Dict Json → Operation → List String → Dict Json → Prop
  | delete {records : Dict Json} {body : Json} {id : String}
      (identified : textField? "id" body = some id) (held : (records.get? id).isSome = true) :
      Step records ⟨.delete, body⟩ [] (records.erase id)
  | put {records : Dict Json} {body : Json} {id : String}
      (identified : textField? "id" body = some id) (held : (records.get? id).isSome = true) :
      Step records ⟨.upsert, body⟩ [] (records.insert id body)
  | post {records : Dict Json} {body : Json} {id : String} (unused : records.get? id = none) :
      Step records ⟨.create, body⟩ [id] (records.insert id (withId id body))

/-- Operations one after another, with the ids of the records that they create. -/
inductive Run : Dict Json → List Operation → List String → Dict Json → Prop
  | done {records : Dict Json} : Run records [] [] records
  | step {records between after : Dict Json} {operation : Operation} {rest : List Operation}
      {new created : List String} (first : Step records operation new between)
      (further : Run between rest created after) :
      Run records (operation :: rest) (new ++ created) after

/-- Some records as they were kept, and new ones with the bodies that were posted. -/
structure Leaves (kept : Dict Json) (posted : List Json) (created : List String)
    (after : Dict Json) : Prop where
  distinct : created.Nodup
  kept : (after.filter fun id _ => id ∉ created) = kept
  new : List.Forall₂ (fun id body => after.get? id = some (withId id body)) created posted

/-- The operations can be made, and however ids are given to new records, they leave the same. -/
structure Ends (records : Dict Json) (operations : List Operation) (kept : Dict Json)
    (posted : List Json) : Prop where
  possible : ∃ created after, Run records operations created after
  leaves : ∀ created after, Run records operations created after → Leaves kept posted created after

/-- Two operations are not about the same record. -/
def Apart (first second : Operation) : Prop :=
  ∀ id, first.target? = some id → second.target? ≠ some id

instance : Std.Symm Apart :=
  ⟨fun _ _ apart id isSecond isFirst => apart id isFirst isSecond⟩

/-- Operations about different records, all of which are held. -/
structure Ready (records : Dict Json) (operations : List Operation) : Prop where
  held : ∀ operation ∈ operations, operation.action ≠ .create →
    ∃ id, operation.target? = some id ∧ (records.get? id).isSome = true
  apart : operations.Pairwise Apart

variable {records between after : Dict Json} {operation : Operation}
  {operations rest : List Operation} {created new : List String} {id : String} {value : Json}

/-! ### Records that are kept -/

/-- The records of an account after an operation, without those that it creates. -/
def keep (records : Dict Json) (operation : Operation) : Dict Json :=
  match operation.action with
  | .create => records
  | .upsert => (textField? "id" operation.body).elim records (records.insert · operation.body)
  | .delete => (textField? "id" operation.body).elim records records.erase

theorem get?_keep :
    (keep records operation).get? id =
      if operation.target? = some id then
        if operation.action = .delete then none else some operation.body
      else records.get? id := by
  obtain ⟨action, body⟩ := operation
  cases identified : textField? "id" body <;> cases action <;>
    simp [keep, target?, identified, Dict.get?_insert, Dict.get?_erase, eq_comm]

theorem get?_keep_of_ne (elsewhere : operation.target? ≠ some id) :
    (keep records operation).get? id = records.get? id := by
  rw [get?_keep, if_neg elsewhere]

theorem keep_comm {first second : Operation} (apart : Apart first second) (records : Dict Json) :
    keep (keep records first) second = keep (keep records second) first := by
  refine Dict.ext_get? fun id => ?_
  by_cases here : first.target? = some id
  · rw [get?_keep_of_ne (apart id here), get?_keep, get?_keep, if_pos here, if_pos here]
  · rw [get?_keep_of_ne here, get?_keep, get?_keep_of_ne here, get?_keep]

theorem keep_insert (elsewhere : operation.target? ≠ some id) :
    keep (records.insert id value) operation = (keep records operation).insert id value := by
  refine Dict.ext_get? fun other => ?_
  rw [get?_keep, Dict.get?_insert, Dict.get?_insert, get?_keep]
  by_cases here : other = id
  · subst here
    rw [if_neg elsewhere, if_pos rfl, if_pos rfl]
  · rw [if_neg here, if_neg here]

theorem get?_foldl_keep (elsewhere : ∀ operation ∈ operations, operation.target? ≠ some id) :
    (operations.foldl keep records).get? id = records.get? id := by
  induction operations generalizing records with
  | nil => rfl
  | cons operation rest ih =>
      rw [List.forall_mem_cons] at elsewhere
      rw [List.foldl_cons, ih elsewhere.2, get?_keep_of_ne elsewhere.1]

theorem foldl_keep_insert (elsewhere : ∀ operation ∈ operations, operation.target? ≠ some id) :
    operations.foldl keep (records.insert id value) =
      (operations.foldl keep records).insert id value := by
  induction operations generalizing records with
  | nil => rfl
  | cons operation rest ih =>
      rw [List.forall_mem_cons] at elsewhere
      rw [List.foldl_cons, List.foldl_cons, keep_insert elsewhere.1, ih elsewhere.2]

/-- Operations about different records may be made in any order. -/
theorem foldl_keep_perm (apart : operations.Pairwise Apart) (permutation : operations.Perm rest)
    (records : Dict Json) : operations.foldl keep records = rest.foldl keep records := by
  refine permutation.foldl_eq' (fun first firstMember second secondMember records => ?_) records
  by_cases same : first = second
  · rw [same]
  · exact keep_comm (apart.forall firstMember secondMember same) records

/-! ### Steps and runs -/

theorem Step.stays (step : Step records operation new between)
    (elsewhere : operation.target? ≠ some id) (found : records.get? id = some value) :
    id ∉ new ∧ between.get? id = some value := by
  cases step with
  | delete identified held =>
      have different : id ≠ _ := fun same => elsewhere (same ▸ identified)
      exact ⟨List.not_mem_nil, by rw [Dict.get?_erase, if_neg different, found]⟩
  | put identified held =>
      have different : id ≠ _ := fun same => elsewhere (same ▸ identified)
      exact ⟨List.not_mem_nil, by rw [Dict.get?_insert, if_neg different, found]⟩
  | post unused =>
      have different : id ≠ _ := fun same => Option.some_ne_none value (found ▸ same ▸ unused)
      exact ⟨List.mem_singleton.not.mpr different, by rw [Dict.get?_insert, if_neg different, found]⟩

theorem Step.eq_keep (step : Step records operation new between)
    (known : operation.action ≠ .create) : new = [] ∧ between = keep records operation := by
  cases step with
  | delete identified held => exact ⟨rfl, by simp only [keep, identified, Option.elim_some]⟩
  | put identified held => exact ⟨rfl, by simp only [keep, identified, Option.elim_some]⟩
  | post unused => exact absurd rfl known

theorem Run.stays (run : Run records operations created after)
    (elsewhere : ∀ operation ∈ operations, operation.target? ≠ some id)
    (found : records.get? id = some value) : id ∉ created ∧ after.get? id = some value := by
  induction run with
  | done => exact ⟨List.not_mem_nil, found⟩
  | step first further ih =>
      rw [List.forall_mem_cons] at elsewhere
      obtain ⟨old, foundBetween⟩ := first.stays elsewhere.1 found
      obtain ⟨older, foundAfter⟩ := ih elsewhere.2 foundBetween
      exact ⟨by simp [old, older], foundAfter⟩

theorem Run.after_known {action : Action} {sent : List Json} (known : action ≠ .create)
    (run : Run records (sent.map (⟨action, ·⟩) ++ rest) created after) :
    Run ((sent.map (⟨action, ·⟩)).foldl keep records) rest created after := by
  induction sent generalizing records with
  | nil => exact run
  | cons body others ih =>
      cases run with
      | step first further =>
          obtain ⟨rfl, rfl⟩ := first.eq_keep known
          exact ih further

theorem Run.eq_posted {sent : List Json}
    (run : Run records (sent.map (⟨.create, ·⟩)) created after) :
    after = (created.zip sent).foldl (fun records new =>
      records.insert new.1 (withId new.1 new.2)) records := by
  induction sent generalizing records created with
  | nil =>
      cases run
      rfl
  | cons body others ih =>
      cases run with
      | step first further =>
          cases first
          exact ih further

/-- The operations of a payload, one after the other, store it. -/
theorem Run.eq_storedIn {payload : Payload} (run : Run records payload.operations created after) :
    after = payload.storedIn created records := by
  rw [Payload.operations, List.append_assoc] at run
  have stored := ((run.after_known (by decide)).after_known (by decide)).eq_posted
  rw [List.foldl_map, List.foldl_map] at stored
  exact stored

theorem Ready.exists_step (ready : Ready records (operation :: rest)) :
    ∃ new between, Step records operation new between := by
  have held := ready.held operation List.mem_cons_self
  obtain ⟨action, body⟩ := operation
  cases action with
  | create =>
      obtain ⟨id, unused⟩ := Infinite.exists_notMem_finset records.keys.toFinset
      rw [List.mem_toFinset, Dict.mem_keys, not_exists] at unused
      exact ⟨_, _, .post (Option.eq_none_iff_forall_ne_some.mpr unused)⟩
  | upsert =>
      obtain ⟨id, identified, found⟩ := held nofun
      exact ⟨_, _, .put identified found⟩
  | delete =>
      obtain ⟨id, identified, found⟩ := held nofun
      exact ⟨_, _, .delete identified found⟩

/-- After one operation the others are still about records that are held. -/
theorem Ready.step (ready : Ready records (operation :: rest))
    (step : Step records operation new between) : Ready between rest := by
  obtain ⟨apart, others⟩ := List.pairwise_cons.mp ready.apart
  refine ⟨fun other member known => ?_, others⟩
  obtain ⟨id, about, found⟩ := ready.held other (List.mem_cons_of_mem _ member) known
  obtain ⟨value, held⟩ := Option.isSome_iff_exists.mp found
  have stays := step.stays (fun here => apart other member id here about) held
  exact ⟨id, about, by rw [stays.2]; rfl⟩

theorem Ready.exists_run (ready : Ready records operations) :
    ∃ created after, Run records operations created after := by
  induction operations generalizing records with
  | nil => exact ⟨_, _, .done⟩
  | cons operation rest ih =>
      obtain ⟨_, _, step⟩ := ready.exists_step
      obtain ⟨_, _, run⟩ := ih (ready.step step)
      exact ⟨_, _, .step step run⟩

theorem Ready.target_ne (ready : Ready records operations) (unused : records.get? id = none) :
    ∀ operation ∈ operations, operation.target? ≠ some id := by
  intro operation member about
  have known : operation.action ≠ .create := fun isCreate => by
    rw [target?, if_pos isCreate] at about
    cases about
  obtain ⟨other, aboutOther, found⟩ := ready.held operation member known
  rw [about] at aboutOther
  cases aboutOther
  rw [unused] at found
  cases found

theorem Leaves.post {kept : Dict Json} {posted : List Json} {body : Json}
    (leaves : Leaves (kept.insert id (withId id body)) posted created after)
    (fresh : id ∉ created) (unused : kept.get? id = none) :
    Leaves kept (body :: posted) (id :: created) after := by
  have held (other : String) : (if other ∈ created then none else after.get? other) =
      if other = id then some (withId id body) else kept.get? other := by
    rw [← Dict.get?_insert, ← leaves.kept, Dict.get?_filter_key]
    by_cases new : other ∈ created <;> simp [new]
  refine ⟨List.nodup_cons.mpr ⟨fresh, leaves.distinct⟩, Dict.ext_get? fun other => ?_, ?_⟩
  · rw [Dict.get?_filter_key]
    by_cases here : other = id
    · simp [here, unused]
    · have same := held other
      rw [if_neg here] at same
      simpa [here] using same
  · refine .cons ?_ leaves.new
    have here := held id
    rwa [if_neg fresh, if_pos rfl] at here

/-- Whatever ids are given, a run keeps what its operations keep, and adds what they post. -/
theorem Run.leaves (run : Run records operations created after)
    (ready : Ready records operations) :
    Leaves (operations.foldl keep records) (operations.filterMap posted?) created after := by
  induction run with
  | @done records =>
      refine ⟨List.nodup_nil, Dict.ext_get? fun id => ?_, .nil⟩
      rw [Dict.get?_filter_key]
      simp
  | step first further ih =>
      have others := ready.step first
      have left := ih others
      cases first with
      | delete identified held =>
          simpa [keep, identified, posted?] using left
      | put identified held =>
          simpa [keep, identified, posted?] using left
      | post unused =>
          have elsewhere := (List.forall_mem_cons.mp (ready.target_ne unused)).2
          rw [foldl_keep_insert elsewhere] at left
          have fresh := further.stays elsewhere Dict.get?_insert_self
          refine left.post fresh.1 ?_
          rw [get?_foldl_keep elsewhere]
          exact unused

theorem Ready.ends (ready : Ready records operations) :
    Ends records operations (operations.foldl keep records) (operations.filterMap posted?) :=
  ⟨ready.exists_run, fun _ _ run => run.leaves ready⟩

theorem Ready.perm (ready : Ready records operations) (permutation : rest.Perm operations) :
    Ready records rest :=
  ⟨fun operation member => ready.held operation (permutation.mem_iff.mp member),
    permutation.symm.pairwise ready.apart (Std.Symm.symm _ _)⟩

end Operation

/-! ### Batches -/

open Operation

variable {batch : Batch} {records : Dict Json}

theorem mem_inOrder {operation : Operation} :
    operation ∈ inOrder batch ↔
      ∃ change ∈ batch, (changeBody? change).map (⟨change.action, ·⟩) = some operation := by
  rw [inOrder, List.mem_filterMap]

theorem operation_of_change {change : Change} {operation : Operation}
    (made : (changeBody? change).map (⟨change.action, ·⟩) = some operation) :
    operation.action = change.action ∧ operation.target? = targetId? change := by
  obtain ⟨body, bodied, rfl⟩ := Option.map_eq_some_iff.mp made
  obtain ⟨action, record⟩ := change
  refine ⟨rfl, ?_⟩
  cases action with
  | create => rfl
  | upsert =>
      obtain ⟨id, identified, rfl⟩ := Option.map_eq_some_iff.mp bodied
      exact identified.symm
  | delete =>
      obtain ⟨id, identified, rfl⟩ := Option.map_eq_some_iff.mp bodied
      exact identified.symm

theorem filter_inOrder (action : Action) (batch : Batch) :
    (inOrder batch).filter (·.action = action) = (bodies action batch).map (⟨action, ·⟩) := by
  rw [inOrder, List.filter_filterMap, bodies, List.filterMap_filter, List.map_filterMap]
  refine List.filterMap_congr fun change _ => ?_
  by_cases kind : change.action = action
  · cases changeBody? change <;> simp [kind]
  · cases changeBody? change <;> simp [kind]

theorem perm_by_action (operations : List Operation) :
    (operations.filter (·.action = .delete) ++ operations.filter (·.action = .upsert) ++
      operations.filter (·.action = .create)).Perm operations := by
  induction operations with
  | nil => exact .nil
  | cons operation rest ih =>
      obtain ⟨action, body⟩ := operation
      cases action with
      | delete => simpa using ih
      | upsert =>
          rw [List.append_assoc] at ih ⊢
          simpa using List.perm_middle.trans (ih.cons _)
      | create => simpa using List.perm_middle.trans (ih.cons _)

theorem operations_grouped_perm (batch : Batch) :
    (grouped batch).operations.Perm (inOrder batch) := by
  have permutation := perm_by_action (inOrder batch)
  rwa [filter_inOrder, filter_inOrder, filter_inOrder] at permutation

theorem posted_operations (payload : Payload) :
    payload.operations.filterMap posted? = payload.posts := by
  simp [Payload.operations, posted?, List.filterMap_map, Function.comp_def]

theorem posted_inOrder (batch : Batch) :
    (inOrder batch).filterMap posted? = bodies .create batch := by
  rw [inOrder, List.filterMap_filterMap, bodies, List.filterMap_filter]
  refine List.filterMap_congr fun change _ => ?_
  by_cases kind : change.action = .create
  · cases changeBody? change <;> simp [kind, posted?]
  · cases changeBody? change <;> simp [kind, posted?]

theorem ready_inOrder (distinct : (batch.filterMap targetId?).Nodup)
    (held : ∀ id ∈ batch.filterMap targetId?, (records.get? id).isSome = true) :
    Ready records (inOrder batch) := by
  constructor
  · intro operation member known
    obtain ⟨change, inBatch, made⟩ := mem_inOrder.mp member
    obtain ⟨kind, about⟩ := operation_of_change made
    rw [kind] at known
    have bodied : (changeBody? change).isSome = true := by
      rw [← Option.isSome_map, made]
      rfl
    obtain ⟨id, identified⟩ := Option.isSome_iff_exists.mp (isSome_changeBody?.mp bodied known)
    have isTarget : targetId? change = some id := by rw [targetId?, if_neg known, identified]
    exact ⟨id, about.trans isTarget, held id (List.mem_filterMap.mpr ⟨change, inBatch, isTarget⟩)⟩
  · refine List.pairwise_filterMap.mpr ((List.pairwise_filterMap.mp distinct).imp ?_)
    intro first second different one isFirst other isSecond id about aboutOther
    rw [(operation_of_change isFirst).2] at about
    rw [(operation_of_change isSecond).2] at aboutOther
    exact different id about id aboutOther rfl

/-- A batch can be grouped if every change that needs an id has one.  The groups are what is sent
for its changes, in the order of the batch.  If no two changes delete or replace the same record,
and all these records are held, then the groups one after the other and the changes one by one
leave the same records, up to the ids of those that are created. -/
theorem ofBatch_grouped (batch : Batch) :
    ((∃ payload, Payload.ofBatch batch = .ok payload) ↔
      ∀ change ∈ batch, change.action ≠ .create → change.record.id.isSome = true) ∧
    ∀ payload, Payload.ofBatch batch = .ok payload →
      payload.deletes = bodies .delete batch ∧ payload.puts = bodies .upsert batch ∧
        payload.posts = bodies .create batch ∧
        ∀ records : Dict Json, (batch.filterMap targetId?).Nodup →
          (∀ id ∈ batch.filterMap targetId?, (records.get? id).isSome = true) →
          ∃ kept, Ends records payload.operations kept payload.posts ∧
            Ends records (inOrder batch) kept payload.posts := by
  constructor
  · simp only [ofBatch_ok_iff, isSome_changeBody?, exists_and_left, exists_eq, and_true]
  · intro payload built
    obtain ⟨_, rfl⟩ := ofBatch_ok_iff.mp built
    refine ⟨rfl, rfl, rfl, fun records distinct held => ?_⟩
    have ready := ready_inOrder distinct held
    have permutation := operations_grouped_perm batch
    have grouping := (ready.perm permutation).ends
    rw [posted_operations, foldl_keep_perm (ready.perm permutation).apart permutation] at grouping
    have ordered := ready.ends
    rw [posted_inOrder] at ordered
    exact ⟨_, grouping, ordered⟩

def addressRecord (name value : String) (id : Option String) : Dns.Record :=
  ⟨name, .address, 300, value, id⟩

def mixedBatch : Batch :=
  [⟨.create, addressRecord "a.home.example." "203.0.113.1" none⟩,
    ⟨.upsert, addressRecord "b.home.example." "203.0.113.2" (some "r2")⟩,
    ⟨.delete, addressRecord "a.home.example." "203.0.113.7" (some "r1")⟩,
    ⟨.create, addressRecord "c.home.example." "203.0.113.3" none⟩]

def mixedRecords : Dict Json :=
  .ofList [("r1", .obj []), ("r2", .obj []), ("r3", .obj [])]

theorem mixedBatch_grouped :
    ∃ kept, Ends mixedRecords (grouped mixedBatch).operations kept (grouped mixedBatch).posts ∧
      Ends mixedRecords (inOrder mixedBatch) kept (grouped mixedBatch).posts :=
  have ⟨_, _, _, grouping⟩ := (ofBatch_grouped mixedBatch).2 (grouped mixedBatch) rfl
  grouping mixedRecords (by decide) (by decide)

end HubKeeper.Cloudflare
