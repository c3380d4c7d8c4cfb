import HubKeeper.Proofs.Document.Likeness
import HubKeeper.Proofs.Files.Replacement
import HubKeeper.Store.Session

/-!
Changes that are not on disk yet, in a working copy.

Only a set makes a working copy dirty.  What is dirty stays until it has been written, or
until it is given up by an operation that is asked for that.
-/

namespace HubKeeper.Store

/-- What becomes of a dirty document in an operation. -/
inductive Fate (store : Store) (document : SettingsDocument) :
    Operation → State × Except Error Answer → Prop
  | kept {operation : Operation} {after : State} {answer : Except Error Answer}
      (copy : after.copy = some ⟨document, .dirty⟩) : Fate store document operation (after, answer)
  | changed {path : String} {value : Json} {edit : SettingPath × Option Value} {after : State}
      (checked : store.checked path value = .ok edit)
      (edited : document.set edit.1 (edit.2.map SettingsDocument.nodeOf) = .ok changed)
      (copy : after.copy = some ⟨changed, .dirty⟩) :
      Fate store document (.set path value) (after, .ok .done)
  | flushed {after : State} (copy : after.copy = some ⟨document, .persisted⟩)
      (written : after.files.readText store.path = .ok document.text) :
      Fate store document .flush (after, .ok (.flushed true))
  | saved {after : State} (copy : after.copy = some ⟨other, .persisted⟩)
      (written : after.files.readText store.path = .ok other.text) :
      Fate store document (.save other) (after, .ok .done)
  | cleared {after : State} : Fate store document .clear (after, .ok .done)
  | reopened {after : State} : Fate store document .reopen (after, .ok .done)

theorem perform_fate (store : Store) (files : FileTree) (document : SettingsDocument)
    (operation : Operation) :
    Fate store document operation (store.perform ⟨files, some ⟨document, .dirty⟩⟩ operation) := by
  cases operation with
  | load => exact .kept rfl
  | get path =>
      simp only [perform, get]
      cases SettingPath.parse store.schema path with
      | error e => exact .kept rfl
      | ok path => exact .kept rfl
  | set path value =>
      simp only [perform, set]
      cases checked : store.checked path value with
      | error e => exact .kept rfl
      | ok edit =>
          simp only [access]
          cases edited : document.set edit.1 (edit.2.map SettingsDocument.nodeOf) with
          | error e => exact .kept rfl
          | ok changed => exact .changed checked edited rfl
  | flush =>
      simp only [perform, flush]
      cases replaced : files.replaceText store.path document.text with
      | mk after result =>
          cases result with
          | error e => exact .kept rfl
          | ok _ => exact .flushed rfl (FileTree.replaceText_ok replaced)
  | save other =>
      simp only [perform, save]
      cases store.checkNames other with
      | error e => exact .kept rfl
      | ok _ =>
          simp only
          cases replaced : files.replaceText store.path other.text with
          | mk after result =>
              cases result with
              | error e => exact .kept rfl
              | ok _ => exact .saved rfl (FileTree.replaceText_ok replaced)
  | layer => exact .kept rfl
  | clear => exact .cleared
  | reopen => exact .reopened

variable {store : Store} {state : State} {document : SettingsDocument} {operation : Operation}

theorem access_ok {accessed : State} (found : store.access state = (accessed, .ok copy)) :
    accessed.copy = some copy := by
  unfold access at found
  split at found
  · rename_i present
    cases found
    exact present
  · split at found
    · cases found
    · cases found
      rfl

theorem access_dirty (store : Store)
    (dirty : (store.access state).1.copy = some ⟨document, .dirty⟩) :
    state.copy = some ⟨document, .dirty⟩ := by
  obtain ⟨files, copy⟩ := state
  cases copy with
  | some copy => exact dirty
  | none =>
      simp only [access] at dirty
      split at dirty
      · cases dirty
      · cases dirty

theorem observe_dirty {view : SettingsDocument → α} {answer : α → Answer}
    (dirty : ((store.observe state view).map id (·.map answer)).1.copy =
      some ⟨document, .dirty⟩) :
    state.copy = some ⟨document, .dirty⟩ := by
  refine access_dirty store ?_
  rw [observe] at dirty
  generalize store.access state = result at dirty ⊢
  obtain ⟨after, accessed⟩ := result
  cases accessed with
  | error e => exact dirty
  | ok copy => exact dirty

theorem get_dirty {path : String} {answer : Option Json → Answer}
    (dirty : ((store.get state path).map id (·.map answer)).1.copy = some ⟨document, .dirty⟩) :
    state.copy = some ⟨document, .dirty⟩ := by
  rw [get] at dirty
  cases parsed : SettingPath.parse store.schema path with
  | error e =>
      rw [parsed] at dirty
      exact dirty
  | ok path =>
      rw [parsed] at dirty
      exact observe_dirty dirty

theorem set_dirty {path : String} {value : Json}
    (dirty : (store.set state path value).1.copy = some ⟨document, .dirty⟩) :
    state.copy = some ⟨document, .dirty⟩ ∨ (store.set state path value).2 = .ok () := by
  have accessed : (store.access state).1.copy = some ⟨document, .dirty⟩ →
      state.copy = some ⟨document, .dirty⟩ :=
    access_dirty store
  simp only [set] at dirty ⊢
  cases checked : store.checked path value with
  | error e =>
      rw [checked] at dirty
      exact .inl dirty
  | ok edit =>
      simp only [checked] at dirty ⊢
      -- The document may have been read, which makes nothing dirty.
      generalize store.access state = result at dirty accessed ⊢
      obtain ⟨after, result⟩ := result
      cases result with
      | error e => exact .inl (accessed dirty)
      | ok copy =>
          simp only at dirty ⊢
          cases edited : copy.document.set edit.1 (edit.2.map SettingsDocument.nodeOf) with
          | error e =>
              rw [edited] at dirty
              exact .inl (accessed dirty)
          | ok changed => exact .inr rfl

/-- A working copy is dirty after an operation if it was before, or if a set succeeds. -/
theorem perform_dirty (dirty : (store.perform state operation).1.copy = some ⟨document, .dirty⟩) :
    state.copy = some ⟨document, .dirty⟩ ∨
      (∃ path value, operation = .set path value) ∧
        (store.perform state operation).2 = .ok .done := by
  cases operation with
  | load => exact .inl (observe_dirty dirty)
  | get path => exact .inl (get_dirty dirty)
  | set path value =>
      simp only [perform] at dirty ⊢
      rcases set_dirty dirty with before | done
      · exact .inl before
      · refine .inr ⟨⟨path, value, rfl⟩, ?_⟩
        simp only [Prod.map_snd, done, Except.map]
  | flush =>
      simp only [perform, flush] at dirty
      split at dirty
      · split at dirty
        · exact .inl dirty
        · cases dirty
      · exact .inl dirty
  | save other =>
      simp only [perform, save] at dirty
      split at dirty
      · exact .inl dirty
      · split at dirty
        · exact .inl dirty
        · cases dirty
  | layer => exact .inl (observe_dirty dirty)
  | clear => cases dirty
  | reopen => cases dirty

/-! ### Edits of a run -/

open SettingsDocument (SettingEdit edited edited_append)

/-- The event does not ask for the working copy to be given up. -/
def Event.Keeps : Event → Prop
  | .operation (.save _) | .operation .clear | .operation .reopen => False
  | _ => True

def acceptedEdit? (store : Store) (state : State) : Event → Option SettingEdit
  | .operation (.set path value) =>
      match store.checked path value, (store.set state path value).2 with
      | .ok edit, .ok () => some edit
      | _, _ => none
  | _ => none

/-- The edits of all sets that succeed in a run. -/
def acceptedEdits (store : Store) : State → List Event → List SettingEdit
  | _, [] => []
  | state, event :: rest =>
      (store.acceptedEdit? state event).toList ++ store.acceptedEdits (store.step state event) rest

theorem set_edited (store : Store) (state : State) (present : state.copy = some copy)
    (path : String) (value : Json) :
    let edit? := store.acceptedEdit? state (.operation (.set path value))
    ∃ changed, (store.set state path value).1.copy = some changed ∧
      edited edit?.toList copy.document = .ok changed.document ∧
      (copy.freshness = .dirty ∨ edit? ≠ none → changed.freshness = .dirty) := by
  obtain ⟨files, _⟩ := state
  cases present
  simp only [acceptedEdit?, set]
  cases store.checked path value with
  | error e => exact ⟨copy, rfl, rfl, by simp⟩
  | ok edit =>
      simp only [access]
      cases made : copy.document.set edit.1 (edit.2.map SettingsDocument.nodeOf) with
      | error e => exact ⟨copy, rfl, rfl, by simp⟩
      | ok changed =>
          exact ⟨⟨changed, .dirty⟩, rfl, by simp only [edited, made, Option.toList], fun _ => rfl⟩

/-- A document that could not be written is still there as it was. -/
theorem flush_error (failed : (store.flush state).2 = .error e) :
    (store.flush state).1.copy = state.copy := by
  unfold flush at *
  split at failed
  · rename_i document present
    cases replaced : state.files.replaceText store.path document.text with
    | mk after result =>
        cases result with
        | error e => simp only [present]
        | ok _ =>
            simp only [replaced] at failed
            cases failed
  · cases failed

theorem step_edited (store : Store) (files : FileTree) (copy : WorkingCopy) (event : Event)
    (keeps : event.Keeps) :
    ∃ changed freshness,
      edited (store.acceptedEdit? ⟨files, some copy⟩ event).toList copy.document = .ok changed ∧
      (store.step ⟨files, some copy⟩ event).copy = some ⟨changed, freshness⟩ := by
  obtain ⟨document, freshness⟩ := copy
  cases event with
  | elsewhere files => exact ⟨document, freshness, rfl, rfl⟩
  | operation operation =>
      cases operation with
      | load => exact ⟨document, freshness, rfl, rfl⟩
      | get path =>
          refine ⟨document, freshness, rfl, ?_⟩
          simp only [step, perform, get]
          cases SettingPath.parse store.schema path with
          | error e => rfl
          | ok path => rfl
      | set path value =>
          obtain ⟨changed, present, made, _⟩ :=
            set_edited store ⟨files, some ⟨document, freshness⟩⟩ rfl path value
          exact ⟨changed.document, changed.freshness, made, present⟩
      | flush =>
          cases freshness with
          | loaded => exact ⟨document, .loaded, rfl, rfl⟩
          | persisted => exact ⟨document, .persisted, rfl, rfl⟩
          | dirty =>
              simp only [step, perform, flush]
              cases files.replaceText store.path document.text with
              | mk after result =>
                  cases result with
                  | error e => exact ⟨document, .dirty, rfl, rfl⟩
                  | ok _ => exact ⟨document, .persisted, rfl, rfl⟩
      | layer => exact ⟨document, freshness, rfl, rfl⟩
      | save _ => exact keeps.elim
      | clear => exact keeps.elim
      | reopen => exact keeps.elim

/-- The working copy holds every edit that was accepted, in order. -/
theorem after_edited (store : Store) (events : List Event) (keeps : ∀ event ∈ events, event.Keeps)
    (present : state.copy = some copy) :
    ∃ changed freshness, edited (store.acceptedEdits state events) copy.document = .ok changed ∧
      (store.after state events).copy = some ⟨changed, freshness⟩ := by
  induction events generalizing state copy with
  | nil => exact ⟨copy.document, copy.freshness, rfl, present⟩
  | cons event rest ih =>
      obtain ⟨files, _⟩ := state
      cases present
      obtain ⟨first, _, once, next⟩ := step_edited store files copy event (keeps event (by simp))
      obtain ⟨changed, freshness, further, last⟩ :=
        ih (fun later member => keeps later (by simp [member])) next
      refine ⟨changed, freshness, ?_, last⟩
      rw [acceptedEdits, edited_append, once]
      exact further

end HubKeeper.Store
