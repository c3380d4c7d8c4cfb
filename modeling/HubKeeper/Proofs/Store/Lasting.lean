import HubKeeper.Proofs.Store.Changes

/-!
Properties of the document in use that last.

The document that is in use has been read, generated or saved, and may have been edited since.
What is true of every document when it comes into use, and stays true through every edit that is
accepted, is true of the document in use, whatever has been done to the store.
-/

namespace HubKeeper.Store

open SettingsDocument (canonical nodeOf)

variable {store : Store} {state : State} {files : FileTree}

/-! ### Operations that succeed -/

theorem checkNames_ok {document : SettingsDocument} :
    store.checkNames document = .ok () ↔ document.unknownKeys store.schema = [] := by
  unfold checkNames
  cases document.unknownKeys store.schema <;> simp

theorem readDocument_ok {text : String} {document : SettingsDocument} :
    store.readDocument text = .ok document ↔
      Toml.Document.parse? text = some document ∧ document.unknownKeys store.schema = [] := by
  unfold readDocument
  cases Toml.Document.parse? text with
  | none => simp
  | some parsed =>
      simp only [← checkNames_ok, Option.some.injEq]
      cases checked : store.checkNames parsed with
      | error e =>
          refine iff_of_false nofun ?_
          rintro ⟨rfl, known⟩
          cases checked.symm.trans known
      | ok _ =>
          refine ⟨fun same => ?_, fun same => by rw [same.1]⟩
          cases same
          exact ⟨rfl, checked⟩

theorem observe_state (view : SettingsDocument → α) :
    (store.observe state view).1 = (store.access state).1 := by
  rw [observe]
  cases store.access state with
  | mk accessed result => cases result <;> rfl

theorem set_ok {after : State} {text : String} {raw : Json}
    (accepted : store.set state text raw = (after, .ok ())) :
    ∃ path typed accessed copy changed, store.checked text raw = .ok (path, typed) ∧
      store.access state = (accessed, .ok copy) ∧
      copy.document.set path (typed.map nodeOf) = .ok changed ∧
      after = { accessed with copy := some ⟨changed, .dirty⟩ } := by
  unfold set at accepted
  split at accepted
  · cases accepted
  · split at accepted
    · cases accepted
    · split at accepted
      · cases accepted
      · cases accepted
        exact ⟨_, _, _, _, _, ‹_›, ‹_›, ‹_›, rfl⟩

theorem set_failed {after : State} {text : String} {raw : Json} {e : Error}
    (refused : store.set state text raw = (after, .error e)) :
    after = state ∨ after = (store.access state).1 := by
  unfold set at refused
  split at refused
  · cases refused
    exact .inl rfl
  · right
    split at refused
    · rename_i found
      cases refused
      rw [found]
    · rename_i found
      split at refused
      · cases refused
        rw [found]
      · cases refused

theorem checked_ok {text : String} {raw : Json} {path : SettingPath} {typed : Option Value}
    (checked : store.checked text raw = .ok (path, typed)) :
    SettingPath.parse store.schema text = .ok path ∧
      ∃ setting, store.schema.get? path.setting = some setting ∧
        stored setting path raw = .ok typed := by
  unfold Store.checked at checked
  split at checked
  · cases checked
  · rename_i parsed
    split at checked
    · cases checked
    · rename_i setting found
      cases typedFor : stored setting _ raw with
      | error e =>
          rw [typedFor] at checked
          cases checked
      | ok value =>
          rw [typedFor] at checked
          cases checked
          exact ⟨parsed, setting, found, typedFor⟩

/-! ### Properties -/

/-- The working copy, if there is one, holds a document with the property. -/
def Holding (P : SettingsDocument → Prop) (state : State) : Prop :=
  ∀ copy, state.copy = some copy → P copy.document

/-- A property that documents of the store come into use with and keep through edits. -/
structure Lasts (store : Store) (P : SettingsDocument → Prop) : Prop where
  seeded : ∀ document, canonical store.schema = .ok document → P document
  read : ∀ text document, store.readDocument text = .ok document → P document
  edited : ∀ text raw path typed document changed, store.checked text raw = .ok (path, typed) →
    document.set path (typed.map nodeOf) = .ok changed → P document → P changed

namespace Lasts

variable {P : SettingsDocument → Prop} (lasts : store.Lasts P)

include lasts

theorem readOrSeed {document : SettingsDocument} {left : FileTree}
    (read : store.readOrSeed files = (left, .ok document)) : P document := by
  unfold Store.readOrSeed at read
  split at read
  · exact lasts.read _ _ (Prod.mk.inj read).2
  · unfold seed at read
    split at read
    · cases read
    · rename_i generated
      split at read
      · cases read
      · cases read
        exact lasts.seeded _ generated
  · cases read

theorem access (holding : Holding P state) : Holding P (store.access state).1 := by
  unfold Store.access
  split
  · exact holding
  · split
    · exact nofun
    · rename_i read
      intro copy present
      cases present
      exact lasts.readOrSeed read

theorem set (text : String) (raw : Json) (holding : Holding P state) :
    Holding P (store.set state text raw).1 := by
  have accessed := lasts.access holding
  cases result : store.set state text raw with
  | mk after outcome =>
      cases outcome with
      | error e => rcases set_failed result with rfl | rfl <;> assumption
      | ok _ =>
          obtain ⟨path, typed, read, copy, changed, checked, found, edited, rfl⟩ := set_ok result
          intro other present
          cases present
          rw [found] at accessed
          exact lasts.edited _ _ _ _ _ _ checked edited (accessed copy (access_ok found))

theorem perform (operation : Operation) (holding : Holding P state)
    (saved : ∀ document, operation = .save document → store.checkNames document = .ok () →
      P document) : Holding P (store.perform state operation).1 := by
  have observed {α : Type} (view : SettingsDocument → α) :
      Holding P (store.observe state view).1 :=
    (observe_state view).symm ▸ lasts.access holding
  cases operation with
  | load => exact observed id
  | layer => exact observed fun document => Layer.mk _ document.entries
  | get text =>
      simp only [Store.perform, get]
      cases SettingPath.parse store.schema text with
      | error e => exact holding
      | ok path => exact observed fun document => document.get? path
  | set text raw => exact lasts.set text raw holding
  | flush =>
      simp only [Store.perform, flush]
      split
      · rename_i document present
        split
        · exact holding
        · intro copy same
          cases same
          exact holding ⟨document, .dirty⟩ present
      · exact holding
  | save document =>
      simp only [Store.perform, save]
      split
      · exact holding
      · rename_i known
        split
        · exact holding
        · intro copy same
          cases same
          exact saved document rfl known
  | clear | reopen =>
      intro copy present
      cases present

/-- Whatever is done to a store, the document in use has the property. -/
theorem after (events : List Event)
    (saved : ∀ document, .operation (.save document) ∈ events →
      store.checkNames document = .ok () → P document)
    (holding : Holding P state) : Holding P (store.after state events) := by
  induction events generalizing state with
  | nil => exact holding
  | cons event rest ih =>
      refine ih (fun document member => saved document (List.mem_cons_of_mem _ member)) ?_
      cases event with
      | operation operation =>
          refine lasts.perform operation holding fun document same => saved document ?_
          rw [same]
          exact List.mem_cons_self
      | elsewhere files => exact holding

end Lasts

end HubKeeper.Store
