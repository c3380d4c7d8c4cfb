import HubKeeper.Store.Basic
import Mathlib

/-!
What the errors of a set tell of the value of a sensitive setting.

A value is refused by the check of its type, with an error made of the path and the kind of the
setting, or the set fails later, where the document cannot be read or has no table for settings.
So it is known before the value is which error each of the two would be.
-/

namespace HubKeeper.Store

/-- A text that is the path of a sensitive setting, or of an entry of one. -/
def NamesSecret (store : Store) (text : String) : Prop :=
  ∃ path setting, SettingPath.parse store.schema text = .ok path ∧
    store.schema.get? path.setting = some setting ∧ setting.sensitive = true

/-- The value passes the check of its type. -/
def PassesCheck (store : Store) (text : String) (value : Json) : Prop :=
  ∃ edit, store.checked text value = .ok edit

/-- How a value of a sensitive setting is refused. -/
def refusal (setting : Setting) (path : SettingPath) : Error :=
  .invalidSetting path.text redactedText
    (if path.key.isSome then "map entries must be scalars" else "expected a " ++ setting.kind.title)

/-- Where the entry of the settings is no table. -/
def tableMissing : Error := .invalidInput ("'" ++ SettingsDocument.hubName ++ "' is not a table")

variable {store : Store} {state : State} {setting : Setting} {path : SettingPath}
variable {text : String} {value other : Json} {e first second : Error}

/-! ### The check -/

theorem coerce_error {kind : Kind} {name : String} (refused : kind.coerce name value = .error e) :
    e = .invalidSetting name value.shortText ("expected a " ++ kind.title) := by
  unfold Kind.coerce at refused
  split at refused
  · cases refused
  · cases refused
    rfl

/-- Whatever the value, it is not shown. -/
theorem stored_error (sensitive : setting.sensitive = true)
    (refused : stored setting path value = .error e) : e = refusal setting path := by
  have hidden : shownValue setting value = redactedText := by
    rw [shownValue, if_pos sensitive]
  unfold stored at refused
  split at refused
  · cases refused
  · split at refused
    · rename_i isEntry
      split at refused
      · cases refused
      · cases refused
        rw [refusal, hidden, if_pos isEntry]
    · rename_i isWhole
      have unkeyed : path.text = path.setting := by
        simp only [Bool.not_eq_true, Option.isSome_eq_false_iff, Option.isNone_iff_eq_none] at isWhole
        rw [SettingPath.text, isWhole]
      split at refused
      · cases refused
      · rename_i found
        cases coerce_error found
        cases refused
        rw [refusal, hidden, if_neg isWhole, unkeyed]
      · -- Coercion has no other errors than the one above.
        rename_i others found
        exact absurd (coerce_error found) (others _ _ _)

theorem checked_error (parsed : SettingPath.parse store.schema text = .ok path)
    (declared : store.schema.get? path.setting = some setting)
    (sensitive : setting.sensitive = true) (refused : store.checked text value = .error e) :
    e = refusal setting path := by
  simp only [checked, parsed, declared] at refused
  cases typed : stored setting path value with
  | error found =>
      rw [typed] at refused
      cases refused
      exact stored_error sensitive typed
  | ok typed => simp_all [Except.map]

/-! ### Behind the check -/

theorem set_document_error {document : SettingsDocument} {node : Option Toml.Node}
    (refused : document.set path node = .error e) : e = tableMissing := by
  simp only [SettingsDocument.set] at refused
  split at refused
  · cases refused
    rfl
  · cases refused

/-- How a set fails once its value is accepted. -/
inductive FailsLater (store : Store) (state : State) : Error → Prop
  | unread {fault : Error} (unread : (store.access state).2 = .error fault) :
      FailsLater store state fault
  | noTable {copy : WorkingCopy} (read : (store.access state).2 = .ok copy) :
      FailsLater store state tableMissing

theorem set_error_cases (failed : (store.set state text value).2 = .error e) :
    store.checked text value = .error e ∨
      store.PassesCheck text value ∧ store.FailsLater state e := by
  unfold set at failed
  split at failed
  · rename_i refused
    cases failed
    exact .inl refused
  · rename_i path typed accepted
    right
    refine ⟨⟨_, accepted⟩, ?_⟩
    split at failed
    · rename_i unread
      cases failed
      exact .unread (by rw [unread])
    · rename_i read
      split at failed
      · rename_i refused
        cases failed
        cases set_document_error refused
        exact .noTable (by rw [read])
      · cases failed

/-- The state alone tells which error follows. -/
theorem FailsLater.unique (fails : store.FailsLater state first)
    (others : store.FailsLater state second) : first = second := by
  cases fails with
  | unread unread =>
      cases others with
      | unread otherUnread => exact Except.error.inj (unread.symm.trans otherUnread)
      | noTable read => cases unread.symm.trans read
  | noTable read =>
      cases others with
      | unread unread => cases unread.symm.trans read
      | noTable _ => rfl

theorem not_passesCheck_of_error (refused : store.checked text value = .error e) :
    ¬store.PassesCheck text value := by
  rintro ⟨edit, accepted⟩
  cases refused.symm.trans accepted

/-- Two values of a sensitive setting that fail the check both, or pass it both, are not told
apart by the errors with which setting them fails. -/
theorem set_errors_alike (secret : store.NamesSecret text)
    (alike : store.PassesCheck text value ↔ store.PassesCheck text other)
    (failed : (store.set state text value).2 = .error first)
    (otherFailed : (store.set state text other).2 = .error second) : first = second := by
  obtain ⟨path, setting, parsed, declared, sensitive⟩ := secret
  rcases set_error_cases failed with refused | ⟨passes, later⟩
  · rcases set_error_cases otherFailed with otherRefused | ⟨otherPasses, _⟩
    · rw [checked_error parsed declared sensitive refused,
        checked_error parsed declared sensitive otherRefused]
    · exact absurd (alike.mpr otherPasses) (not_passesCheck_of_error refused)
  · rcases set_error_cases otherFailed with otherRefused | ⟨_, otherLater⟩
    · exact absurd (alike.mp passes) (not_passesCheck_of_error otherRefused)
    · exact later.unique otherLater

/-! ### A vault -/

def vaultPin : Setting := (Setting.declare "pin" .integer).secret

def vaultKeys : Setting := (Setting.declare "keys" .textMap).secret

def vault : Store := ⟨"hub", ⟨[vaultPin, vaultKeys], [vaultPin, vaultKeys]⟩⟩

def tableless : SettingsDocument := (Toml.Document.parse? "hub = 1\n").getD ⟨[], []⟩

def tablelessState : State := ⟨.empty, some ⟨tableless, .loaded⟩⟩

theorem vault_pin : vault.schema.get? "pin" = some vaultPin := by
  cbv

theorem vault_keys : vault.schema.get? "keys" = some vaultKeys := by
  cbv

theorem vault_parse_pin : SettingPath.parse vault.schema "pin" = .ok ⟨"pin", none⟩ := by
  have split : Text.splitOn '.' "pin" = ["pin"] := by cbv
  simp only [SettingPath.parse, split, List.headD_cons, vault_pin]
  rfl

theorem vault_parse_key :
    SettingPath.parse vault.schema "keys.door" = .ok ⟨"keys", some "door"⟩ := by
  have split : Text.splitOn '.' "keys.door" = ["keys", "door"] := by cbv
  simp only [SettingPath.parse, split, List.headD_cons, vault_keys]
  rfl

theorem vault_set_pin (value : Json) (present : value.isNull = false)
    (refused : Kind.integer.coerce? value = none) :
    ¬vault.PassesCheck "pin" value ∧
      (vault.set tablelessState "pin" value).2 = .error (refusal vaultPin ⟨"pin", none⟩) := by
  have coerced : vaultPin.kind.coerce "pin" value =
      .error (.invalidSetting "pin" value.shortText "expected a integer") := by
    show Kind.integer.coerce "pin" value = _
    rw [Kind.coerce, refused]
    rfl
  have checked : vault.checked "pin" value = .error (refusal vaultPin ⟨"pin", none⟩) := by
    simp only [checked, vault_parse_pin, vault_pin, stored, present, coerced]
    rfl
  exact ⟨not_passesCheck_of_error checked, by rw [set, checked]⟩

theorem vault_checked_key (key : String) :
    vault.checked "keys.door" (.str key) = .ok (⟨"keys", some "door"⟩, some (.text key)) := by
  simp only [checked, vault_parse_key, vault_keys]
  rfl

theorem vault_set_key (key : String) :
    (vault.set tablelessState "keys.door" (.str key)).2 = .error tableMissing := by
  have refused : tableless.set ⟨"keys", some "door"⟩ (some (SettingsDocument.nodeOf (.text key))) =
      .error tableMissing := by
    have found : ((SettingsDocument.ensureHub tableless.root).find? SettingsDocument.hubName).bind
        Toml.Node.entries? = none := by cbv
    simp only [SettingsDocument.set, found]
    rfl
  simp only [set, vault_checked_key, access, tablelessState, Option.map_some, refused]

/-- Two pins that are no numbers, and two keys that are not written anywhere. -/
theorem vault_errors_alike :
    (∃ first second, (vault.set tablelessState "pin" (.str "s3cret")).2 = .error first ∧
      (vault.set tablelessState "pin" (.arr [.str "0ther"])).2 = .error second ∧
        first = second) ∧
    ∃ first second, (vault.set tablelessState "keys.door" (.str "s3cret")).2 = .error first ∧
      (vault.set tablelessState "keys.door" (.str "0ther")).2 = .error second ∧
        first = second := by
  have pinSecret : vault.NamesSecret "pin" := ⟨_, vaultPin, vault_parse_pin, vault_pin, rfl⟩
  have keySecret : vault.NamesSecret "keys.door" :=
    ⟨_, vaultKeys, vault_parse_key, vault_keys, rfl⟩
  obtain ⟨textRefused, textFails⟩ := vault_set_pin (.str "s3cret") rfl (by decide)
  obtain ⟨arrayRefused, arrayFails⟩ := vault_set_pin (.arr [.str "0ther"]) rfl rfl
  have pins := set_errors_alike pinSecret (iff_of_false textRefused arrayRefused) textFails
    arrayFails
  have keys := set_errors_alike keySecret
    (iff_of_true ⟨_, vault_checked_key "s3cret"⟩ ⟨_, vault_checked_key "0ther"⟩)
    (vault_set_key "s3cret") (vault_set_key "0ther")
  exact ⟨⟨_, _, textFails, arrayFails, pins⟩, _, _, vault_set_key _, vault_set_key _, keys⟩

end HubKeeper.Store
