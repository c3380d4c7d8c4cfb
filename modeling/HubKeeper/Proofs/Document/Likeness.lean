import HubKeeper.Document.Basic

/-!
Documents that cannot be told apart.

A document that has been printed and parsed again spells values and decor out that
stood for their defaults before, so the two are not equal as trees.  They are alike:
after any edits, both read the same and print the same text, or refuse the same edit.
-/

namespace HubKeeper.SettingsDocument

/-- An edit puts a typed value at a path, or removes what is there. -/
abbrev SettingEdit := SettingPath × Option Value

/-- The document after edits, up to one that is refused. -/
def edited : List SettingEdit → SettingsDocument → Except Error SettingsDocument
  | [], document => .ok document
  | (path, value) :: rest, document =>
      match document.set path (value.map nodeOf) with
      | .error e => .error e
      | .ok changed => edited rest changed

theorem edited_append (first second : List SettingEdit) (document : SettingsDocument) :
    edited (first ++ second) document =
      match edited first document with
      | .error e => .error e
      | .ok changed => edited second changed := by
  induction first generalizing document with
  | nil => rfl
  | cons edit rest ih =>
      simp only [List.cons_append, edited]
      cases document.set edit.1 (edit.2.map nodeOf) with
      | error e => rfl
      | ok changed => exact ih changed

/-- Two documents print and read the same. -/
structure SameReadings (first second : SettingsDocument) : Prop where
  text : first.text = second.text
  entries : first.entries = second.entries
  get? : ∀ path, first.get? path = second.get? path
  unknownKeys : ∀ schema, first.unknownKeys schema = second.unknownKeys schema

theorem SameReadings.refl (document : SettingsDocument) : SameReadings document document :=
  ⟨rfl, rfl, fun _ => rfl, fun _ => rfl⟩

theorem SameReadings.trans (before : SameReadings first second)
    (after : SameReadings second third) : SameReadings first third where
  text := before.text.trans after.text
  entries := before.entries.trans after.entries
  get? path := (before.get? path).trans (after.get? path)
  unknownKeys schema := (before.unknownKeys schema).trans (after.unknownKeys schema)

/-- Results agree: both are the same error, or both are there and related. -/
inductive Agree (related : α → β → Prop) : Except Error α → Except Error β → Prop
  | error (e : Error) : Agree related (.error e) (.error e)
  | ok (relation : related a b) : Agree related (.ok a) (.ok b)

theorem Agree.trans {leading : α → β → Prop} {trailing : β → γ → Prop} {related : α → γ → Prop}
    (before : Agree leading first second) (after : Agree trailing second third)
    (compose : ∀ {a b c}, leading a b → trailing b c → related a c) :
    Agree related first third := by
  cases before with
  | error e =>
      cases after
      exact .error e
  | ok relation =>
      cases after with
      | ok further => exact .ok (compose relation further)

/-- No sequence of edits tells two documents apart. -/
def Alike (first second : SettingsDocument) : Prop :=
  ∀ edits, Agree SameReadings (edited edits first) (edited edits second)

namespace Alike

theorem refl (document : SettingsDocument) : Alike document document := by
  intro edits
  cases edited edits document with
  | error e => exact .error e
  | ok changed => exact .ok (.refl changed)

theorem trans (before : Alike first second) (after : Alike second third) : Alike first third :=
  fun edits => (before edits).trans (after edits) fun same same' => same.trans same'

theorem readings (alike : Alike first second) : SameReadings first second := by
  cases alike [] with
  | ok same => exact same

theorem set (alike : Alike first second) (path : SettingPath) (value : Option Value) :
    Agree Alike (first.set path (value.map nodeOf)) (second.set path (value.map nodeOf)) := by
  have once := alike [(path, value)]
  simp only [edited] at once
  cases firstSet : first.set path (value.map nodeOf) with
  | error e =>
      rw [firstSet] at once
      cases secondSet : second.set path (value.map nodeOf) with
      | error e' =>
          rw [secondSet] at once
          cases once
          exact .error e
      | ok changed =>
          rw [secondSet] at once
          cases once
  | ok changed =>
      rw [firstSet] at once
      cases secondSet : second.set path (value.map nodeOf) with
      | error e =>
          rw [secondSet] at once
          cases once
      | ok changed' =>
          refine .ok fun edits => ?_
          have further := alike ((path, value) :: edits)
          simpa only [edited, firstSet, secondSet] using further

end Alike

/-- The printed document parses to one that is like it. -/
def ReadsBack (document : SettingsDocument) : Prop :=
  ∃ again, Toml.Document.parse? document.text = some again ∧ Alike again document

end HubKeeper.SettingsDocument
