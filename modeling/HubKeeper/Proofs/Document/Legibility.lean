import HubKeeper.Proofs.Document.Canonical

/-!
A generated document that parses has nothing hidden in its descriptions.

A description stands in comments, one for each of its lines.  A control character ends the
comment before its line does; no statement starts with one, so the document does not parse.
What does parse therefore has the settings that are written into it, and no others.
-/

namespace HubKeeper

namespace Toml

variable {c : Char} {rest : List Char}

/-- What a character outside of comments is not. -/
theorem odd_cases (odd : isPlainChar c = false) :
    isBlank c = false ∧ isBareKeyChar c = false ∧ c ≠ '#' ∧ c ≠ '[' ∧ c ≠ '"' ∧ c ≠ '\'' := by
  refine ⟨?_, ?_, ?_, ?_, ?_, ?_⟩
  · cases blank : isBlank c with
    | false => rfl
    | true =>
        simp only [isBlank, Bool.or_eq_true, beq_iff_eq] at blank
        rcases blank with rfl | rfl <;> cases odd
  · cases bare : isBareKeyChar c with
    | false => rfl
    | true => rw [SettingsDocument.isPlainChar_of_isBareKeyChar bare] at odd; cases odd
  all_goals
    rintro rfl
    cases odd

/-- A comment ends at a control character that is no line end. -/
theorem splitTrivia_broken {body : List Char} (plain : ∀ d ∈ body, isPlainChar d = true)
    (odd : isPlainChar c = false) (noEnd : c ≠ '\n' ∧ (c = '\r' → rest.head? ≠ some '\n')) :
    (splitTrivia (body ++ c :: rest) true).2 = c :: rest := by
  induction body with
  | nil =>
      obtain ⟨notBlank, _, noComment, _⟩ := odd_cases odd
      rw [List.nil_append, splitTrivia.eq_4 _ _ _ (by simpa using noEnd.1)
        (by rintro tail isReturn rfl; exact noEnd.2 isReturn rfl)]
      simp [odd, notBlank, noComment]
  | cons d body ih =>
      have here := plain d List.mem_cons_self
      have notLine : d ≠ '\n' ∧ d ≠ '\r' := by
        constructor <;> (rintro rfl; cases here)
      rw [List.cons_append, splitTrivia.eq_4 _ _ _ (by simpa using notLine.1)
        (by simp [notLine.2])]
      simp [here, ih fun other member => plain other (List.mem_cons_of_mem _ member)]

theorem dottedKey?_odd (lead : Raw) (odd : isPlainChar c = false) :
    dottedKey? lead (c :: rest) = none := by
  obtain ⟨notBlank, notBare, _, _, notDouble, notSingle⟩ := odd_cases odd
  have blanks : splitBlanks (c :: rest) = ([], c :: rest) := by simp [splitBlanks, notBlank]
  have noName : keyName? (c :: rest) = none := by
    unfold keyName?
    split
    · rename_i same; cases same; exact absurd rfl notDouble
    · rename_i same; cases same; exact absurd rfl notSingle
    · simp [notBare]
  simp only [dottedKey?, maxKeyParts, keyParts?, keyPart?, blanks, noName]

theorem Statement.read?_odd (lead : Raw) (odd : isPlainChar c = false) :
    Statement.read? lead (c :: rest) = none := by
  obtain ⟨_, _, _, notOpen, _, _⟩ := odd_cases odd
  unfold Statement.read?
  split
  · rename_i same; cases same; exact absurd rfl notOpen
  · rename_i same; cases same; exact absurd rfl notOpen
  · rw [Statement.pair?, dottedKey?_odd lead odd]

theorem Statement.readAll?_broken {lines : List (List Char)} {body : List Char}
    (quiet : ∀ line ∈ lines, QuietLine line) (plain : ∀ d ∈ body, isPlainChar d = true)
    (odd : isPlainChar c = false) (noEnd : c ≠ '\n' ∧ (c = '\r' → rest.head? ≠ some '\n'))
    (fuel : Nat) :
    Statement.readAll? fuel (linesChars lines ++ '#' :: (body ++ c :: rest)) = none := by
  cases fuel with
  | zero => rfl
  | succ fuel =>
      have left : (splitTrivia (linesChars lines ++ '#' :: (body ++ c :: rest)) false).2 =
          c :: rest := by
        rw [splitTrivia_lines quiet, splitTrivia.eq_4 _ _ _ (by simp) (by simp)]
        simp [splitTrivia_broken plain odd noEnd, show isBlank '#' = false by decide]
      rw [Statement.readAll?]
      generalize splitTrivia (linesChars lines ++ '#' :: (body ++ c :: rest)) false = split at left
      obtain ⟨lead, _⟩ := split
      cases left
      simp [Statement.read?_odd lead odd]

end Toml

namespace SettingsDocument

open Toml (QuietLine linesChars isPlainChar IsBareKey)

variable {setting : Setting} {settings : List Setting} {line : String}

/-- A line of a description has no line feed, and no carriage return at its end. -/
theorem descriptionLines_ends (member : line ∈ descriptionLines setting) :
    '\n' ∉ line.toList ∧ line.toList.getLast? ≠ some '\r' := by
  obtain ⟨raw, isLine, rfl⟩ := List.mem_map.mp (List.mem_filter.mp member).1
  constructor
  · intro feed
    rw [Text.trim, String.toList_ofList, String.toList_ofList] at feed
    exact (Text.mem_of_mem_lines isLine (Text.mem_of_mem_trimChars feed)).2 rfl
  · intro last
    rw [Text.trim, String.toList_ofList] at last
    exact absurd (Text.getLast?_trimChars last) (by decide)

/-- A line that may not stand in a comment is fine up to a control character. -/
theorem exists_odd_of_not_isPlain (hidden : ¬IsPlain line) :
    ∃ body c rest, line.toList = body ++ c :: rest ∧ (∀ d ∈ body, isPlainChar d = true) ∧
      isPlainChar c = false := by
  have some : (line.toList.find? fun c => !isPlainChar c).isSome = true := by
    rw [List.find?_isSome]
    simpa [IsPlain, List.all_eq_true] using hidden
  obtain ⟨c, found⟩ := Option.isSome_iff_exists.mp some
  obtain ⟨odd, body, rest, split, plain⟩ := List.find?_eq_some_iff_append.mp found
  exact ⟨body, c, rest, split, by simpa using plain, by simpa using odd⟩

/-- The first line of a description that hides something, among the lines of the setting. -/
theorem settingLines_hidden (hidden : ¬∀ line ∈ descriptionLines setting, IsPlain line) :
    ∃ before bad others, settingLines setting = before ++ ("# " ++ bad) :: others ∧
      (∀ line ∈ before.map String.toList, QuietLine line) ∧
      bad ∈ descriptionLines setting ∧ ¬IsPlain bad := by
  have some : ((descriptionLines setting).find? fun line => !line.toList.all isPlainChar).isSome := by
    rw [List.find?_isSome]
    simpa [IsPlain] using hidden
  obtain ⟨bad, found⟩ := Option.isSome_iff_exists.mp some
  obtain ⟨isBad, before, after, split, fine⟩ := List.find?_eq_some_iff_append.mp found
  obtain ⟨others, whole⟩ : ∃ others,
      settingLines setting = "" :: before.map ("# " ++ ·) ++ ("# " ++ bad) :: others := by
    rw [settingLines, split, List.map_append, List.map_cons]
    exact ⟨_, List.append_assoc ("" :: before.map ("# " ++ ·))
      (("# " ++ bad) :: after.map ("# " ++ ·)) _⟩
  refine ⟨_, bad, others, whole, ?_, List.mem_of_find?_eq_some found, by simpa [IsPlain] using isBad⟩
  rw [List.map_cons, List.map_map, List.forall_mem_cons, List.forall_mem_map]
  exact ⟨.inl rfl, fun line member => IsPlain.quietLine (by simpa [IsPlain] using fine line member)⟩

/-- The lines of a setting do not read if its description hides something. -/
theorem readAll?_hidden {lines : List (List Char)} (quiet : ∀ line ∈ lines, QuietLine line)
    (hidden : ¬∀ line ∈ descriptionLines setting, IsPlain line) (fuel : Nat) (tail : List Char) :
    Toml.Statement.readAll? fuel (linesChars lines ++
      (linesChars ((settingLines setting).map String.toList) ++ tail)) = none := by
  obtain ⟨before, bad, others, split, quietBefore, member, isBad⟩ := settingLines_hidden hidden
  obtain ⟨body, c, rest, spelled, plain, odd⟩ := exists_odd_of_not_isPlain isBad
  obtain ⟨noFeed, noReturn⟩ := descriptionLines_ends member
  have later : ∀ d ∈ ' ' :: body, isPlainChar d = true :=
    List.forall_mem_cons.mpr ⟨by decide, plain⟩
  have noEnd : ∀ text, c ≠ '\n' ∧ (c = '\r' → (rest ++ '\n' :: text).head? ≠ some '\n') := by
    intro text
    rw [spelled] at noFeed noReturn
    refine ⟨fun feed => noFeed (by simp [feed]), fun isReturn first => ?_⟩
    cases rest with
    | nil => exact noReturn (by simp [isReturn])
    | cons d rest => exact noFeed (by simp [Option.some.inj first])
  have text : linesChars lines ++ (linesChars ((settingLines setting).map String.toList) ++ tail) =
      linesChars (lines ++ before.map String.toList) ++ '#' :: ((' ' :: body) ++ c ::
        (rest ++ '\n' :: (linesChars (others.map String.toList) ++ tail))) := by
    have sign : "# ".toList = ['#', ' '] := rfl
    simp [split, linesChars, spelled, sign]
  rw [text]
  exact Toml.Statement.readAll?_broken (List.forall_mem_append.mpr ⟨quiet, quietBefore⟩) later odd
    (noEnd _) fuel

/-- If the lines of settings read, their descriptions hide nothing. -/
theorem legible_of_readAll? {fuel : Nat} {lines : List (List Char)}
    (bare : ∀ setting ∈ settings, IsBareKey setting.name)
    (fits : ∀ setting ∈ settings, ∀ value, setting.rule = .constant value → value.Fits)
    (quiet : ∀ line ∈ lines, QuietLine line)
    (read : Toml.Statement.readAll? fuel (linesChars lines ++
      linesChars ((settings.flatMap settingLines).map String.toList)) = some result) :
    ∀ setting ∈ settings, Legible setting := by
  induction settings generalizing fuel lines result with
  | nil => exact List.forall_mem_nil _
  | cons setting settings ih =>
      have otherBare := fun other member => bare other (List.mem_cons_of_mem _ member)
      have otherFits := fun other member => fits other (List.mem_cons_of_mem _ member)
      rw [linesChars_settings_cons] at read
      -- Up to the first description that hides something, lines read as they are meant.
      by_cases plain : ∀ line ∈ descriptionLines setting, IsPlain line
      · have legible : Legible setting :=
          ⟨bare setting List.mem_cons_self, fits setting List.mem_cons_self, plain⟩
        refine List.forall_mem_cons.mpr ⟨legible, ?_⟩
        obtain ⟨comments, quietComments, text⟩ := linesChars_settingLines legible
        have allQuiet : ∀ line ∈ lines ++ comments, QuietLine line :=
          List.forall_mem_append.mpr ⟨quiet, quietComments⟩
        rw [text, List.append_assoc, ← List.append_assoc, ← Toml.linesChars_append] at read
        cases constant : writtenConstant? setting with
        | none =>
            rw [constant, List.nil_append] at read
            exact ih otherBare otherFits allQuiet read
        | some value =>
            cases fuel with
            | zero => cases read
            | succ fuel =>
                have reads := readsLine_nodeOf (legible.fits value (rule_of_writtenConstant constant))
                obtain ⟨statement, _, readPair⟩ := Toml.Statement.read?_pair
                  (linesChars (lines ++ comments)) legible.name reads
                  (linesChars ((settings.flatMap settingLines).map String.toList))
                obtain ⟨c, text, spelled, solid, _⟩ := Toml.Statement.isBareKey_head legible.name
                simp only [constant, Toml.Statement.pairChars, spelled, List.cons_append]
                  at readPair read
                rw [Toml.Statement.readAll?_statement allQuiet fuel solid readPair] at read
                obtain ⟨further, readOthers, _⟩ := Option.map_eq_some_iff.mp read
                exact ih otherBare otherFits (List.forall_mem_nil _) readOthers
      · rw [readAll?_hidden quiet plain] at read
        cases read

/-- Where the generated document parses, all its declarations are written as they are meant. -/
theorem legible_of_canonical {schema : Schema} {document : SettingsDocument}
    (generated : canonical schema = .ok document)
    (bare : ∀ setting ∈ schema.settings, IsBareKey setting.name)
    (fits : ∀ setting ∈ schema.settings, ∀ value, setting.rule = .constant value → value.Fits) :
    ∀ setting ∈ schema.settings, Legible setting := by
  obtain ⟨version, key, decor, fuel, _, _, _, parsed⟩ := parse?_canonicalText schema
  rw [canonical, parsed] at generated
  split at generated
  · rename_i made
    obtain ⟨result, read, _⟩ := Option.bind_eq_some_iff.mp made
    have lines : ∀ line ∈ [], QuietLine line := List.forall_mem_nil _
    exact legible_of_readAll? bare fits lines (by simpa [linesChars] using read)
  · cases generated

end SettingsDocument

end HubKeeper
