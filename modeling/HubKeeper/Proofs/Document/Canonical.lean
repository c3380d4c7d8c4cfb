import HubKeeper.Document.Canonical
import HubKeeper.Proofs.Settings.Coercion
import HubKeeper.Proofs.Toml.Headers
import HubKeeper.Proofs.Toml.Statements

/-!
The document that is generated for a schema.

It parses, and its settings are the constants that are written into it: no description
and no placeholder is taken for a setting, and every value reads as what it was.
-/

namespace HubKeeper

open Toml (IsBareKey isPlainChar linesChars QuietLine)

namespace SettingsDocument

variable {value : Value}

/-! ### Written values -/

theorem length_le_itemsChars (first : Bool) (items : List String) :
    items.length ≤ (Toml.itemsChars first (items.map .ofText)).length := by
  induction items generalizing first with
  | nil => exact Nat.zero_le _
  | cons s items ih =>
      obtain ⟨quote, tail, text, _⟩ := Toml.textChars_head s.toList
      have further := ih false
      cases first <;>
        simp only [List.map_cons, Toml.itemsChars, Toml.valueChars_ofText, text] <;>
        simp <;> omega

theorem length_le_pairsChars (pairs : List (String × String)) :
    pairs.length ≤ (Toml.pairsChars pairs).length := by
  induction pairs with
  | nil => exact Nat.zero_le _
  | cons pair pairs ih =>
      cases pairs with
      | nil => simp [Toml.pairsChars]
      | cons next pairs =>
          simp only [Toml.pairsChars, List.length_append, List.length_cons] at ih ⊢
          omega

theorem readsLine_array (items : List String) :
    Toml.Statement.ReadsLine (Toml.valueChars ([], []) (.array (items.map .ofText) .default))
      (.arr (items.map .str)) := by
  have text : Toml.valueChars ([], []) (.array (items.map .ofText) .default) =
      '[' :: (Toml.itemsChars true (items.map .ofText) ++ [']']) := by
    simp [Toml.valueChars, Toml.ArrayLayout.default, Toml.Decor.default, Toml.Decor.beforeChars,
      Toml.Decor.afterChars, Toml.rawChars]
  have bound := length_le_itemsChars true items
  refine ⟨fun c head => ?_, by simp [text], fun tail => Toml.value?_texts 78 items ?_ _⟩
  · rw [text] at head
    cases head
    decide
  · simp only [text, List.length_append, List.length_cons]
    omega

theorem readsLine_inline (map : Dict String) :
    Toml.Statement.ReadsLine
      (Toml.valueChars ([], []) (.inline (map.entries.map fun (key, s) => (.plain key, .ofText s))
        .default))
      (.obj (map.entries.map fun pair => (pair.1, .str pair.2))) := by
  have text : Toml.valueChars ([], [])
      (.inline (map.entries.map fun (key, s) => (.plain key, .ofText s)) .default) =
        '\x7b' :: (Toml.pairsChars map.entries ++ ['\x7d']) := by
    simp [Toml.valueChars, Toml.InlineLayout.default, Toml.Decor.default, Toml.Decor.beforeChars,
      Toml.Decor.afterChars, Toml.rawChars, Toml.inlineChars_texts]
  have bound := length_le_pairsChars map.entries
  refine ⟨fun c head => ?_, by simp [text], fun tail => Toml.value?_textMap 78 map ?_ _⟩
  · rw [text] at head
    cases head
    decide
  · simp only [text, List.length_append, List.length_cons]
    omega

theorem valueChars_scalar (scalar : Toml.Scalar) :
    Toml.valueChars ([], []) (.scalar scalar none .default) = scalar.spellingChars := by
  simp [Toml.valueChars, Toml.Decor.default, Toml.Decor.beforeChars, Toml.Decor.afterChars]

theorem readsLine_of_bare {word : List Char} {json : Json} (bare : Toml.Bare word json) :
    Toml.Statement.ReadsLine word json := by
  refine ⟨fun c head => ?_, bare.nonempty, fun tail => ?_⟩
  · have member : c ∈ word := List.mem_of_mem_head? head
    have isBare := List.all_eq_true.mp bare.bare c member
    cases blank : Toml.isBlank c with
    | false => rfl
    | true =>
        simp only [Toml.isBlank, Bool.or_eq_true, beq_iff_eq] at blank
        rcases blank with rfl | rfl <;> cases isBare
  · exact Toml.value?_bare _ _ bare tail

theorem readsLine_nodeOf (fits : value.Fits) :
    Toml.Statement.ReadsLine (nodeOf value).text.toList value.toJson := by
  simp only [Toml.Node.text, String.toList_ofList]
  cases value with
  | text s =>
      obtain ⟨quote, spelled, text, isQuote⟩ := Toml.textChars_head s.toList
      rw [nodeOf, Toml.Node.ofText, valueChars_scalar, Toml.Scalar.spellingChars]
      refine ⟨fun c head => ?_, by simp [text], fun tail => ?_⟩
      · rw [text] at head
        cases head
        rcases isQuote with rfl | rfl <;> decide
      · exact Toml.value?_text _ _ (Toml.unquoted_of_head (by decide) (by decide)) s
  | integer n =>
      exact valueChars_scalar (.integer n) ▸ readsLine_of_bare (Toml.bare_intChars (fits n rfl))
  | float x => exact valueChars_scalar (.float x) ▸ readsLine_of_bare (Toml.bare_floatChars x)
  | boolean b => exact valueChars_scalar (.boolean b) ▸ readsLine_of_bare (Toml.bare_boolean b)
  | textSet set => exact readsLine_array set.items
  | textList items => exact readsLine_array items
  | textMap map => exact readsLine_inline map

/-! ### Lines of the document -/

theorem toList_lines (lines : List String) (nonempty : lines ≠ []) :
    ("\n".intercalate lines ++ "\n").toList = linesChars (lines.map String.toList) := by
  have line : "\n".toList = ['\n'] := rfl
  induction lines with
  | nil => exact absurd rfl nonempty
  | cons first rest ih =>
      cases rest with
      | nil => simp [linesChars, line]
      | cons second rest =>
          have further := ih (List.cons_ne_nil second rest)
          rw [String.toList_append, line] at further
          simp only [String.intercalate_cons_cons, String.toList_append, line, List.append_assoc,
            further]
          simp [linesChars]

/-- A declaration that a document can be generated for. -/
structure Documentable (setting : Setting) : Prop where
  name : IsBareKey setting.name
  kind : ∀ value, setting.rule = .constant value → value.kind = setting.kind
  fits : ∀ value, setting.rule = .constant value → value.Fits
  description : ∀ c ∈ setting.description.toList, c = '\n' ∨ isPlainChar c = true

def written (settings : List Setting) : List (String × Json) :=
  settings.filterMap fun setting =>
    (writtenConstant? setting).map fun value => (setting.name, value.toJson)

variable {setting : Setting}

def IsPlain (s : String) : Prop :=
  s.toList.all isPlainChar = true

theorem IsPlain.append {s t : String} (first : IsPlain s) (second : IsPlain t) : IsPlain (s ++ t) := by
  rw [IsPlain, String.toList_append, List.all_append, Bool.and_eq_true]
  exact ⟨first, second⟩

theorem IsPlain.quietLine {s : String} (plain : IsPlain s) : QuietLine ("# " ++ s).toList := by
  refine .inr ⟨' ' :: s.toList, by simp, ?_⟩
  rw [List.forall_mem_cons]
  exact ⟨by decide, List.all_eq_true.mp plain⟩

theorem isPlain_title (kind : Kind) : IsPlain kind.title := by
  cases kind <;> exact rfl

theorem isPlainChar_of_isBareKeyChar {c : Char} (bare : Toml.isBareKeyChar c = true) :
    isPlainChar c = true := by
  simp only [Toml.isBareKeyChar, Char.isAlphanum, Char.isAlpha, Char.isUpper, Char.isLower,
    Char.isDigit, Bool.or_eq_true, Bool.and_eq_true, decide_eq_true_eq, beq_iff_eq] at bare
  have range : 0x20 ≤ c.toNat ∧ c.toNat ≤ 0x7e := by
    rcases bare with (((⟨low, high⟩ | ⟨low, high⟩) | ⟨low, high⟩) | rfl) | rfl
    · exact ⟨Nat.le_trans (by decide) low, Nat.le_trans high (by decide)⟩
    · exact ⟨Nat.le_trans (by decide) low, Nat.le_trans high (by decide)⟩
    · exact ⟨Nat.le_trans (by decide) low, Nat.le_trans high (by decide)⟩
    · decide
    · decide
  simp [isPlainChar, range]

/-- A declaration whose lines read as they are meant: comments as such, and a constant as the
value of the name. -/
structure Legible (setting : Setting) : Prop where
  name : IsBareKey setting.name
  fits : ∀ value, setting.rule = .constant value → value.Fits
  description : ∀ line ∈ descriptionLines setting, IsPlain line

theorem isPlain_of_isBareKey {name : String} (bare : IsBareKey name) : IsPlain name :=
  List.all_eq_true.mpr fun c member =>
    isPlainChar_of_isBareKeyChar (List.all_eq_true.mp bare.2 c member)

theorem Documentable.legible (documentable : Documentable setting) : Legible setting := by
  refine ⟨documentable.name, documentable.fits, fun line member => ?_⟩
  refine List.all_eq_true.mpr fun c inside => ?_
  obtain ⟨raw, isLine, rfl⟩ := List.mem_map.mp (List.mem_filter.mp member).1
  rw [Text.trim, String.toList_ofList, String.toList_ofList] at inside
  obtain ⟨inDescription, notLine⟩ := Text.mem_of_mem_lines isLine (Text.mem_of_mem_trimChars inside)
  exact (documentable.description c inDescription).resolve_left notLine

def commentLines (setting : Setting) : List String :=
  let required := if setting.isRequired then ", required" else ""
  "" :: (descriptionLines setting).map ("# " ++ ·) ++
    ["# (" ++ setting.kind.title ++ required ++ ")"]

theorem quietLine_commentLines (plain : ∀ line ∈ descriptionLines setting, IsPlain line) :
    ∀ line ∈ (commentLines setting).map String.toList, QuietLine line := by
  have kind : IsPlain ("(" ++ (setting.kind.title ++ ((if setting.isRequired then ", required" else "") ++ ")"))) := by
    refine .append rfl (.append (isPlain_title _) (.append ?_ rfl))
    split <;> exact rfl
  have joined : "# (" = "# " ++ "(" := rfl
  simp only [commentLines, List.map_append, List.map_cons, List.map_nil, List.cons_append,
    List.forall_mem_cons, List.forall_mem_append, List.map_map, joined, String.append_assoc]
  refine ⟨.inl rfl, ?_, kind.quietLine, by simp⟩
  intro line member
  obtain ⟨text, isLine, rfl⟩ := List.mem_map.mp member
  exact (plain text isLine).quietLine

/-- What the lines of a setting read as: a statement if its constant is written, else
nothing. -/
theorem linesChars_settingLines (legible : Legible setting) :
    ∃ comments, (∀ line ∈ comments, QuietLine line) ∧
      linesChars ((settingLines setting).map String.toList) =
        linesChars comments ++
          match writtenConstant? setting with
          | some value => Toml.Statement.pairChars setting.name (nodeOf value).text.toList
          | none => [] := by
  have quiet := quietLine_commentLines legible.description
  have split : settingLines setting = commentLines setting ++
      [match writtenConstant? setting with
        | some value => setting.name ++ " = " ++ (nodeOf value).text
        | none => "# " ++ setting.name ++ " = <" ++ setting.kind.title ++ ">"] :=
    (List.append_assoc _ [_] [_]).symm
  cases constant : writtenConstant? setting with
  | some value =>
      refine ⟨_, quiet, ?_⟩
      rw [split, constant]
      have equals : " = ".toList = [' ', '=', ' '] := rfl
      simp [linesChars, Toml.Statement.pairChars, equals]
  | none =>
      have placeholder : QuietLine ("# " ++ (setting.name ++ (" = <" ++
          (setting.kind.title ++ ">")))).toList :=
        ((isPlain_of_isBareKey legible.name).append ((show IsPlain " = <" from rfl).append
          ((isPlain_title _).append (show IsPlain ">" from rfl)))).quietLine
      refine ⟨(commentLines setting).map String.toList ++ [("# " ++ (setting.name ++ (" = <" ++
          (setting.kind.title ++ ">")))).toList], ?_, ?_⟩
      · rw [List.forall_mem_append]
        exact ⟨quiet, by simpa using placeholder⟩
      · rw [split, constant]
        simp [String.append_assoc]

/-! ### The whole document -/

theorem rule_of_writtenConstant (constant : writtenConstant? setting = some value) :
    setting.rule = .constant value := by
  unfold writtenConstant? at constant
  split at constant
  · split at constant
    · cases constant
    · cases constant
      assumption
  · cases constant

theorem linesChars_settings_cons (setting : Setting) (settings : List Setting) :
    linesChars (((setting :: settings).flatMap settingLines).map String.toList) =
      linesChars ((settingLines setting).map String.toList) ++
        linesChars ((settings.flatMap settingLines).map String.toList) := by
  simp

/-- The statements of the settings, after lines that hold none. -/
theorem readAll?_settings {fuel : Nat} {settings : List Setting} {lines : List (List Char)}
    (legible : ∀ setting ∈ settings, Legible setting)
    (quiet : ∀ line ∈ lines, QuietLine line) (enough : settings.length < fuel) :
    ∃ statements trailing,
      Toml.Statement.readAll? fuel (linesChars lines ++
        linesChars ((settings.flatMap settingLines).map String.toList)) =
          some (statements, trailing) ∧
      List.Forall₂ Toml.Statement.Gives statements (written settings) := by
  induction settings generalizing fuel lines with
  | nil =>
      obtain ⟨fuel, rfl⟩ := Nat.exists_eq_add_one_of_ne_zero (Nat.ne_zero_of_lt enough)
      refine ⟨[], linesChars lines, ?_, .nil⟩
      simpa [linesChars] using Toml.Statement.readAll?_quiet quiet fuel
  | cons setting settings ih =>
      obtain ⟨fuel, rfl⟩ := Nat.exists_eq_add_one_of_ne_zero (Nat.ne_zero_of_lt enough)
      have others := fun other member => legible other (List.mem_cons_of_mem _ member)
      obtain ⟨comments, quietComments, text⟩ :=
        linesChars_settingLines (legible setting List.mem_cons_self)
      have allQuiet : ∀ line ∈ lines ++ comments, QuietLine line :=
        List.forall_mem_append.mpr ⟨quiet, quietComments⟩
      rw [linesChars_settings_cons, text]
      -- A setting without a line of its own only adds comments to the lines before the next one.
      cases constant : writtenConstant? setting with
      | none =>
          obtain ⟨statements, trailing, read, given⟩ := ih others allQuiet
            (show settings.length < fuel + 1 by simp at enough; omega)
          refine ⟨statements, trailing, ?_, by simpa [written, constant] using given⟩
          simpa using read
      | some value =>
          have fits := (legible setting List.mem_cons_self).fits value
            (rule_of_writtenConstant constant)
          obtain ⟨statement, gives, readPair⟩ := Toml.Statement.read?_pair
            (linesChars (lines ++ comments)) (legible setting List.mem_cons_self).name
            (readsLine_nodeOf fits) (linesChars ((settings.flatMap settingLines).map String.toList))
          obtain ⟨statements, trailing, read, given⟩ := ih others (List.forall_mem_nil _)
            (show settings.length < fuel by simp at enough; omega)
          obtain ⟨c, text, spelled, solid, _⟩ :=
            Toml.Statement.isBareKey_head (legible setting List.mem_cons_self).name
          refine ⟨statement :: statements, trailing, ?_, ?_⟩
          · simp only [Toml.Statement.pairChars, spelled, List.cons_append] at readPair ⊢
            have first := Toml.Statement.readAll?_statement allQuiet fuel solid readPair
            rw [show linesChars [] = [] from rfl, List.nil_append] at read
            rw [read] at first
            simpa using first
          · have entries : written (setting :: settings) =
                (setting.name, value.toJson) :: written settings := by
              simp [written, constant]
            rw [entries]
            exact .cons gives given

theorem length_le_settingLines (settings : List Setting) :
    settings.length ≤ (linesChars ((settings.flatMap settingLines).map String.toList)).length := by
  induction settings with
  | nil => exact Nat.zero_le _
  | cons setting settings ih =>
      simp only [List.flatMap_cons, List.map_append, linesChars, List.flatMap_append,
        List.length_append, List.length_cons] at ih ⊢
      have some : 1 ≤ (((settingLines setting).map String.toList).flatMap (· ++ ['\n'])).length := by
        simp [settingLines]
      omega

theorem linesChars_introduction :
    linesChars (introduction.map String.toList) =
      linesChars ((introduction.take 5).map String.toList) ++
        (Toml.Statement.pairChars "version" (nodeOf (.text "1.0")).text.toList ++
          (linesChars [[]] ++ '[' :: (hubName.toList ++ [']', '\n']))) := by
  have version : (nodeOf (.text "1.0")).text.toList = Toml.textChars "1.0".toList := by
    rw [Toml.Node.text, String.toList_ofList, nodeOf, Toml.valueChars_ofText]
    simp
  rw [version]
  decide +kernel

theorem quietLine_introduction :
    ∀ line ∈ (introduction.take 5).map String.toList, QuietLine line := by
  simp only [introduction, List.take_succ_cons, List.take_zero, List.map_cons, List.map_nil,
    List.forall_mem_cons]
  refine ⟨?_, ?_, ?_, ?_, .inl rfl, by simp⟩
  all_goals exact Toml.quietLine_of_plain rfl rfl

/-- The introduction reads as a version and the header of the settings. -/
theorem readAll?_introduction (fuel : Nat) (rest : List Char) :
    ∃ version, ∃ key : Toml.Key, ∃ decor,
      Toml.Statement.Gives version ("version", .str "1.0") ∧ key.name = hubName ∧
      Toml.Statement.readAll? (fuel + 2) (linesChars (introduction.map String.toList) ++ rest) =
        (Toml.Statement.readAll? fuel rest).map fun (statements, trailing) =>
          (version :: .header [] key decor :: statements, trailing) := by
  have fits : Value.Fits (.text "1.0") := nofun
  obtain ⟨version, gives, readVersion⟩ := Toml.Statement.read?_pair
    (linesChars ((introduction.take 5).map String.toList)) (show IsBareKey "version" by decide)
    (readsLine_nodeOf fits) (linesChars [[]] ++ '[' :: (hubName.toList ++ ']' :: '\n' :: rest))
  obtain ⟨key, named, readHub⟩ := Toml.Statement.read?_header (linesChars [[]])
    (show IsBareKey hubName by decide) rest
  refine ⟨version, key, ⟨some (linesChars [[]]), some []⟩, gives, named, ?_⟩
  have second := Toml.Statement.readAll?_statement
    (show ∀ line ∈ [[]], QuietLine line by simp [QuietLine]) fuel (c := '[') (by decide) readHub
  have first := Toml.Statement.readAll?_statement quietLine_introduction (fuel + 1) (c := 'v') (by decide)
    readVersion
  have whole : linesChars (introduction.map String.toList) ++ rest =
      linesChars ((introduction.take 5).map String.toList) ++
        (Toml.Statement.pairChars "version" (nodeOf (.text "1.0")).text.toList ++
          (linesChars [[]] ++ '[' :: (hubName.toList ++ ']' :: '\n' :: rest))) := by
    rw [linesChars_introduction]
    simp only [List.append_assoc, List.cons_append, List.nil_append]
  rw [whole]
  refine first.trans ?_
  rw [second, Option.map_map]
  rfl

/-- The generated text parses as far as the lines of its settings do. -/
theorem parse?_canonicalText (schema : Schema) :
    ∃ version, ∃ key : Toml.Key, ∃ decor fuel,
      Toml.Statement.Gives version ("version", .str "1.0") ∧ key.name = hubName ∧
      schema.settings.length < fuel ∧
      Toml.Document.parse? (canonicalText schema) = do
        let (statements, trailing) ← Toml.Statement.readAll? fuel
          (linesChars ((schema.settings.flatMap settingLines).map String.toList))
        let last ← (version :: .header [] key decor :: statements).foldlM Toml.Assembly.step .start
        return ⟨← last.close, trailing⟩ := by
  have text : (canonicalText schema).toList = linesChars (introduction.map String.toList) ++
      linesChars ((schema.settings.flatMap settingLines).map String.toList) := by
    have lines := toList_lines (introduction ++ schema.settings.flatMap settingLines)
      (by simp [introduction])
    rw [canonicalText, lines, List.map_append, Toml.linesChars_append]
  have noMark : (Text.dropLead ['\ufeff'] (canonicalText schema).toList).getD
      (canonicalText schema).toList = (canonicalText schema).toList := by
    rw [text, linesChars_introduction]
    rfl
  obtain ⟨fuel, enough, fuels⟩ : ∃ fuel, schema.settings.length < fuel ∧
      (canonicalText schema).toList.length + 1 = fuel + 2 := by
    have bound := length_le_settingLines schema.settings
    have some := Toml.length_le_linesChars (introduction.map String.toList)
    rw [List.length_map, show introduction.length = 8 from rfl] at some
    refine ⟨(canonicalText schema).toList.length - 1, ?_, ?_⟩ <;>
      (rw [text, List.length_append]; omega)
  obtain ⟨version, key, decor, gives, named, opened⟩ := readAll?_introduction fuel
    (linesChars ((schema.settings.flatMap settingLines).map String.toList))
  refine ⟨version, key, decor, fuel, gives, named, enough, ?_⟩
  simp only [Toml.Document.parse?]
  rw [noMark, fuels, text, opened]
  cases Toml.Statement.readAll? fuel
      (linesChars ((schema.settings.flatMap settingLines).map String.toList)) with
  | none => rfl
  | some read => rfl

/-- Whatever its settings are called, a generated document that parses has a table for
them. -/
theorem hasHeader_canonical {schema : Schema} {document : SettingsDocument}
    (generated : canonical schema = .ok document) : document.root.HasHeader hubName := by
  obtain ⟨version, key, decor, fuel, _, named, _, parsed⟩ := parse?_canonicalText schema
  rw [canonical, parsed] at generated
  split at generated
  · rename_i made
    cases generated
    obtain ⟨⟨statements, trailing⟩, _, made⟩ := Option.bind_eq_some_iff.mp made
    obtain ⟨last, folded, made⟩ := Option.bind_eq_some_iff.mp made
    obtain ⟨root, closed, made⟩ := Option.bind_eq_some_iff.mp made
    cases made
    rw [List.foldlM_cons] at folded
    obtain ⟨begun, _, folded⟩ := Option.bind_eq_some_iff.mp folded
    rw [List.foldlM_cons] at folded
    obtain ⟨opened, stepped, folded⟩ := Option.bind_eq_some_iff.mp folded
    exact named ▸ ((Toml.Assembly.heads_header stepped).foldlM folded).close closed
  · cases generated

theorem distinct_written {settings : List Setting} (distinct : (settings.map (·.name)).Nodup) :
    ((written settings).map (·.1)).Nodup := by
  refine distinct.sublist ?_
  induction settings with
  | nil => exact .slnil
  | cons setting settings ih =>
      have further := ih (List.nodup_cons.mp distinct).2
      cases constant : writtenConstant? setting with
      | none => simpa [written, constant] using further.cons setting.name
      | some value => simpa [written, constant] using further

/-- The document that is generated for declarations with names of their own parses, and
its settings are the constants that are written into it. -/
theorem canonical_of_legible (schema : Schema)
    (legible : ∀ setting ∈ schema.settings, Legible setting)
    (distinct : schema.names.Nodup) :
    ∃ document, canonical schema = .ok document ∧
      document.entries = .ofList (written schema.settings) := by
  obtain ⟨version, key, decor, fuel, versionGives, named, enough, parsed⟩ :=
    parse?_canonicalText schema
  obtain ⟨statements, trailing, read, given⟩ := readAll?_settings legible
    (List.forall_mem_nil _) enough
  rw [show linesChars [] = [] from rfl, List.nil_append] at read
  obtain ⟨last, root, more, layout, folded, closed, found, entries⟩ :=
    Toml.Assembly.close_table decor versionGives (by rw [named]; decide) given
      (distinct_written distinct)
  refine ⟨⟨root, trailing⟩, ?_, ?_⟩
  · rw [canonical, parsed, read]
    simp only [Option.bind_eq_bind, Option.bind_some, folded, closed]
    rfl
  · rw [SettingsDocument.entries, hub?, ← named, found]
    exact congrArg Dict.ofList entries

theorem canonical_spec (schema : Schema)
    (documentable : ∀ setting ∈ schema.settings, Documentable setting)
    (distinct : schema.names.Nodup) :
    ∃ document, canonical schema = .ok document ∧
      document.entries = .ofList (written schema.settings) :=
  canonical_of_legible schema (fun setting member => (documentable setting member).legible) distinct

end SettingsDocument

end HubKeeper
