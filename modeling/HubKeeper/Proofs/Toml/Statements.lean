import HubKeeper.Proofs.Toml.Entries
import HubKeeper.Proofs.Toml.Values
import HubKeeper.Toml.Assembly

/-!
Statements read back line by line, and the documents that they make.

Lines that are empty or hold a comment belong to what stands before the next statement.
Pairs after a header are entries of the table that it opens, in the order written.
-/

namespace HubKeeper.Toml

variable {rest tail : List Char}

/-! ### Lines -/

/-- Lines, each with its line end. -/
def linesChars (lines : List (List Char)) : List Char :=
  lines.flatMap (· ++ ['\n'])

def QuietLine (line : List Char) : Prop :=
  line = [] ∨ ∃ body, line = '#' :: body ∧ ∀ c ∈ body, isPlainChar c = true

theorem length_le_linesChars (lines : List (List Char)) :
    lines.length ≤ (linesChars lines).length := by
  induction lines with
  | nil => exact Nat.zero_le _
  | cons line lines ih =>
      simp only [linesChars, List.flatMap_cons, List.length_append, List.length_cons] at ih ⊢
      omega

theorem quietLine_of_plain {line : List Char} (comment : line.head? = some '#')
    (plain : line.all isPlainChar = true) : QuietLine line := by
  cases line with
  | nil => exact .inl rfl
  | cons c body =>
      cases comment
      exact .inr ⟨body, rfl, fun d member =>
        List.all_eq_true.mp plain d (List.mem_cons_of_mem _ member)⟩

theorem splitTrivia_comment {body : List Char} (plain : ∀ c ∈ body, isPlainChar c = true)
    (rest : List Char) :
    splitTrivia (body ++ '\n' :: rest) true =
      (body ++ '\n' :: (splitTrivia rest false).1, (splitTrivia rest false).2) := by
  induction body with
  | nil => rw [List.nil_append, splitTrivia]; rfl
  | cons c body ih =>
      have here := plain c List.mem_cons_self
      have notLine : c ≠ '\n' ∧ c ≠ '\r' := by
        constructor <;> (rintro rfl; cases here)
      rw [List.cons_append, splitTrivia.eq_4 _ _ _ (by simpa using notLine.1)
        (by simp [notLine.2])]
      simp [here, ih fun d member => plain d (List.mem_cons_of_mem _ member)]

@[simp]
theorem linesChars_cons (line : List Char) (lines : List (List Char)) :
    linesChars (line :: lines) = line ++ '\n' :: linesChars lines := by
  simp [linesChars]

@[simp]
theorem linesChars_append (lines others : List (List Char)) :
    linesChars (lines ++ others) = linesChars lines ++ linesChars others := by
  simp [linesChars]

theorem splitTrivia_lines {lines : List (List Char)} (quiet : ∀ line ∈ lines, QuietLine line)
    (rest : List Char) :
    splitTrivia (linesChars lines ++ rest) false =
      (linesChars lines ++ (splitTrivia rest false).1, (splitTrivia rest false).2) := by
  induction lines with
  | nil => rfl
  | cons line lines ih =>
      have further := ih fun other member => quiet other (List.mem_cons_of_mem _ member)
      rw [linesChars_cons, List.append_assoc, List.cons_append]
      rcases quiet line List.mem_cons_self with rfl | ⟨body, rfl, plain⟩
      · rw [List.nil_append, splitTrivia, further]
        rfl
      · have comment := splitTrivia_comment plain (linesChars lines ++ rest)
        rw [List.cons_append, splitTrivia.eq_4 _ _ _ (by simp) (by simp), comment, further]
        simp [show isBlank '#' = false by decide]

theorem restOfLine?_line (tail : List Char) : restOfLine? ('\n' :: tail) = some ([], tail) := rfl

/-! ### Statements -/

/-- A name that is written as it stands. -/
def IsBareKey (name : String) : Prop :=
  name ≠ "" ∧ name.toList.all isBareKeyChar = true

instance (name : String) : Decidable (IsBareKey name) :=
  inferInstanceAs (Decidable (_ ∧ _))

namespace Statement

variable {lines : List (List Char)} (quiet : ∀ line ∈ lines, QuietLine line)

include quiet

theorem readAll?_quiet (fuel : Nat) :
    readAll? (fuel + 1) (linesChars lines) = some ([], linesChars lines) := by
  have trivia := splitTrivia_lines quiet []
  rw [List.append_nil, splitTrivia, List.append_nil] at trivia
  simp only [readAll?, trivia, if_true]

theorem readAll?_statement {c : Char} {text : List Char} {statement : Statement} (fuel : Nat)
    (solid : isSolid c = true)
    (read : read? (linesChars lines) (c :: text) = some (statement, tail)) :
    readAll? (fuel + 1) (linesChars lines ++ c :: text) =
      (readAll? fuel tail).map fun (statements, trailing) => (statement :: statements, trailing) := by
  have trivia := splitTrivia_lines quiet (c :: text)
  rw [splitTrivia_solid solid, List.append_nil] at trivia
  simp only [readAll?, trivia, read]
  rfl

omit quiet

theorem keyChars_of_isBareKey {name : String} (bare : IsBareKey name) :
    keyChars name.toList = name.toList := by
  have nonempty : name.toList ≠ [] := by simpa using bare.1
  simp [keyChars, nonempty, bare.2]

theorem isBareKey_head {name : String} (bare : IsBareKey name) :
    ∃ c text, name.toList = c :: text ∧ isSolid c = true ∧ c ≠ '[' := by
  have nonempty : name.toList ≠ [] := by simpa using bare.1
  obtain ⟨c, text, spelled⟩ := List.exists_cons_of_ne_nil nonempty
  refine ⟨c, text, spelled, ?_⟩
  have isBare : isBareKeyChar c = true := List.all_eq_true.mp bare.2 c (spelled ▸ List.mem_cons_self)
  obtain ⟨notBlank, _⟩ := isBareKeyChar_cases isBare
  have others : c ≠ '\n' ∧ c ≠ '\r' ∧ c ≠ '#' ∧ c ≠ '[' := by
    refine ⟨?_, ?_, ?_, ?_⟩ <;> (rintro rfl; cases isBare)
  simp [isSolid, notBlank, others]

def pairChars (name : String) (value : List Char) : List Char :=
  name.toList ++ ' ' :: '=' :: ' ' :: (value ++ ['\n'])

/-- A value that is read whole up to the end of its line. -/
def ReadsLine (value : List Char) (json : Json) : Prop :=
  (∀ c, value.head? = some c → isBlank c = false) ∧ value ≠ [] ∧
    ∀ tail, ∃ node, readValue? (value ++ '\n' :: tail) = some (node, '\n' :: tail) ∧
      node.toJson = json

/-- A statement that gives a name a value. -/
def Gives (statement : Statement) (entry : String × Json) : Prop :=
  ∃ key node, statement = .pair [] key node ∧ key.name = entry.1 ∧ node.toJson = entry.2

theorem read?_pair {name : String} {value : List Char} {json : Json} (lead : Raw)
    (bare : IsBareKey name) (reads : ReadsLine value json) (tail : List Char) :
    ∃ statement : Statement, statement.Gives (name, json) ∧
      read? lead (pairChars name value ++ tail) = some (statement, tail) := by
  obtain ⟨c, text, spelled, _, notOpen⟩ := isBareKey_head bare
  obtain ⟨notBlank, nonempty, read⟩ := reads
  obtain ⟨node, readValue, json⟩ := read tail
  obtain ⟨key, named, readKey⟩ := dottedKey?_keyChars lead
    (' ' :: (value ++ '\n' :: tail)) blank_nil blank_space (by simp [KeyEnd]; decide)
    (show isBlank '=' = false by decide) (by decide) name
  have start := splitBlanks_append blank_space (value ++ '\n' :: tail)
    (by rwa [List.head?_append_of_ne_nil _ nonempty])
  have written : pairChars name value ++ tail =
      [] ++ (keyChars name.toList ++ ([' '] ++ '=' :: (' ' :: (value ++ '\n' :: tail)))) := by
    simp [pairChars, keyChars_of_isBareKey bare]
  have asPair : read? lead (pairChars name value ++ tail) =
      pair? lead (pairChars name value ++ tail) := by
    rw [pairChars, spelled]
    unfold read?
    split
    · rename_i same; injection same with first; exact absurd first notOpen
    · rename_i same; injection same with first; exact absurd first notOpen
    · rfl
  rw [List.singleton_append] at start
  refine ⟨.pair [] key (node.withDecor ⟨some [' '], some []⟩),
    ⟨key, _, rfl, named, by simpa using json⟩, ?_⟩
  rw [asPair, written]
  simp only [pair?, readKey, start, readValue, restOfLine?_line, Option.map_some]

theorem read?_header {name : String} (lead : Raw) (bare : IsBareKey name) (tail : List Char) :
    ∃ key : Key, key.name = name ∧
      read? lead ('[' :: (name.toList ++ ']' :: '\n' :: tail)) =
        some (.header [] key ⟨some lead, some []⟩, tail) := by
  obtain ⟨c, text, spelled, _, notOpen⟩ := isBareKey_head bare
  obtain ⟨key, named, readKey⟩ := dottedKey?_keyChars [] ('\n' :: tail) blank_nil blank_nil
    (by simp [KeyEnd]; decide) (show isBlank ']' = false by decide) (by decide) name
  rw [keyChars_of_isBareKey bare, List.nil_append, List.nil_append] at readKey
  have asHeader : read? lead ('[' :: (name.toList ++ ']' :: '\n' :: tail)) =
      header? lead (name.toList ++ ']' :: '\n' :: tail) := by
    rw [spelled]
    unfold read?
    split
    · rename_i same
      injection same with _ same
      injection same with first
      exact absurd first notOpen
    · rename_i same; injection same with _ same; rw [same]
    · rename_i noHeader; exact (noHeader _ rfl).elim
  refine ⟨key, named, ?_⟩
  rw [asHeader]
  simp only [header?, readKey, restOfLine?_line, Option.map_some]

end Statement

/-! ### Assembly -/

namespace Assembly

theorem foldlM_step {statements : List Statement} {written : List (String × Json)}
    (given : List.Forall₂ Statement.Gives statements written) (a : Assembly)
    (distinct : (a.entries.names ++ written.map (·.1)).Nodup) :
    ∃ more : Entries,
      statements.foldlM step a = some { a with entries := a.entries ++ more } ∧
        more.map (fun entry => (entry.1.name, entry.2.toJson)) = written := by
  induction given generalizing a with
  | nil => exact ⟨[], by simp, rfl⟩
  | @cons statement entry statements written first given ih =>
      obtain ⟨key, node, rfl, named, json⟩ := first
      have absent : a.entries.find? key.name = none := by
        refine find?_eq_none fun member => ?_
        rw [List.map_cons, List.nodup_append] at distinct
        exact distinct.2.2 _ member _ List.mem_cons_self named
      have placed : a.step (.pair [] key node) =
          some { a with entries := a.entries ++ [(key, node)] } := by
        simp [step, placePair, within, absent]
      obtain ⟨more, further, others⟩ := ih { a with entries := a.entries ++ [(key, node)] }
        (by simpa [Entries.names, named] using distinct)
      refine ⟨(key, node) :: more, ?_, by simp [named, json, others]⟩
      rw [List.foldlM_cons, placed, Option.bind_eq_bind, Option.bind_some, further]
      simp

theorem find?_erase_append {entries : Entries} {key : Key} (node : Node) :
    (entries.erase key.name ++ [(key, node)]).find? key.name = some node := by
  rw [Entries.find?_append_single, Entries.find?_erase, if_pos rfl, if_pos rfl, Option.none_or]

/-- A pair, a header and pairs behind it make a root with a table. -/
theorem close_table {first : Statement} {entry : String × Json} {key : Key}
    {statements : List Statement} {written : List (String × Json)} (decor : Decor)
    (gives : first.Gives entry) (different : entry.1 ≠ key.name)
    (given : List.Forall₂ Statement.Gives statements written)
    (distinct : (written.map (·.1)).Nodup) :
    ∃ last root more layout,
      (first :: .header [] key decor :: statements).foldlM step start = some last ∧
      last.close = some root ∧ root.find? key.name = some (.table more layout) ∧
      more.map (fun entry => (entry.1.name, entry.2.toJson)) = written := by
  obtain ⟨firstKey, node, rfl, named, _⟩ := gives
  let placed : Entries := [(firstKey, node)]
  let opened : Assembly := ⟨placed, .table [] key, [], ⟨false, false, some 1, decor⟩, 1⟩
  have begun : [.pair [] firstKey node, .header [] key decor].foldlM step start = some opened := by
    have absent : placed.find? key.name = none :=
      find?_eq_none (by simpa [placed, Entries.names, named] using different.symm)
    have none : Entries.find? [] firstKey.name = none := rfl
    simp only [List.foldlM_cons, List.foldlM_nil, step, start, placePair, within, none, close]
    simp [takenOver, placed, absent, opened]
  obtain ⟨more, folded, entries⟩ := foldlM_step given opened
    (by simpa [opened, Entries.names] using distinct)
  have whole : (.pair [] firstKey node :: .header [] key decor :: statements).foldlM step start =
      some { opened with entries := more } := by
    rw [show Statement.pair [] firstKey node :: .header [] key decor :: statements =
      [.pair [] firstKey node, .header [] key decor] ++ statements from rfl, List.foldlM_append,
      begun, Option.bind_eq_bind, Option.bind_some, folded]
    rfl
  exact ⟨_, placed.erase key.name ++ [(key, .table more opened.layout)], more, opened.layout, whole,
    by simp [close, opened, within, placed], find?_erase_append _, entries⟩

end Assembly

/-- A text that starts with comments parses as far as what comes after them does. -/
theorem Document.parse?_quiet {lines : List (List Char)} {c : Char} {text : List Char}
    (quiet : ∀ line ∈ lines, QuietLine line) (solid : isSolid c = true)
    (unmarked : (linesChars lines).head? = some '#') :
    parse? (.ofList (linesChars lines ++ c :: text)) = do
      let (statement, rest) ← Statement.read? (linesChars lines) (c :: text)
      let (statements, trailing) ← Statement.readAll? (linesChars lines ++ c :: text).length rest
      let last ← (statement :: statements).foldlM Assembly.step .start
      return ⟨← last.close, trailing⟩ := by
  obtain ⟨rest, opening⟩ := List.head?_eq_some_iff.mp unmarked
  have noMark : Text.dropLead ['\ufeff'] (linesChars lines ++ c :: text) = none := by
    rw [opening]
    rfl
  have trivia := splitTrivia_lines quiet (c :: text)
  rw [splitTrivia_solid solid, List.append_nil] at trivia
  simp only [parse?, String.toList_ofList, noMark, Option.getD_none, Statement.readAll?, trivia]
  cases Statement.read? (linesChars lines) (c :: text) with
  | none => rfl
  | some first =>
      simp only [List.cons_ne_nil, if_false, Option.bind_eq_bind, Option.bind_some]
      cases Statement.readAll? (linesChars lines ++ c :: text).length first.2 <;> rfl

end HubKeeper.Toml
