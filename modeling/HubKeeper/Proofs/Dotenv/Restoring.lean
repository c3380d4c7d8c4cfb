import HubKeeper.Proofs.Collections.Lookup
import HubKeeper.Proofs.Dotenv.Scanning
import HubKeeper.Proofs.Text.Basic
import HubKeeper.Settings.Validator
import HubKeeper.Stack.Environment

/-!
Which environments come back from their dotenv files.

An environment is restored exactly if each of its values is: a carriage return is
written with an escape that the reader refuses, and a value between single quotes
that ends in an odd number of backslashes does not end where it should.
-/

namespace HubKeeper

namespace Dotenv

/-- Whether a value comes back from the line that writes it. -/
def Restorable (value : List Char) : Prop :=
  '\r' ∉ value ∧ ('\'' ∈ value ∨ '\n' ∈ value ∨ endsEscaping value = false)

instance (value : List Char) : Decidable (Restorable value) :=
  inferInstanceAs (Decidable (_ ∧ _))

/-! ### Names -/

section Names

variable {key : List Char} (valid : isEnvKeyChars key = true)
include valid

theorem isNameChar_of_isEnvKeyChars : ∀ c ∈ key, isNameChar c = true := by
  cases key with
  | nil => cases valid
  | cons c rest =>
      simp only [isEnvKeyChars, Bool.and_eq_true, Bool.or_eq_true, beq_iff_eq, List.all_eq_true]
        at valid
      intro d member
      simp only [isNameChar, Bool.or_eq_true, beq_iff_eq]
      rcases List.mem_cons.mp member with rfl | inRest
      · refine .inl ?_
        rcases valid.1 with letter | underscore
        · exact .inl (by simp [Char.isAlphanum, letter])
        · exact .inr underscore
      · exact .inl (valid.2 d inRest)

theorem isBareChar_of_isEnvKeyChars : ∀ c ∈ key, isBareChar c = true := by
  intro c member
  have nameChar := isNameChar_of_isEnvKeyChars valid c member
  simp only [isNameChar, Bool.or_eq_true, beq_iff_eq] at nameChar
  simp only [isBareChar, Bool.or_eq_true, beq_iff_eq]
  grind

theorem readName_of_isEnvKeyChars (rest : List Char) :
    readName (key ++ '=' :: rest) = some (key, '=' :: rest) := by
  have chars := isNameChar_of_isEnvKeyChars valid
  cases key with
  | nil => cases valid
  | cons c cs =>
      have start : isNameStart c = true := by
        simp only [isEnvKeyChars, Bool.and_eq_true] at valid
        exact valid.1
      have notName : isNameChar '=' = false := by decide
      simp only [readName, List.cons_append, start, if_true]
      rw [← List.cons_append, List.takeWhile_append_of_pos chars, List.dropWhile_append_of_pos chars,
        List.takeWhile_cons_of_neg (by simp [notName]), List.dropWhile_cons_of_neg (by simp [notName]),
        List.append_nil]

end Names

/-! ### Lines -/

theorem readTarget_assignment {key text : List Char} (valid : isEnvKeyChars key = true)
    (first : StartsVisibly text) : readTarget (key ++ '=' :: text) = .ok (key, text) := by
  have equals : Text.trimStartChars ('=' :: text) = '=' :: text := rfl
  simp only [readTarget, readName_of_isEnvKeyChars valid, equals, List.head?_cons, bne_self_eq_false,
    Bool.and_false, Bool.false_eq_true, if_false, first.trimStartChars]

theorem startsVisibly_assignment {key : List Char} (valid : isEnvKeyChars key = true)
    (rest : List Char) : StartsVisibly (key ++ rest) := by
  refine (StartsVisibly.of_bare ?_ (isBareChar_of_isEnvKeyChars valid)).append rest
  rintro rfl
  cases valid

theorem readLine_of_trimmed {vars : Variables} {line key text : List Char}
    (valid : isEnvKeyChars key = true) (first : StartsVisibly text)
    (trimmed : Text.trimEndChars line = key ++ '=' :: text) :
    readLine vars line =
      (readValue vars text).map fun value => some (.ofList key, .ofList value) := by
  have body := startsVisibly_assignment valid ('=' :: text)
  simp only [readLine, trimmed, body.trimStartChars, readTarget_assignment valid first,
    Bool.or_eq_true, decide_eq_true_eq, body.ne_nil, body.head?_ne, first.ne_nil, first.head?_ne,
    or_self, if_false]

theorem getLast?_assignment {key value : List Char} {c : Char}
    (last : (key ++ '=' :: quoteChars value).getLast? = some c) : Text.isBlank c = false := by
  have visible := (quoted_quoteChars value).visible
  have filled := visible.first.ne_nil
  refine visible.last c ?_
  rw [List.getLast?_append, List.getLast?_cons_of_ne_nil filled,
    List.getLast?_eq_some_getLast filled] at last
  rw [List.getLast?_eq_some_getLast filled]
  exact last

/-- Whether the line of a value goes on after its line feed. -/
def leavesOpen (value : List Char) : Bool :=
  !value.contains '\'' && !value.contains '\n' && !value.contains '\r' && endsEscaping value

theorem quoteChars_of_leavesOpen {value : List Char} (opened : leavesOpen value = true) :
    '\'' ∉ value ∧ quoteChars value = '\'' :: (value ++ ['\'']) := by
  simp only [leavesOpen, Bool.and_eq_true, Bool.not_eq_true', List.contains_eq_mem,
    decide_eq_false_iff_not] at opened
  obtain ⟨⟨⟨quoteless, oneLine⟩, noReturn⟩, escaping⟩ := opened
  generalize written : quoteChars value = text
  have quoted : Quoted value text := written ▸ quoted_quoteChars value
  cases quoted with
  | bare filled plain =>
      have noBackslash : '\\' ∉ value := fun member => absurd (plain '\\' member) (by decide)
      rw [endsEscaping_of_not_mem noBackslash] at escaping
      cases escaping
  | single => exact ⟨quoteless, rfl⟩
  | double special => exact absurd special (by simp [quoteless, oneLine, noReturn])

section Assignments

variable {key value : List Char} (valid : isEnvKeyChars key = true)
include valid

theorem newline_not_mem_assignment : '\n' ∉ key ++ '=' :: quoteChars value := by
  simp only [List.mem_append, List.mem_cons, not_or]
  refine ⟨fun member => ?_, by decide, (quoted_quoteChars value).oneLine⟩
  exact absurd (isBareChar_of_isEnvKeyChars valid '\n' member) (by decide)

theorem scanLine_assignment :
    scanLine .complete (key ++ '=' :: quoteChars value ++ ['\n']) =
      .state (if leavesOpen value then .strong else .complete) := by
  have keyScan := scanLine_bare (isBareChar_of_isEnvKeyChars valid)
  have equalsScan : scanLine .complete ['='] = .state .complete := rfl
  have newlineScan : scanLine .complete ['\n'] = .state .complete := rfl
  rw [show key ++ '=' :: quoteChars value ++ ['\n'] = key ++ (['='] ++ (quoteChars value ++ ['\n']))
    by simp]
  refine scanLine_append_of_state keyScan (scanLine_append_of_state equalsScan ?_)
  generalize written : quoteChars value = text
  have quoted : Quoted value text := written ▸ quoted_quoteChars value
  cases quoted with
  | bare filled plain =>
      have closed : leavesOpen value = false := by
        have noBackslash : '\\' ∉ value := fun member => absurd (plain '\\' member) (by decide)
        simp [leavesOpen, endsEscaping_of_not_mem noBackslash]
      rw [closed]
      exact scanLine_append_of_state (scanLine_bare plain) newlineScan
  | single quoteless oneLine noReturn =>
      -- A backslash at the end takes the closing quote for a character of the value.
      have leaves : leavesOpen value = endsEscaping value := by
        simp [leavesOpen, quoteless, oneLine, noReturn]
      rw [leaves, List.cons_append, List.append_assoc]
      refine scanLine_cons_of_state (by decide) ?_
      refine scanLine_append_of_state (scanLine_strong quoteless) ?_
      cases endsEscaping value <;> rfl
  | double special =>
      have closed : leavesOpen value = false := by
        simp only [leavesOpen]
        rcases special with quote | newline | carriage
        · simp [quote]
        · simp [newline]
        · simp [carriage]
      rw [closed, List.cons_append, List.append_assoc]
      refine scanLine_cons_of_state (by decide) ?_
      exact scanLine_append_of_state (scanLine_escaped value) rfl

theorem logicalLines_of_closed (closed : leavesOpen value = false) (rest : List (List Char)) :
    logicalLines [] .complete ((key ++ '=' :: quoteChars value ++ ['\n']) :: rest) =
      .ok (key ++ '=' :: quoteChars value) :: logicalLines [] .complete rest := by
  have visible := startsVisibly_assignment valid ('=' :: quoteChars value)
  have line := visible.append ['\n']
  have scan : scanLine .complete (key ++ '=' :: quoteChars value ++ ['\n']) = _ :=
    scanLine_assignment valid
  have noReturn : (key ++ '=' :: quoteChars value).getLast? ≠ some '\r' := fun last =>
    absurd (getLast?_assignment last) (by decide)
  simp only [logicalLines, List.nil_append, line.trimStartChars, if_neg line.head?_ne, scan, closed,
    Bool.false_eq_true, if_false, dropLineEnd_append_newline noReturn]

theorem readLine_assignment (vars : Variables) :
    readLine vars (key ++ '=' :: quoteChars value) =
      (readValue vars (quoteChars value)).map fun text => some (.ofList key, .ofList text) :=
  readLine_of_trimmed valid (quoted_quoteChars value).visible.first
    (Text.dropEndWhile_of_getLast? fun _ last => getLast?_assignment last)

/-- A value whose line is left open is not read back: it takes in the line feed. -/
theorem readLines_of_leavesOpen (opened : leavesOpen value = true) (vars : Variables)
    (rest : List (List Char)) (others : List (String × String)) :
    readLines vars (logicalLines [] .complete
      ((key ++ '=' :: quoteChars value ++ ['\n']) :: rest)) ≠
        .ok ((.ofList key, .ofList value) :: others) := by
  obtain ⟨quoteless, quoted⟩ := quoteChars_of_leavesOpen opened
  have line := (startsVisibly_assignment valid ('=' :: quoteChars value)).append ['\n']
  have scan : scanLine .complete (key ++ '=' :: quoteChars value ++ ['\n']) = _ :=
    scanLine_assignment valid
  rw [opened] at scan
  have continued : logicalLines [] .complete
      ((key ++ '=' :: quoteChars value ++ ['\n']) :: rest) =
        logicalLines (key ++ '=' :: quoteChars value ++ ['\n'] ++ []) .strong rest := by
    simp only [logicalLines, List.nil_append, line.trimStartChars, if_neg line.head?_ne, scan,
      if_true, List.append_nil]
  rw [continued]
  have unfinished : ScanState.strong ≠ .complete := by decide
  -- The value is never closed, or by a quote on a later line, and then holds the line feed.
  rcases logicalLines_of_open line rest unfinished (.inl rfl) with
    ⟨e, later, unclosed⟩ | ⟨tail, later, joined, quoteInTail⟩
  · rw [unclosed]
    simp [readLines]
  · rw [joined]
    obtain ⟨dropped, whole, blank⟩ := Text.dropEndWhile_append_dropped Text.isBlank
      (key ++ '=' :: quoteChars value ++ ['\n'] ++ tail)
    have stays : '\'' ∉ dropped := fun member => absurd (blank '\'' member) (by decide)
    obtain ⟨kept, trimmed, _⟩ := append_of_kept whole quoteInTail stays
    have assignment : Text.trimEndChars (key ++ '=' :: quoteChars value ++ ['\n'] ++ tail) =
        key ++ '=' :: ('\'' :: (value ++ '\'' :: '\n' :: kept)) := by
      rw [Text.trimEndChars, trimmed, quoted]
      simp
    have first : StartsVisibly ('\'' :: (value ++ '\'' :: '\n' :: kept)) :=
      ⟨_, _, rfl, by decide, by decide⟩
    simp only [readLines, readLine_of_trimmed valid first assignment]
    cases read : readValue vars ('\'' :: (value ++ '\'' :: '\n' :: kept)) with
    | error e => simp [Except.map]
    | ok text =>
        have different := readValue_overrun quoteless read
        intro same
        cases restEq : readLines { vars with
            assigned := vars.assigned.insert (.ofList key) (.ofList text) } later with
        | error e => simp [Except.map, restEq] at same
        | ok found =>
            simp only [Except.map, restEq, Except.ok.injEq, List.cons.injEq, Prod.mk.injEq,
              String.ofList_inj] at same
            exact different same.1.2

end Assignments

/-! ### Whole files -/

theorem readLines_heading {heading : List Char} (oneLine : '\n' ∉ heading) (vars : Variables)
    (rest : List Char) :
    readLines vars (logicalLines [] .complete (physicalLines ('#' :: heading ++ '\n' :: rest))) =
      readLines vars (logicalLines [] .complete (physicalLines rest)) := by
  have unbroken : '\n' ∉ '#' :: heading := by simp [oneLine]
  have skipped : ∀ more, Text.trimStartChars ('#' :: more) = '#' :: more := fun _ => rfl
  have nothing : readLine vars [] = .ok none := rfl
  rw [physicalLines_append_newline unbroken]
  simp only [logicalLines, List.nil_append, List.cons_append, skipped, List.head?_cons, if_true,
    readLines, nothing]

theorem restorable_iff {value : List Char} :
    Restorable value ↔ '\r' ∉ value ∧ leavesOpen value = false := by
  simp only [Restorable, leavesOpen]
  by_cases carriage : '\r' ∈ value <;> by_cases quote : '\'' ∈ value <;>
    by_cases newline : '\n' ∈ value <;> simp [carriage, quote, newline]

theorem value_nil_insert {vars : Variables} (nameless : vars.value [] = []) {key : String}
    (named : key ≠ "") (value : String) :
    Variables.value { vars with assigned := vars.assigned.insert key value } [] = [] := by
  simp only [Variables.value] at nameless ⊢
  rw [Dict.get?_insert_of_ne (Ne.symm named)]
  exact nameless

theorem toList_assignments_cons (key value : String) (rest : List (String × String)) :
    (assignments ((key, value) :: rest)).toList =
      key.toList ++ '=' :: quoteChars value.toList ++ '\n' :: (assignments rest).toList := by
  simp [assignments, String.join_cons, quote]

/-- Assignments are read back exactly if each of their values is. -/
theorem readLines_assignments_iff {entries : List (String × String)}
    (valid : ∀ entry ∈ entries, isEnvKey entry.1 = true) {vars : Variables}
    (nameless : vars.value [] = []) :
    readLines vars (logicalLines [] .complete (physicalLines (assignments entries).toList)) =
        .ok entries ↔
      ∀ entry ∈ entries, Restorable entry.2.toList := by
  induction entries generalizing vars with
  | nil => exact ⟨fun _ => List.forall_mem_nil _, fun _ => rfl⟩
  | cons entry rest ih =>
      obtain ⟨key, value⟩ := entry
      have keyValid : isEnvKeyChars key.toList = true := valid _ (List.mem_cons_self ..)
      have restValid : ∀ entry ∈ rest, isEnvKey entry.1 = true := fun entry member =>
        valid entry (List.mem_cons_of_mem _ member)
      have named : key ≠ "" := by
        rintro rfl
        cases keyValid
      rw [toList_assignments_cons, physicalLines_append_newline (newline_not_mem_assignment keyValid),
        List.forall_mem_cons]
      -- An open value spoils the lines behind it as well, so there is nothing to be said of these.
      by_cases opened : leavesOpen value.toList = true
      · have lost : ¬Restorable value.toList := fun restorable => by
          rw [(restorable_iff.mp restorable).2] at opened
          cases opened
        have unread := readLines_of_leavesOpen keyValid opened vars
          (physicalLines (assignments rest).toList) rest
        rw [String.ofList_toList, String.ofList_toList] at unread
        exact ⟨fun read => absurd read unread, fun restorable => absurd restorable.1 lost⟩
      · have closed : leavesOpen value.toList = false := by simpa using opened
        rw [logicalLines_of_closed keyValid closed]
        simp only [readLines, readLine_assignment keyValid]
        by_cases carriage : '\r' ∈ value.toList
        · obtain ⟨e, failed⟩ : ∃ e, readValue vars (quoteChars value.toList) = .error e :=
            readValue_quoteChars_return carriage
          rw [failed]
          refine ⟨fun read => ?_, fun restorable => absurd carriage restorable.1.1⟩
          cases read
        · rw [readValue_quoteChars nameless carriage]
          have restorable : Restorable value.toList := restorable_iff.mpr ⟨carriage, closed⟩
          have later := ih restValid (value_nil_insert nameless named value)
          simp only [Except.map, String.ofList_toList]
          rw [← later]
          cases readLines { vars with assigned := vars.assigned.insert key value }
              (logicalLines [] .complete (physicalLines (assignments rest).toList)) with
          | error e => simp
          | ok found => simp [restorable]

end Dotenv

namespace StackEnvironment

/-- An environment comes back from its dotenv file exactly if each of its values does,
whatever the surrounding environment holds. -/
theorem read_toDotenv_iff {env : StackEnvironment} (oneLine : '\n' ∉ env.name.toList)
    (valid : ∀ key ∈ env.vars.keys, isEnvKey key = true) (surrounding : Dict String) :
    Dotenv.read surrounding env.toDotenv = .ok env.vars.entries ↔
      ∀ entry ∈ env.vars.entries, Dotenv.Restorable entry.2.toList := by
  have heading : '\n' ∉ ' ' :: env.heading.toList := by
    refine List.not_mem_cons_of_ne_of_not_mem (by decide) ?_
    have start : '\n' ∉ "Environment for the '".toList := by decide +kernel
    have finish : '\n' ∉ "' stack. Generated; do not edit.".toList := by decide +kernel
    exact Text.not_mem_toList_append (Text.not_mem_toList_append start oneLine) finish
  have text : env.toDotenv.toList = '#' :: (' ' :: env.heading.toList) ++
      '\n' :: (Dotenv.assignments env.vars.entries).toList := by
    simp [toDotenv, Dotenv.render]
  have nameless : Dotenv.Variables.value ⟨surrounding, .empty⟩ [] = [] := by
    simp only [Dotenv.Variables.value]
    split <;> rfl
  rw [Dotenv.read, text, Dotenv.readLines_heading heading]
  exact Dotenv.readLines_assignments_iff
    (fun entry member => valid entry.1 (List.mem_map_of_mem member)) nameless

/-- Values of all three forms. -/
def quotedKinds : StackEnvironment :=
  ⟨"traefik", ⟨[("A_RULE", "Host(a.example.com)"), ("B_URL", "https://hub.example.com/x"),
    ("C_NOTE", "it's $5 or \\ \"more\"\n")], by decide⟩⟩

theorem quotedKinds_read_toDotenv :
    (∀ entry ∈ quotedKinds.vars.entries, Dotenv.Restorable entry.2.toList) ∧
      Dotenv.read .empty quotedKinds.toDotenv = .ok quotedKinds.vars.entries := by
  have restorable : ∀ entry ∈ quotedKinds.vars.entries, Dotenv.Restorable entry.2.toList := by
    decide +kernel
  exact ⟨restorable, (read_toDotenv_iff (by decide) (by decide) .empty).mpr restorable⟩

/-- A carriage return, and a backslash at the end of a value between single quotes. -/
def unrestored : List StackEnvironment :=
  [⟨"x", ⟨[("A", "\r")], by decide⟩⟩, ⟨"x", ⟨[("A", "x\\"), ("B", "y z")], by decide⟩⟩]

theorem unrestored_read_toDotenv :
    unrestored.map (fun env => Dotenv.read .empty env.toDotenv) =
      [.error ⟨"\"\\r\"".toList, 2⟩, .error ⟨"A='x\\'\nB='y z'\n".toList, 15⟩] := by
  rfl

end StackEnvironment

end HubKeeper
