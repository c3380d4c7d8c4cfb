import HubKeeper.Dotenv.Reader
import HubKeeper.Dotenv.Writer
import Mathlib

/-!
How written values are read.

A quoted value is undone character by character.  The only character that does not
come back is the carriage return, whose escape the reader does not know.
-/

namespace HubKeeper.Dotenv

/-! ### Forms of a written value -/

/-- How a value is written. -/
inductive Quoted (value : List Char) : List Char → Prop
  | bare (filled : value ≠ []) (plain : ∀ c ∈ value, isBareChar c = true) : Quoted value value
  | single (quoteless : '\'' ∉ value) (oneLine : '\n' ∉ value) (noReturn : '\r' ∉ value) :
      Quoted value ('\'' :: (value ++ ['\'']))
  | double (special : '\'' ∈ value ∨ '\n' ∈ value ∨ '\r' ∈ value) :
      Quoted value ('"' :: (value.flatMap escapeChar ++ ['"']))

theorem quoted_quoteChars (value : List Char) : Quoted value (quoteChars value) := by
  unfold quoteChars
  split
  · rename_i bare
    simp only [Bool.and_eq_true, bne_iff_ne, List.all_eq_true] at bare
    exact .bare bare.1 bare.2
  · split
    · rename_i single
      simp only [Bool.not_eq_true', Bool.or_eq_false_iff, List.contains_eq_mem,
        decide_eq_false_iff_not] at single
      exact .single single.1.1 single.1.2 single.2
    · rename_i double
      refine .double ?_
      simpa only [Bool.not_eq_true', Bool.not_eq_false, Bool.or_eq_true, List.contains_eq_mem,
        decide_eq_true_eq, or_assoc] using double

theorem isBlank_of_isBareChar {c : Char} (bare : isBareChar c = true) :
    Text.isBlank c = false := by
  have bounds : 45 ≤ c.toNat ∧ c.toNat ≤ 122 := by
    simp only [isBareChar, Char.isAlphanum, Char.isAlpha, Char.isUpper, Char.isLower, Char.isDigit,
      Bool.or_eq_true, Bool.and_eq_true, decide_eq_true_eq, beq_iff_eq, UInt32.le_iff_toNat_le,
      ge_iff_le] at bare
    change (((((((65 ≤ c.toNat ∧ c.toNat ≤ 90) ∨ (97 ≤ c.toNat ∧ c.toNat ≤ 122)) ∨
      (48 ≤ c.toNat ∧ c.toNat ≤ 57)) ∨ c = '_') ∨ c = '.') ∨ c = ':') ∨ c = '/') ∨ c = '-' at bare
    rcases bare with ((((((upper | lower) | digit) | rfl) | rfl) | rfl) | rfl) | rfl
    · omega
    · omega
    · omega
    all_goals decide
  simp only [Text.isBlank]
  grind

/-- Characters with a meaning of their own are written between quotes. -/
theorem ne_of_isBareChar {c : Char} (bare : isBareChar c = true) :
    ∀ special ∈ ['$', '\'', '"', '\\', ' ', '\t', '#', '\n', '\r'], c ≠ special := by
  have quoted : ['$', '\'', '"', '\\', ' ', '\t', '#', '\n', '\r'].all
      (fun special => !isBareChar special) = true := by decide
  intro special member same
  have plain := List.all_eq_true.mp quoted special member
  rw [← same, bare] at plain
  cases plain

/-- A text starts with something that is neither blank nor the sign of a comment. -/
def StartsVisibly (text : List Char) : Prop :=
  ∃ c rest, text = c :: rest ∧ Text.isBlank c = false ∧ c ≠ '#'

theorem StartsVisibly.append {text : List Char} (visible : StartsVisibly text) (more : List Char) :
    StartsVisibly (text ++ more) := by
  obtain ⟨c, rest, rfl, seen, noComment⟩ := visible
  exact ⟨c, rest ++ more, rfl, seen, noComment⟩

theorem StartsVisibly.trimStartChars {text : List Char} (visible : StartsVisibly text) :
    Text.trimStartChars text = text := by
  obtain ⟨c, rest, rfl, seen, _⟩ := visible
  simp [Text.trimStartChars, seen]

theorem StartsVisibly.head?_ne {text : List Char} (visible : StartsVisibly text) :
    text.head? ≠ some '#' := by
  obtain ⟨c, rest, rfl, _, noComment⟩ := visible
  simp [noComment]

theorem StartsVisibly.ne_nil {text : List Char} (visible : StartsVisibly text) : text ≠ [] := by
  obtain ⟨c, rest, rfl, _⟩ := visible
  simp

theorem StartsVisibly.of_bare {text : List Char} (filled : text ≠ [])
    (plain : ∀ c ∈ text, isBareChar c = true) : StartsVisibly text := by
  cases text with
  | nil => exact absurd rfl filled
  | cons c rest =>
      have bare := plain c (List.mem_cons_self ..)
      refine ⟨c, rest, rfl, isBlank_of_isBareChar bare, ?_⟩
      rintro rfl
      exact absurd bare (by decide)

/-- Both ends of a written value are seen. -/
structure Visible (text : List Char) : Prop where
  first : StartsVisibly text
  last : ∀ c, text.getLast? = some c → Text.isBlank c = false

theorem Visible.enclosed {c d : Char} (opening : Text.isBlank c = false) (noComment : c ≠ '#')
    (closing : Text.isBlank d = false) (cs : List Char) : Visible (c :: (cs ++ [d])) where
  first := ⟨c, cs ++ [d], rfl, opening, noComment⟩
  last := by
    intro last lastEq
    rw [← List.cons_append, List.getLast?_concat] at lastEq
    cases lastEq
    exact closing

theorem Quoted.visible (quoted : Quoted value text) : Visible text := by
  cases quoted with
  | bare filled plain =>
      exact ⟨.of_bare filled plain, fun c last =>
        isBlank_of_isBareChar (plain c (List.mem_of_getLast? last))⟩
  | single => exact .enclosed (by decide) (by decide) (by decide) value
  | double => exact .enclosed (by decide) (by decide) (by decide) (value.flatMap escapeChar)

theorem newline_not_mem_escapeChar (c : Char) : '\n' ∉ escapeChar c := by
  unfold escapeChar
  repeat' split
  all_goals simp_all [eq_comm]

theorem Quoted.oneLine (quoted : Quoted value text) : '\n' ∉ text := by
  cases quoted with
  | bare filled plain => exact fun member => absurd (plain '\n' member) (by decide)
  | single quoteless oneLine noReturn => simp [oneLine]
  | double special =>
      simp only [List.mem_cons, List.mem_append, List.mem_flatMap, List.not_mem_nil, or_false]
      rintro (same | ⟨c, _, member⟩ | same)
      · cases same
      · exact newline_not_mem_escapeChar c member
      · cases same

/-! ### Steps of the reader -/

namespace ValueState

def bare (output : List Char) : ValueState :=
  { start with output := output }

def inStrong (output : List Char) : ValueState :=
  { start with strong := true, output := output }

def inWeak (output : List Char) : ValueState :=
  { start with weak := true, output := output }

end ValueState

/-- A step goes on from some output, or fails. -/
def ValueStep.Extends (output : List Char) : ValueStep → Prop
  | next later | stop later => output <+: later.output
  | fail => True

section Running

variable {vars : Variables}

theorem runValue_cons_of_next {state next : ValueState} {c : Char}
    (step : stepValue vars state c = .next next) (place : Nat) (rest : List Char) :
    runValue vars state place (c :: rest) = runValue vars next (place + 1) rest := by
  rw [runValue, step]

theorem runValue_strong {value : List Char} (quoteless : '\'' ∉ value) (output : List Char)
    (place : Nat) (rest : List Char) :
    runValue vars (.inStrong output) place (value ++ rest) =
      runValue vars (.inStrong (output ++ value)) (place + value.length) rest := by
  induction value generalizing output place with
  | nil => simp
  | cons c cs ih =>
      have different : c ≠ '\'' := fun same => quoteless (same ▸ List.mem_cons_self ..)
      have step : stepValue vars (.inStrong output) c = .next (.inStrong (output ++ [c])) := by
        simp [stepValue, ValueState.inStrong, ValueState.start, ValueState.put, different]
      rw [List.cons_append, runValue_cons_of_next step,
        ih fun member => quoteless (List.mem_cons_of_mem _ member)]
      simp [Nat.add_assoc, Nat.add_comm 1]

theorem runValue_bare {value : List Char} (plain : ∀ c ∈ value, isBareChar c = true)
    (output : List Char) (place : Nat) :
    runValue vars (.bare output) place value = .ok (.bare (output ++ value)) := by
  induction value generalizing output place with
  | nil => simp [runValue]
  | cons c cs ih =>
      have different := ne_of_isBareChar (plain c (List.mem_cons_self ..))
      have step : stepValue vars (.bare output) c = .next (.bare (output ++ [c])) := by
        simp [stepValue, ValueState.bare, ValueState.start, ValueState.put, different]
      rw [runValue_cons_of_next step, ih fun d member => plain d (List.mem_cons_of_mem _ member)]
      simp

/-- An escaped character comes back between double quotes. -/
theorem runValue_escapeChar {c : Char} (noReturn : c ≠ '\r') (output : List Char) (place : Nat)
    (rest : List Char) :
    ∃ later, runValue vars (.inWeak output) place (escapeChar c ++ rest) =
      runValue vars (.inWeak (output ++ [c])) later rest := by
  unfold escapeChar
  repeat' split
  · rename_i same
    subst same
    exact ⟨place + 2, rfl⟩
  · rename_i same
    subst same
    exact ⟨place + 2, rfl⟩
  · rename_i same
    subst same
    exact ⟨place + 2, rfl⟩
  · rename_i same
    subst same
    exact ⟨place + 2, rfl⟩
  · rename_i noBackslash noQuote noDollar _
    have step : stepValue vars (.inWeak output) c = .next (.inWeak (output ++ [c])) := by
      simp [stepValue, ValueState.inWeak, ValueState.start, ValueState.put, noBackslash, noQuote,
        noDollar]
    exact ⟨place + 1, runValue_cons_of_next step place rest⟩

theorem runValue_escaped {value : List Char} (noReturn : '\r' ∉ value) (output : List Char)
    (place : Nat) (rest : List Char) :
    ∃ later, runValue vars (.inWeak output) place (value.flatMap escapeChar ++ rest) =
      runValue vars (.inWeak (output ++ value)) later rest := by
  induction value generalizing output place with
  | nil => exact ⟨place, by simp⟩
  | cons c cs ih =>
      have different : c ≠ '\r' := fun same => noReturn (same ▸ List.mem_cons_self ..)
      obtain ⟨middle, head⟩ :=
        runValue_escapeChar different output place (cs.flatMap escapeChar ++ rest)
      obtain ⟨later, tail⟩ :=
        ih (fun member => noReturn (List.mem_cons_of_mem _ member)) (output ++ [c]) middle
      refine ⟨later, ?_⟩
      rw [List.flatMap_cons, List.append_assoc, head, tail, List.append_assoc, List.singleton_append]

theorem runValue_return (before after output : List Char) (noReturn : '\r' ∉ before)
    (place : Nat) (rest : List Char) :
    ∃ failed, runValue vars (.inWeak output) place
      ((before ++ '\r' :: after).flatMap escapeChar ++ rest) = .error failed := by
  obtain ⟨later, run⟩ := runValue_escaped noReturn output place
    (escapeChar '\r' ++ (after.flatMap escapeChar ++ rest))
  refine ⟨later + 1, ?_⟩
  rw [List.flatMap_append, List.flatMap_cons, List.append_assoc, List.append_assoc, run]
  rfl

theorem stepSubstitution_output (state : ValueState) (c : Char) :
    state.output <+: (stepSubstitution vars state c).output := by
  unfold stepSubstitution
  repeat' split
  all_goals simp [ValueState.substitute, ValueState.put]

theorem ValueStep.Extends.ite {condition : Prop} [Decidable condition] {first second : ValueStep}
    (firstExtends : first.Extends output) (secondExtends : second.Extends output) :
    (if condition then first else second).Extends output := by
  split
  · exact firstExtends
  · exact secondExtends

theorem stepValue_extends (state : ValueState) (c : Char) :
    (stepValue vars state c).Extends state.output := by
  unfold stepValue
  repeat' apply ValueStep.Extends.ite
  all_goals simp [ValueStep.Extends, ValueState.put, stepSubstitution_output]

/-- Output is never taken back. -/
theorem runValue_output {state final : ValueState} {place : Nat} {text : List Char}
    (run : runValue vars state place text = .ok final) : state.output <+: final.output := by
  induction text generalizing state place with
  | nil =>
      cases run
      exact List.prefix_refl _
  | cons c rest ih =>
      have step : (stepValue vars state c).Extends state.output := stepValue_extends state c
      rw [runValue] at run
      cases stepped : stepValue vars state c with
      | next later =>
          rw [stepped] at run step
          exact step.trans (ih run)
      | stop later =>
          rw [stepped] at run step
          cases run
          exact step
      | fail =>
          rw [stepped] at run
          cases run

/-! ### Whole values -/

theorem runValue_single {value : List Char} (quoteless : '\'' ∉ value) (rest : List Char) :
    runValue vars .start 0 ('\'' :: (value ++ '\'' :: rest)) =
      runValue vars (.bare value) (value.length + 2) rest := by
  have opened : stepValue vars .start '\'' = .next (.inStrong []) := rfl
  have closed : stepValue vars (.inStrong value) '\'' = .next (.bare value) := rfl
  rw [runValue_cons_of_next opened, runValue_strong quoteless, List.nil_append,
    runValue_cons_of_next closed, Nat.zero_add, Nat.add_comm 1]

/-- A value that holds no carriage return is read as it was. -/
theorem readValue_quoteChars (nameless : vars.value [] = []) {value : List Char}
    (noReturn : '\r' ∉ value) : readValue vars (quoteChars value) = .ok value := by
  have finished : ∀ {text : List Char}, runValue vars .start 0 text = .ok (.bare value) →
      readValue vars text = .ok value := by
    intro text run
    simp only [readValue, run]
    simp [ValueState.bare, ValueState.start, ValueState.substitute, nameless]
  apply finished
  generalize written : quoteChars value = text
  have quoted : Quoted value text := written ▸ quoted_quoteChars value
  cases quoted with
  | bare filled plain => exact runValue_bare plain [] 0
  | single quoteless oneLine _ =>
      rw [runValue_single quoteless]
      rfl
  | double special =>
      obtain ⟨later, run⟩ := runValue_escaped noReturn [] 1 ['"']
      have opened : stepValue vars .start '"' = .next (.inWeak []) := rfl
      rw [runValue_cons_of_next opened, run]
      rfl

theorem readValue_quoteChars_return {value : List Char} (holds : '\r' ∈ value) :
    ∃ e, readValue vars (quoteChars value) = .error e := by
  generalize written : quoteChars value = text
  have quoted : Quoted value text := written ▸ quoted_quoteChars value
  cases quoted with
  | bare filled plain => exact absurd (plain '\r' holds) (by decide)
  | single quoteless oneLine noReturn => exact absurd holds noReturn
  | double special =>
      obtain ⟨before, after, rfl, noReturn⟩ := List.eq_append_cons_of_mem holds
      have opened : stepValue vars .start '"' = .next (.inWeak []) := rfl
      obtain ⟨place, failed⟩ := runValue_return before after [] noReturn 1 ['"']
      rw [readValue, runValue_cons_of_next opened, failed]
      exact ⟨_, rfl⟩

/-- A quoted value that is not over at its closing quote is read as another one. -/
theorem readValue_overrun {value rest text : List Char} (quoteless : '\'' ∉ value)
    (accepted : readValue vars ('\'' :: (value ++ '\'' :: '\n' :: rest)) = .ok text) :
    text ≠ value := by
  simp only [readValue] at accepted
  split at accepted
  · cases accepted
  · rename_i final run
    split at accepted
    · cases accepted
    · have newline : stepValue vars (.bare value) '\n' = .next (.bare (value ++ ['\n'])) := rfl
      rw [runValue_single quoteless, runValue_cons_of_next newline] at run
      have extended : value ++ ['\n'] <+: text := by
        refine (runValue_output run).trans ?_
        rw [← Except.ok.inj accepted]
        exact List.prefix_append ..
      intro same
      have shorter := extended.length_le
      simp only [same, List.length_append, List.length_singleton] at shorter
      omega

end Running

end HubKeeper.Dotenv
