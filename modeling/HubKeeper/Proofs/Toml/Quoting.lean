import HubKeeper.Toml.Quoted
import HubKeeper.Toml.Spelling
import Mathlib

/-!
Quoted texts read back.

A text is written in one of several forms, and which one depends on what it holds.  The
forms on one line are read character by character.  Of the forms on several lines only
one thing is asked: that they are bodies, in which quotes come in runs of at most two.
-/

namespace HubKeeper.Toml

/-- A body between triple quotes and the text it writes. -/
inductive Body (quote : Char) : (text written : List Char) → Prop
  | nil : Body quote [] []
  | quotes (count : Nat) (positive : 0 < count) (few : count ≤ 2) (apart : written.head? ≠ some quote)
      (body : Body quote text written) :
      Body quote (List.replicate count quote ++ text) (List.replicate count quote ++ written)
  | plain (isPlain : isPlainChar c = true) (notQuote : c ≠ quote)
      (notSlash : quote = '"' → c ≠ '\\') (body : Body quote text written) :
      Body quote (c :: text) (c :: written)
  | newline (body : Body quote text written) : Body quote ('\n' :: text) ('\n' :: written)
  | escape (basic : quote = '"') (escapes : basicEscapes c = true)
      (body : Body quote text written) : Body quote (c :: text) (escapedChar c ++ written)

variable {cs rest text written : List Char} {c quote : Char}

/-! ### Escapes -/

theorem hexDigits?_upperHexDigit {n : Nat} (small : n < 128) (rest : List Char) :
    hexDigits? 4 ('0' :: '0' :: Text.upperHexDigit (n / 16) :: Text.upperHexDigit (n % 16) :: rest) =
      some (n, rest) := by
  have digits : ∀ n < 128,
      ['0', '0', Text.upperHexDigit (n / 16), Text.upperHexDigit (n % 16)].all Text.isHexDigit = true ∧
        ['0', '0', Text.upperHexDigit (n / 16), Text.upperHexDigit (n % 16)].foldl
          (fun n c => n * 16 + Text.hexValue c) 0 = n := by
    decide
  obtain ⟨hex, value⟩ := digits n small
  simp only [hexDigits?, List.take_succ_cons, List.take_zero, List.drop_succ_cons, List.drop_zero,
    hex, value]
  rfl

/-- An escape starts with a backslash and a mark, and reads as its character. -/
theorem escapedChar_spec (escapes : basicEscapes c = true) :
    ∃ mark tail, escapedChar c = '\\' :: mark :: tail ∧
      mark ∈ ['b', 't', 'n', 'f', 'r', '"', '\\', 'u'] ∧
      ∀ rest, escaped? (mark :: (tail ++ rest)) = some (c, rest) := by
  unfold escapedChar
  split_ifs with backspace tab line feed back quote slash
  all_goals try subst c
  all_goals try exact ⟨_, _, rfl, by decide, fun _ => rfl⟩
  refine ⟨'u', _, rfl, by decide, fun rest => ?_⟩
  have small : c.toNat < 128 := by
    simp only [basicEscapes, Bool.or_eq_true, decide_eq_true_eq, quote, slash, or_false] at escapes
    omega
  have code : scalarChar? c.toNat = some c := by
    rw [scalarChar?, if_pos (show c.toNat.isValidChar from c.valid), Char.ofNat_toNat]
  simp only [escaped?, escaped?.withCode, List.cons_append, List.nil_append,
    hexDigits?_upperHexDigit small, code, Option.map_some]

theorem plain_of_not_basicEscapes (plain : basicEscapes c = false) :
    isPlainChar c = true ∧ c ≠ '"' ∧ c ≠ '\\' := by
  simp only [basicEscapes, Bool.or_eq_false_iff, decide_eq_false_iff_not] at plain
  obtain ⟨⟨⟨control, delete⟩, quote⟩, slash⟩ := plain
  refine ⟨?_, quote, slash⟩
  simp only [isPlainChar, Bool.or_eq_true, Bool.and_eq_true, decide_eq_true_eq]
  omega

theorem isPlainChar_of_not_needsEscape (noEscape : needsEscape c = false) (noLine : c ≠ '\n') :
    isPlainChar c = true := by
  by_cases tab : c = '\t'
  · subst tab
    decide
  · simp only [needsEscape, Bool.or_eq_false_iff, Bool.and_eq_false_iff, bne_eq_false_iff_eq, tab,
      noLine, or_false, decide_eq_false_iff_not] at noEscape
    simp only [isPlainChar, Bool.or_eq_true, Bool.and_eq_true, decide_eq_true_eq]
    omega

/-! ### Texts on one line -/

theorem length_le_basicBody (cs : List Char) : cs.length ≤ (basicBody cs).length := by
  induction cs with
  | nil => exact Nat.le_refl 0
  | cons c cs ih =>
      have one : 1 ≤ (if basicEscapes c then escapedChar c else [c]).length := by
        split
        · rename_i escapes
          obtain ⟨mark, tail, spelled, _⟩ := escapedChar_spec escapes
          rw [spelled]
          exact Nat.succ_le_succ (Nat.zero_le _)
        · exact Nat.le_refl 1
      simp only [basicBody, List.flatMap_cons, List.length_append, List.length_cons] at *
      omega

theorem basicBody?_basicBody {fuel : Nat} (enough : cs.length < fuel) :
    basicBody? fuel (basicBody cs ++ '"' :: rest) = some (cs, rest) := by
  induction cs generalizing fuel with
  | nil =>
      obtain ⟨fuel, rfl⟩ := Nat.exists_eq_add_one_of_ne_zero (Nat.ne_zero_of_lt enough)
      simp [basicBody, basicBody?]
  | cons c cs ih =>
      obtain ⟨fuel, rfl⟩ := Nat.exists_eq_add_one_of_ne_zero (Nat.ne_zero_of_lt enough)
      have further : basicBody? fuel (basicBody cs ++ '"' :: rest) = some (cs, rest) :=
        ih (by simpa using enough)
      cases escapes : basicEscapes c with
      | true =>
          obtain ⟨mark, tail, spelled, _, read⟩ := escapedChar_spec escapes
          have body : basicBody (c :: cs) ++ '"' :: rest =
              '\\' :: mark :: (tail ++ (basicBody cs ++ '"' :: rest)) := by
            simp [basicBody, escapes, spelled]
          simp [body, basicBody?, read, further, before]
      | false =>
          obtain ⟨plain, notQuote, notSlash⟩ := plain_of_not_basicEscapes escapes
          have body : basicBody (c :: cs) ++ '"' :: rest = c :: (basicBody cs ++ '"' :: rest) := by
            simp [basicBody, escapes]
          simp [body, basicBody?, plain, notQuote, notSlash, further, before]

theorem literalBody?_append (plain : ∀ c ∈ cs, isPlainChar c = true) (noQuote : '\'' ∉ cs)
    (rest : List Char) :
    literalBody? (cs ++ '\'' :: rest) = some (cs, rest) := by
  induction cs with
  | nil => simp [literalBody?]
  | cons c cs ih =>
      rw [List.mem_cons, not_or] at noQuote
      have further := ih (fun d member => plain d (List.mem_cons_of_mem _ member)) noQuote.2
      simp [literalBody?, Ne.symm noQuote.1, plain c List.mem_cons_self, further, before]

/-! ### Texts over several lines -/

namespace Body

theorem eq_nil (body : Body quote text []) : text = [] := by
  generalize same : ([] : List Char) = written at body
  cases body with
  | nil => rfl
  | quotes count positive few apart body =>
      have := congrArg List.length same
      simp at this
      omega
  | plain => cases same
  | newline => cases same
  | escape basic escapes body =>
      obtain ⟨mark, tail, spelled, _⟩ := escapedChar_spec escapes
      rw [spelled] at same
      cases same

/-- Quotes in front of a body that does not start with one. -/
theorem quoted {count : Nat} (few : count ≤ 2) (apart : written.head? ≠ some quote)
    (body : Body quote text written) :
    Body quote (List.replicate count quote ++ text) (List.replicate count quote ++ written) := by
  rcases Nat.eq_zero_or_pos count with rfl | positive
  · exact body
  · exact .quotes count positive few apart body

end Body

theorem takeWhile_replicate (count : Nat) (apart : cs.head? ≠ some quote) :
    (List.replicate count quote ++ cs).takeWhile (· == quote) = List.replicate count quote := by
  have stop : cs.takeWhile (· == quote) = [] := by
    cases cs with
    | nil => rfl
    | cons d ds => simpa using apart
  rw [List.takeWhile_append_of_pos (by simp), stop, List.append_nil]

theorem quoteRun_within {count : Nat} (few : count ≤ 2) (apart : cs.head? ≠ some quote) :
    quoteRun quote (List.replicate count quote ++ cs) = .within count cs := by
  simp only [quoteRun, takeWhile_replicate count apart, List.length_replicate]
  rw [if_pos (by omega), List.drop_left' (List.length_replicate ..)]

theorem quoteRun_closing {count : Nat} (few : count ≤ 2) (apart : cs.head? ≠ some quote) :
    quoteRun quote (List.replicate (count + 3) quote ++ cs) = .closing count cs := by
  have inside : min (count + 3 - 3) 2 = count := by omega
  simp only [quoteRun, takeWhile_replicate (count + 3) apart, List.length_replicate, inside]
  rw [if_neg (by omega), List.drop_left' (List.length_replicate ..)]

theorem multilineBody?_quote {fuel count : Nat} (positive : 0 < count) (few : count ≤ 2)
    (apart : cs.head? ≠ some quote) :
    multilineBody? quote (fuel + 1) (List.replicate count quote ++ cs) =
      (multilineBody? quote fuel cs).map fun (text, tail) =>
        (List.replicate count quote ++ text, tail) := by
  have run := quoteRun_within few apart
  obtain ⟨count, rfl⟩ : ∃ less, count = less + 1 := ⟨count - 1, by omega⟩
  rw [List.replicate_succ, List.cons_append] at run ⊢
  simp only [multilineBody?, if_true, run]
  rw [List.replicate_succ]

theorem multilineBody?_close {fuel count : Nat} (few : count ≤ 2)
    (apart : cs.head? ≠ some quote) :
    multilineBody? quote (fuel + 1) (List.replicate (count + 3) quote ++ cs) =
      some (List.replicate count quote, cs) := by
  have run := quoteRun_closing few apart
  rw [List.replicate_succ, List.cons_append] at run ⊢
  simp only [multilineBody?, if_true, run]

theorem multilineBody?_of_body {fuel : Nat} (isQuote : quote = '"' ∨ quote = '\'')
    (body : Body quote text written) (enough : text.length < fuel) (apart : rest.head? ≠ some quote) :
    multilineBody? quote fuel (written ++ (List.replicate 3 quote ++ rest)) =
      some (text, rest) := by
  induction body generalizing fuel with
  | nil =>
      obtain ⟨fuel, rfl⟩ := Nat.exists_eq_add_one_of_ne_zero (Nat.ne_zero_of_lt enough)
      exact multilineBody?_close (Nat.zero_le 2) apart
  | @quotes text written count positive few next body ih =>
      obtain ⟨fuel, rfl⟩ := Nat.exists_eq_add_one_of_ne_zero (Nat.ne_zero_of_lt enough)
      rcases written with _ | ⟨d, written⟩
      · -- The run goes on into the closing quotes.
        rw [body.eq_nil, List.append_nil, ← List.append_assoc,
          ← List.replicate_add]
        exact multilineBody?_close few apart
      · have further := ih (show text.length < fuel by simp at enough ⊢; omega)
        rw [List.append_assoc, multilineBody?_quote positive few (by simpa using next), further]
        rfl
  | @plain c text written isPlain notQuote notSlash body ih =>
      obtain ⟨fuel, rfl⟩ := Nat.exists_eq_add_one_of_ne_zero (Nat.ne_zero_of_lt enough)
      have further := ih (show text.length < fuel by simpa using enough)
      have noJoin : (c = '\\' && quote = '"') = false := by
        simp only [Bool.and_eq_false_iff, decide_eq_false_iff_not]
        by_cases basic : quote = '"'
        · exact .inl (notSlash basic)
        · exact .inr basic
      simp only [List.cons_append, multilineBody?, if_neg notQuote, noJoin, isPlain, further, before,
        Bool.false_eq_true, if_false, if_true, Option.map_some]
  | @newline text written body ih =>
      obtain ⟨fuel, rfl⟩ := Nat.exists_eq_add_one_of_ne_zero (Nat.ne_zero_of_lt enough)
      have further := ih (show text.length < fuel by simpa using enough)
      have notQuote : '\n' ≠ quote := by
        rcases isQuote with rfl | rfl <;> decide
      simp only [List.cons_append, multilineBody?, if_neg notQuote, afterLineEnd?, further, before,
        Option.map_some]
      rfl
  | @escape c text written basic escapes body ih =>
      obtain ⟨fuel, rfl⟩ := Nat.exists_eq_add_one_of_ne_zero (Nat.ne_zero_of_lt enough)
      have further := ih (show text.length < fuel by simpa using enough)
      obtain ⟨mark, tail, spelled, marks, read⟩ := escapedChar_spec escapes
      subst basic
      have noJoin : afterJoin? (mark :: (tail ++ (written ++ (List.replicate 3 '"' ++ rest)))) =
          none := by
        simp only [List.mem_cons, List.not_mem_nil, or_false] at marks
        rcases marks with rfl | rfl | rfl | rfl | rfl | rfl | rfl | rfl <;> rfl
      rw [spelled]
      simp only [List.cons_append, List.append_assoc, multilineBody?, noJoin, read, further, before,
        Option.map_some]
      rfl

theorem Body.length_le (body : Body quote text written) : text.length ≤ written.length := by
  induction body with
  | nil => exact Nat.le_refl 0
  | quotes count positive few apart body ih => simpa using ih
  | plain isPlain notQuote notSlash body ih => simpa using ih
  | newline body ih => simpa using ih
  | escape basic escapes body ih =>
      obtain ⟨mark, tail, spelled, _⟩ := escapedChar_spec escapes
      simp only [spelled, List.length_append, List.length_cons]
      omega

/-- Without a line feed in the text, none is dropped at the start of its body. -/
theorem Body.afterLineEnd?_eq_none (isQuote : quote = '"' ∨ quote = '\'')
    (body : Body quote text written) (noLine : '\n' ∉ text) :
    afterLineEnd? (written ++ (List.replicate 3 quote ++ rest)) = none := by
  have opening : ∀ cs, afterLineEnd? (quote :: cs) = none := by
    intro cs
    rcases isQuote with rfl | rfl <;> rfl
  cases body with
  | nil => exact opening _
  | quotes count positive few apart body =>
      obtain ⟨count, rfl⟩ : ∃ less, count = less + 1 := ⟨count - 1, by omega⟩
      exact opening _
  | @plain c text written isPlain notQuote notSlash body =>
      have notLine : c ≠ '\n' := by
        rintro rfl
        cases isPlain
      have notReturn : c ≠ '\r' := by
        rintro rfl
        cases isPlain
      simp [afterLineEnd?, notLine, notReturn]
  | newline body => simp at noLine
  | escape basic escapes body =>
      obtain ⟨mark, tail, spelled, _⟩ := escapedChar_spec escapes
      simp [spelled, afterLineEnd?]

theorem quotedText?_of_body (isQuote : quote = '"' ∨ quote = '\'')
    (body : Body quote text written) (apart : rest.head? ≠ some quote) :
    quotedText? (List.replicate 3 quote ++ openingLine text ++ written ++ List.replicate 3 quote ++
      rest) = some (text, rest) := by
  have opened : ∀ cs, quotedText? (List.replicate 3 quote ++ cs) = multilineText? quote cs := by
    intro cs
    rcases isQuote with rfl | rfl <;> rfl
  have bound := body.length_le
  rw [List.append_assoc, List.append_assoc, List.append_assoc, opened, multilineText?]
  by_cases line : '\n' ∈ text
  · have opening : openingLine text = ['\n'] := by simp [openingLine, line]
    rw [opening]
    simp only [List.cons_append, List.nil_append, afterLineEnd?, Option.getD_some]
    refine multilineBody?_of_body isQuote body ?_ apart
    simp only [List.length_cons, List.length_append]
    omega
  · have opening : openingLine text = [] := by simp [openingLine, line]
    rw [opening, List.nil_append, body.afterLineEnd?_eq_none isQuote line, Option.getD_none]
    refine multilineBody?_of_body isQuote body ?_ apart
    simp only [List.length_append]
    omega

/-! ### Writing -/

/-- Quotes that have just been written belong to the body as well. -/
theorem body_multilineBody {quotes : Nat} (few : quotes ≤ 2) (cs : List Char) :
    Body '"' (List.replicate quotes '"' ++ cs)
      (List.replicate quotes '"' ++ multilineBody quotes cs) := by
  induction cs generalizing quotes with
  | nil => exact .quoted few (by simp [multilineBody]) .nil
  | cons c cs ih =>
      have none := ih (show 0 ≤ 2 by decide)
      simp only [multilineBody]
      split
      · rename_i quote
        subst quote
        split
        · rename_i room
          have one := ih (show quotes + 1 ≤ 2 by omega)
          simpa only [List.replicate_succ', List.append_assoc, List.singleton_append] using one
        · exact .quoted few (by simp) (.escape rfl (by decide) none)
      · split
        · rename_i line
          subst line
          exact .quoted few (by simp) (.newline none)
        · rename_i notQuote notLine
          split
          · rename_i escapes
            obtain ⟨mark, tail, spelled, _⟩ := escapedChar_spec escapes
            exact .quoted few (by simp [spelled]) (.escape rfl escapes none)
          · rename_i plain
            obtain ⟨isPlain, _, notSlash⟩ := plain_of_not_basicEscapes (by simpa using plain)
            exact .quoted few (by simpa using notQuote)
              (.plain isPlain notQuote (fun _ => notSlash) none)

theorem le_longestRun (current best : Nat) (cs : List Char) :
    best ≤ longestRun c current best cs := by
  induction cs generalizing current best with
  | nil => exact Nat.le_refl best
  | cons d cs ih =>
      simp only [longestRun]
      split
      · exact Nat.le_trans (Nat.le_max_left ..) (ih ..)
      · exact ih ..

theorem not_mem_of_longestRun {current best : Nat} (none : longestRun c current best cs = 0) :
    c ∉ cs := by
  induction cs generalizing current best with
  | nil => exact List.not_mem_nil
  | cons d cs ih =>
      simp only [longestRun] at none
      split at none
      · have least := le_longestRun (c := c) (current + 1) (max best (current + 1)) cs
        omega
      · rename_i different
        rw [List.mem_cons, not_or]
        exact ⟨Ne.symm different, ih none⟩

/-- A text as it stands is a body if its single quotes come in short runs. -/
theorem body_literal {quotes best : Nat} (few : quotes ≤ 2)
    (runs : longestRun '\'' quotes best cs ≤ 2) (noControl : cs.any needsEscape = false) :
    Body '\'' (List.replicate quotes '\'' ++ cs) (List.replicate quotes '\'' ++ cs) := by
  induction cs generalizing quotes best with
  | nil => exact .quoted few (by simp) .nil
  | cons c cs ih =>
      simp only [List.any_cons, Bool.or_eq_false_iff] at noControl
      simp only [longestRun] at runs
      split at runs
      · rename_i quote
        subst quote
        have least := le_longestRun (c := '\'') (quotes + 1) (max best (quotes + 1)) cs
        have one := ih (show quotes + 1 ≤ 2 by omega) runs noControl.2
        simpa only [List.replicate_succ', List.append_assoc, List.singleton_append] using one
      · rename_i notQuote
        have none := ih (show 0 ≤ 2 by decide) runs noControl.2
        refine .quoted few (by simpa using notQuote) ?_
        by_cases line : c = '\n'
        · subst line
          exact .newline none
        · exact .plain (isPlainChar_of_not_needsEscape noControl.1 line) notQuote
            (fun basic => absurd basic (by decide)) none

/-! ### Texts -/

theorem quotedText?_of_line {next : List Char} (isQuote : quote = '"' ∨ quote = '\'')
    (single : next.take 2 ≠ [quote, quote]) :
    quotedText? (quote :: next) = lineText? quote next := by
  have quoted : (quote = '"' || quote = '\'') = true := by simpa using isQuote
  match next with
  | [] => simp [quotedText?, quoted]
  | [_] => simp [quotedText?, quoted]
  | second :: third :: next =>
      have notTriple : (second = quote && third = quote) = false := by
        simpa [Bool.and_eq_false_iff] using single
      simp only [quotedText?, quoted, Bool.true_and, notTriple, Bool.false_eq_true, if_false,
        if_true]

theorem quotedText?_basicChars (apart : rest.head? ≠ some '"') (cs : List Char) :
    quotedText? (basicChars cs ++ rest) = some (cs, rest) := by
  have written : basicChars cs ++ rest = '"' :: (basicBody cs ++ '"' :: rest) := by
    simp [basicChars]
  have single : (basicBody cs ++ '"' :: rest).take 2 ≠ ['"', '"'] := by
    rcases cs with _ | ⟨c, cs⟩
    · cases rest with
      | nil => simp [basicBody]
      | cons d rest => simpa [basicBody] using apart
    · cases escapes : basicEscapes c with
      | true =>
          obtain ⟨mark, tail, spelled, _⟩ := escapedChar_spec escapes
          simp [basicBody, escapes, spelled]
      | false =>
          obtain ⟨_, notQuote, _⟩ := plain_of_not_basicEscapes escapes
          simp [basicBody, escapes, notQuote]
  have bound := length_le_basicBody cs
  rw [written, quotedText?_of_line (.inl rfl) single, lineText?, if_pos rfl]
  refine basicBody?_basicBody ?_
  simp only [List.length_append]
  omega

theorem quotedText?_literal (apart : rest.head? ≠ some '\'') (noQuote : '\'' ∉ cs)
    (plain : ∀ c ∈ cs, isPlainChar c = true) :
    quotedText? ('\'' :: cs ++ ['\''] ++ rest) = some (cs, rest) := by
  have written : '\'' :: cs ++ ['\''] ++ rest = '\'' :: (cs ++ '\'' :: rest) := by simp
  have single : (cs ++ '\'' :: rest).take 2 ≠ ['\'', '\''] := by
    rcases cs with _ | ⟨c, cs⟩
    · cases rest with
      | nil => simp
      | cons d rest => simpa using apart
    · rw [List.mem_cons, not_or] at noQuote
      simp [Ne.symm noQuote.1]
  rw [written, quotedText?_of_line (.inr rfl) single, lineText?, if_neg (by decide)]
  exact literalBody?_append plain noQuote rest

theorem quotedText?_multilineChars (apart : rest.head? ≠ some '"') (cs : List Char) :
    quotedText? (multilineChars cs ++ rest) = some (cs, rest) :=
  quotedText?_of_body (.inl rfl) (body_multilineBody (Nat.zero_le 2) cs) apart

/-- The start of what follows a text, which must not be taken for one of its quotes. -/
def Unquoted (rest : List Char) : Prop :=
  rest.head? ≠ some '"' ∧ rest.head? ≠ some '\''

theorem quotedText?_textChars (apart : Unquoted rest) (cs : List Char) :
    quotedText? (textChars cs ++ rest) = some (cs, rest) := by
  simp only [textChars]
  split_ifs with basic literal multiline raw newline
  · exact quotedText?_basicChars apart.1 cs
  · simp only [Bool.and_eq_true, Bool.not_eq_true', decide_eq_true_eq] at literal
    obtain ⟨⟨noControl, noQuote⟩, noLine⟩ := literal
    rw [List.any_eq_false] at noControl
    refine quotedText?_literal apart.2 (not_mem_of_longestRun noQuote) fun c member => ?_
    refine isPlainChar_of_not_needsEscape (by simpa using noControl c member) ?_
    rintro rfl
    simp [member] at noLine
  · exact quotedText?_multilineChars apart.1 cs
  · simp only [Bool.and_eq_true, Bool.not_eq_true', decide_eq_true_eq] at raw
    exact quotedText?_of_body (.inr rfl) (body_literal (Nat.zero_le 2) raw.2 raw.1) apart.2
  · exact quotedText?_multilineChars apart.1 cs
  · exact quotedText?_basicChars apart.1 cs

end HubKeeper.Toml
