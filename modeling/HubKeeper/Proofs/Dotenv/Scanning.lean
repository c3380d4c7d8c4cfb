import HubKeeper.Proofs.Dotenv.Values

/-!
How written values leave the scan of a line.

The scan knows an escape between single quotes, where values have none.  A value
that stands between single quotes therefore closes its line unless it ends in an odd
number of backslashes; then its closing quote counts as escaped.
-/

namespace HubKeeper.Dotenv

/-! ### Lines of a text -/

theorem physicalLines_append_newline {line : List Char} (unbroken : '\n' ∉ line)
    (rest : List Char) :
    physicalLines (line ++ '\n' :: rest) = (line ++ ['\n']) :: physicalLines rest := by
  induction line with
  | nil => simp [physicalLines]
  | cons c cs ih =>
      have different : c ≠ '\n' := fun same => unbroken (same ▸ List.mem_cons_self ..)
      have tail : '\n' ∉ cs := fun member => unbroken (List.mem_cons_of_mem _ member)
      simp [physicalLines, different, ih tail]

theorem dropLineEnd_append_newline {line : List Char} (noReturn : line.getLast? ≠ some '\r') :
    dropLineEnd (line ++ ['\n']) = line := by
  simp [dropLineEnd, noReturn]

/-! ### Scanning -/

theorem scanLine_append (state : ScanState) (first second : List Char) :
    scanLine state (first ++ second) =
      match scanLine state first with
      | .comment before => .comment before
      | .state middle =>
          match scanLine middle second with
          | .comment before => .comment (first ++ before)
          | .state final => .state final := by
  induction first generalizing state with
  | nil =>
      simp only [List.nil_append, scanLine]
      cases scanLine state second <;> rfl
  | cons c rest ih =>
      simp only [List.cons_append, scanLine]
      split
      · rfl
      · rw [ih]
        cases scanLine (scanStep state c) rest with
        | comment before => rfl
        | state middle =>
            simp only
            cases scanLine middle second <;> rfl

theorem scanLine_append_of_state {first second : List Char}
    (firstScan : scanLine state first = .state middle)
    (secondScan : scanLine middle second = .state final) :
    scanLine state (first ++ second) = .state final := by
  simp only [scanLine_append, firstScan, secondScan]

theorem scanLine_cons_of_ne_blank {state : ScanState} (inside : state ≠ .blank) (c : Char)
    (rest : List Char) :
    scanLine state (c :: rest) =
      match scanLine (scanStep state c) rest with
      | .comment before => .comment (c :: before)
      | .state final => .state final := by
  rewrite [scanLine, if_neg (by simp [inside])]
  rfl

/-- A step within a line that does not start a comment. -/
theorem scanLine_cons_of_state {state : ScanState} {c : Char} {rest : List Char}
    (inside : state ≠ .blank) (rest_scan : scanLine (scanStep state c) rest = .state final) :
    scanLine state (c :: rest) = .state final := by
  rw [scanLine_cons_of_ne_blank inside, rest_scan]

theorem scanLine_bare {cs : List Char} (plain : ∀ c ∈ cs, isBareChar c = true) :
    scanLine .complete cs = .state .complete := by
  induction cs with
  | nil => rfl
  | cons c rest ih =>
      have bare := plain c (List.mem_cons_self ..)
      have step : scanStep .complete c = .complete := by
        have different := ne_of_isBareChar bare
        simp [scanStep, scanPlain, isBlank_of_isBareChar bare, different]
      refine scanLine_cons_of_state (by decide) ?_
      rw [step]
      exact ih fun d member => plain d (List.mem_cons_of_mem _ member)

/-- Between double quotes, escaped characters stay there. -/
theorem scanLine_escaped (value : List Char) :
    scanLine .weak (value.flatMap escapeChar) = .state .weak := by
  induction value with
  | nil => rfl
  | cons c rest ih =>
      refine scanLine_append_of_state ?_ ih
      unfold escapeChar
      repeat' split
      · rfl
      · rfl
      · rfl
      · rfl
      · rfl
      · rename_i noBackslash noQuote _ _ _
        simp [scanLine, scanStep, noBackslash, noQuote]

/-- Whether a text ends in an odd number of backslashes. -/
def endsEscaping (cs : List Char) : Bool :=
  (cs.reverse.takeWhile (· == '\\')).length % 2 == 1

theorem endsEscaping_concat (cs : List Char) (c : Char) :
    endsEscaping (cs ++ [c]) = if c = '\\' then !endsEscaping cs else false := by
  simp only [endsEscaping, List.reverse_append, List.reverse_singleton, List.singleton_append,
    List.takeWhile_cons, beq_iff_eq]
  split
  · rw [List.length_cons, Bool.eq_iff_iff]
    simp only [beq_iff_eq, Bool.not_eq_true', beq_eq_false_iff_ne]
    omega
  · rfl

theorem endsEscaping_of_not_mem {cs : List Char} (member : '\\' ∉ cs) : endsEscaping cs = false := by
  have none : cs.reverse.takeWhile (· == '\\') = [] := by
    cases reversed : cs.reverse with
    | nil => rfl
    | cons c rest =>
        have inside : c ∈ cs := List.mem_reverse.mp (reversed ▸ List.mem_cons_self ..)
        have different : c ≠ '\\' := fun same => member (same ▸ inside)
        simp [different]
  simp [endsEscaping, none]

/-- Between single quotes, the end of a value tells whether what follows counts as
escaped. -/
theorem scanLine_strong {value : List Char} (quoteless : '\'' ∉ value) :
    scanLine .strong value = .state (if endsEscaping value then .strongEscape else .strong) := by
  -- The end of a text is reached by adding characters at its end.
  generalize reversed : value.reverse = backwards
  induction backwards generalizing value with
  | nil =>
      obtain rfl : value = [] := by simpa using reversed
      rfl
  | cons c rest ih =>
      obtain rfl : value = rest.reverse ++ [c] := by
        rw [← List.reverse_cons, ← reversed, List.reverse_reverse]
      simp only [List.mem_append, List.mem_singleton, not_or] at quoteless
      refine scanLine_append_of_state (ih quoteless.1 (List.reverse_reverse rest)) ?_
      have different : c ≠ '\'' := fun same => quoteless.2 same.symm
      rw [endsEscaping_concat]
      by_cases backslash : c = '\\' <;> by_cases escaping : endsEscaping rest.reverse = true <;>
        simp [scanLine, scanStep, backslash, escaping, different]

/-! ### Lines that are left open -/

def ScanState.isStrong : ScanState → Bool
  | .strong | .strongEscape => true
  | _ => false

theorem ScanState.isStrong_step {state : ScanState} {c : Char} (strong : state.isStrong = true)
    (quoteless : c ≠ '\'') : (scanStep state c).isStrong = true := by
  cases state with
  | strong => by_cases backslash : c = '\\' <;> simp [scanStep, backslash, quoteless, isStrong]
  | strongEscape => rfl
  | _ => cases strong

theorem scanLine_of_isStrong {state : ScanState} (strong : state.isStrong = true)
    (line : List Char) :
    match scanLine state line with
    | .comment before => '\'' ∈ before
    | .state final => final.isStrong = true ∨ '\'' ∈ line := by
  induction line generalizing state with
  | nil => exact .inl strong
  | cons c rest ih =>
      have inside : state ≠ .blank := by
        rintro rfl
        cases strong
      rw [scanLine_cons_of_ne_blank inside]
      by_cases quote : c = '\''
      · cases scanLine (scanStep state c) rest <;> simp [quote]
      · have later := ih (ScanState.isStrong_step strong quote)
        cases scan : scanLine (scanStep state c) rest with
        | comment before =>
            rw [scan] at later
            exact List.mem_cons_of_mem _ later
        | state final =>
            rw [scan] at later
            exact later.imp_right (List.mem_cons_of_mem _)

/-- What is dropped at the end reaches no further than the last character that stays. -/
theorem append_of_kept {base tail kept dropped : List Char}
    (same : base ++ tail = kept ++ dropped) (member : c ∈ tail) (stays : c ∉ dropped) :
    ∃ rest, kept = base ++ rest ∧ c ∈ rest := by
  rcases List.append_eq_append_iff.mp same with ⟨rest, kept_eq, tail_eq⟩ | ⟨rest, _, dropped_eq⟩
  · refine ⟨rest, kept_eq, ?_⟩
    rw [tail_eq] at member
    exact (List.mem_append.mp member).resolve_right stays
  · rw [dropped_eq] at stays
    exact absurd (List.mem_append_right _ member) stays

theorem dropLineEnd_append (line : List Char) :
    ∃ dropped, line = dropLineEnd line ++ dropped ∧ '\'' ∉ dropped := by
  unfold dropLineEnd
  split
  · rename_i newline
    obtain ⟨body, rfl⟩ := List.getLast?_eq_some_iff.mp newline
    simp only [List.dropLast_concat]
    split
    · rename_i carriage
      obtain ⟨start, rfl⟩ := List.getLast?_eq_some_iff.mp carriage
      exact ⟨['\r', '\n'], by simp, by decide⟩
    · exact ⟨['\n'], rfl, by decide⟩
  · exact ⟨[], by simp, List.not_mem_nil⟩

/-- A line does not lead out of what is open between single quotes, but for one of these. -/
theorem scanLine_of_open {extra : List Char} {state : ScanState}
    (opened : state.isStrong = true ∨ '\'' ∈ extra) (line : List Char) :
    match scanLine state line with
    | .comment before => '\'' ∈ extra ++ before
    | .state final => final.isStrong = true ∨ '\'' ∈ extra ++ line := by
  rcases opened with strong | quoted
  · have scanned := scanLine_of_isStrong strong line
    cases scan : scanLine state line with
    | comment before =>
        rw [scan] at scanned
        exact List.mem_append_right _ scanned
    | state final =>
        rw [scan] at scanned
        exact scanned.imp_right (List.mem_append_right _)
  · cases scanLine state line with
    | comment before => exact List.mem_append_left _ quoted
    | state final => exact .inr (List.mem_append_left _ quoted)

/-- A line left open between single quotes ends the reading, or it goes on up to the next
single quote at least. -/
theorem logicalLines_of_open {base : List Char} (visible : StartsVisibly base)
    (lines : List (List Char)) {extra : List Char} {state : ScanState}
    (unfinished : state ≠ .complete) (opened : state.isStrong = true ∨ '\'' ∈ extra) :
    (∃ e rest, logicalLines (base ++ extra) state lines = .error e :: rest) ∨
    ∃ tail rest, logicalLines (base ++ extra) state lines = .ok (base ++ tail) :: rest ∧
      '\'' ∈ tail := by
  induction lines generalizing extra state with
  | nil =>
      left
      cases state with
      | complete => exact absurd rfl unfinished
      | _ => exact ⟨_, _, rfl⟩
  | cons line rest ih =>
      -- What is open starts visibly, so no line that is added makes a comment of the whole.
      have uncommented : (Text.trimStartChars (base ++ extra ++ line)).head? ≠ some '#' := by
        have whole := (visible.append extra).append line
        rw [whole.trimStartChars]
        exact whole.head?_ne
      simp only [logicalLines, if_neg uncommented]
      have scanned := scanLine_of_open opened line
      cases scan : scanLine state line with
      | comment before =>
          rw [scan] at scanned
          exact .inr ⟨extra ++ before, logicalLines [] .complete rest, by simp, scanned⟩
      | state final =>
          rw [scan] at scanned
          -- Only a single quote leads out of the quotes; until there is one, lines are added.
          by_cases complete : final = .complete
          · subst complete
            obtain ⟨dropped, whole, quoteless⟩ := dropLineEnd_append (base ++ extra ++ line)
            rw [List.append_assoc] at whole
            have quoted := scanned.resolve_left (by decide)
            obtain ⟨tail, kept, member⟩ := append_of_kept whole quoted quoteless
            rw [← List.append_assoc] at kept
            exact .inr ⟨tail, _, by rw [kept], member⟩
          · have further := ih complete scanned
            rw [← List.append_assoc] at further
            cases final with
            | complete => exact absurd rfl complete
            | _ => exact further

end HubKeeper.Dotenv
