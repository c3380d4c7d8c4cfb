import HubKeeper.Proofs.Json.Compact

/-!
Compact JSON text is read back.

Integers of 64 bits are read as they were written, and so is what is built of them, as far as
values are nested.  A value is followed by a comma, by a closing bracket or by nothing; none of
these goes on with a number.
-/

namespace HubKeeper.Json

/-! ### Values that are read back -/

mutual

/-- The numbers are integers of 64 bits, and no more than so many levels are nested. -/
def fits : (depth : Nat) → Json → Bool
  | _, .num (.int n) => Number.minInt64 ≤ n && n ≤ maxSignificand
  | _, .num (.double _) | 0, .arr _ | 0, .obj _ => false
  | depth + 1, .arr items => fitsItems depth items
  | depth + 1, .obj fields => fitsFields depth fields
  | _, _ => true

def fitsItems (depth : Nat) : List Json → Bool
  | [] => true
  | item :: rest => item.fits depth && fitsItems depth rest

def fitsFields (depth : Nat) : List (String × Json) → Bool
  | [] => true
  | (_, value) :: rest => value.fits depth && fitsFields depth rest

end

theorem fitsItems_iff {depth : Nat} {items : List Json} :
    fitsItems depth items = true ↔ ∀ item ∈ items, item.fits depth = true := by
  induction items with
  | nil => exact iff_of_true rfl (List.forall_mem_nil _)
  | cons item rest ih => rw [fitsItems, Bool.and_eq_true, ih, List.forall_mem_cons]

mutual

theorem isFinite_of_fits : ∀ (depth : Nat) (value : Json), value.fits depth = true →
    value.isFinite = true
  | _, .null, _ | _, .bool _, _ | _, .str _, _ | _, .num (.int _), _ => rfl
  | _, .num (.double _), fit => by simp [fits] at fit
  | 0, .arr _, fit | 0, .obj _, fit => by simp [fits] at fit
  | depth + 1, .arr items, fit => by
      simp only [fits] at fit
      rw [isFinite]
      exact allFinite_of_fits depth items fit
  | depth + 1, .obj fields, fit => by
      simp only [fits] at fit
      rw [isFinite]
      exact fieldsFinite_of_fits depth fields fit

theorem allFinite_of_fits : ∀ (depth : Nat) (items : List Json), fitsItems depth items = true →
    allFinite items = true
  | _, [], _ => rfl
  | depth, item :: rest, fit => by
      simp only [fitsItems, Bool.and_eq_true] at fit
      rw [allFinite, isFinite_of_fits depth item fit.1, allFinite_of_fits depth rest fit.2]
      rfl

theorem fieldsFinite_of_fits : ∀ (depth : Nat) (fields : List (String × Json)),
    fitsFields depth fields = true → fieldsFinite fields = true
  | _, [], _ => rfl
  | depth, (_, value) :: rest, fit => by
      simp only [fitsFields, Bool.and_eq_true] at fit
      rw [fieldsFinite, isFinite_of_fits depth value fit.1, fieldsFinite_of_fits depth rest fit.2]
      rfl

end

/-! ### Numbers -/

/-- What follows a value: a comma, a closing bracket or nothing. -/
def Closed (rest : List Char) : Prop :=
  ∀ c, rest.head? = some c → c = ',' ∨ c = ']' ∨ c = '\x7d'

theorem closed_nil : Closed [] := nofun

theorem closed_cons {c : Char} (closing : c = ',' ∨ c = ']' ∨ c = '\x7d') (rest : List Char) :
    Closed (c :: rest) := by
  intro d same
  cases same
  exact closing

theorem literal_natChars (n : Nat) {rest : List Char} (closed : Closed rest) :
    literal (Text.natChars n ++ rest) = some (⟨Text.natChars n, none, none⟩, rest) := by
  have apart : ∀ c, rest.head? = some c → c.isDigit = false := by
    intro c starts
    rcases closed c starts with rfl | rfl | rfl <;> decide
  obtain ⟨taken, dropped⟩ := Decimal.digits_before apart
  have whole : (Text.natChars n ++ rest).takeWhile Char.isDigit = Text.natChars n := by
    rw [List.takeWhile_append_of_pos fun c => Text.isDigit_of_mem_natChars, taken, List.append_nil]
  have tail : (Text.natChars n ++ rest).dropWhile Char.isDigit = rest := by
    rw [List.dropWhile_append_of_pos fun c => Text.isDigit_of_mem_natChars, dropped]
  have single : ¬((Text.natChars n).head? = some '0' ∧ (Text.natChars n).length ≠ 1) := by
    rcases Text.natChars_head_ne_zero n with single | leading
    · exact fun both => both.2 single
    · exact fun both => leading both.1
  have noFraction : fractionPart rest = some (none, rest) := by
    unfold fractionPart
    split
    · rcases closed _ rfl with point | point | point <;> cases point
    · rfl
  have noExponent : exponentPart rest = some (none, rest) := by
    cases rest with
    | nil => rfl
    | cons c rest =>
        have noLetter : ¬(c = 'e' ∨ c = 'E') := by
          rcases closed c rfl with rfl | rfl | rfl <;> decide
        simp only [exponentPart, Bool.or_eq_true, decide_eq_true_eq, if_neg noLetter]
  -- What follows the digits is no further digit, no point and no mark of an exponent.
  unfold literal
  rw [whole, tail]
  split
  · rename_i empty
    exact absurd empty (Text.natChars_ne_nil n)
  · rw [if_neg (by simpa using single), noFraction]
    simp only [noExponent, Option.map_some]

theorem number_unsigned {c : Char} (noSign : c ≠ '-') (cs : List Char) :
    number (c :: cs) =
      match literal (c :: cs) with
      | none => none
      | some (lit, tail) => (literalNumber false lit).map fun n => (n, tail) := by
  unfold number
  split
  · rename_i body _ split
    split at split
    · rename_i same
      exact absurd (List.cons.inj same).1 noSign
    · cases split
      rfl

theorem number_intChars {n : Int} (least : Number.minInt64 ≤ n) (most : n ≤ maxSignificand)
    {rest : List Char} (closed : Closed rest) :
    number (Text.intChars n ++ rest) = some (.int n, rest) := by
  unfold Text.intChars
  split
  · obtain ⟨k, size⟩ : ∃ k, n.natAbs = k := ⟨_, rfl⟩
    obtain rfl : n = -k := by omega
    have bounds : 0 < k ∧ Number.minInt64 ≤ -(k : Int) := ⟨by omega, least⟩
    simp [size, number, literal_natChars k closed, literalNumber, bounds]
  · obtain ⟨k, size⟩ : ∃ k, n.natAbs = k := ⟨_, rfl⟩
    obtain rfl : n = k := by omega
    have bound : k ≤ maxSignificand := by omega
    obtain ⟨c, digits, text, digit⟩ := Decimal.natChars_head k
    have noSign : c ≠ '-' := by
      intro same
      rw [same] at digit
      exact absurd digit (by decide)
    rw [size, text, List.cons_append, number_unsigned noSign, ← List.cons_append, ← text,
      literal_natChars k closed]
    simp [literalNumber, bound]

/-! ### Values -/

theorem isSpace_of_shapeOf {c : Char} (shape : shapeOf c ≠ 6) : isSpace c = false := by
  by_contra space
  simp only [isSpace, Bool.not_eq_false, Bool.or_eq_true, beq_iff_eq] at space
  refine shape ?_
  rcases space with ((rfl | rfl) | rfl) | rfl <;> decide

theorem skipSpace_compactChars {value : Json} (finite : value.isFinite = true) (rest : List Char) :
    skipSpace (value.compactChars ++ rest) = value.compactChars ++ rest := by
  obtain ⟨c, tail, text, shape⟩ := compactChars_head value finite
  have noSpace : isSpace c = false := by
    refine isSpace_of_shapeOf ?_
    rw [shape]
    cases value <;> nofun
  rw [text, List.cons_append, skipSpace, List.dropWhile_cons, noSpace]
  rfl

theorem skipSpace_cons {c : Char} (noSpace : isSpace c = false) (rest : List Char) :
    skipSpace (c :: rest) = c :: rest := by
  rw [skipSpace, List.dropWhile_cons, noSpace]
  rfl

theorem escapeChar_ne_nil (c : Char) : escapeChar c ≠ [] := by
  unfold escapeChar
  repeat' split
  all_goals exact List.cons_ne_nil _ _

theorem length_le_length_escaped (cs : List Char) :
    cs.length ≤ (cs.flatMap escapeChar).length := by
  induction cs with
  | nil => exact Nat.le_refl _
  | cons c cs ih =>
      have some := List.length_pos_of_ne_nil (escapeChar_ne_nil c)
      rw [List.flatMap_cons, List.length_append, List.length_cons]
      omega

theorem stringBody_stringChars (s : String) (rest : List Char) :
    ∃ body, stringChars s ++ rest = '"' :: body ∧
      stringBody (body.length + 1) body = some (s.toList, rest) := by
  refine ⟨s.toList.flatMap escapeChar ++ '"' :: rest, by simp [stringChars], ?_⟩
  refine stringBody_escaped _ _ ?_
  have long := length_le_length_escaped s.toList
  rw [List.length_append]
  omega

theorem value_number {c : Char} (shape : shapeOf c = 2) (fuel depth : Nat) (rest : List Char) :
    value (fuel + 1) depth (c :: rest) =
      (number (c :: rest)).map fun (n, tail) => (.num n, tail) := by
  have other {d : Char} (different : shapeOf d ≠ 2) : c ≠ d := by
    intro same
    exact different (same ▸ shape)
  have noSpace : isSpace c = false := isSpace_of_shapeOf (by rw [shape]; decide)
  have n : c ≠ 'n' := other (by decide)
  have t : c ≠ 't' := other (by decide)
  have f : c ≠ 'f' := other (by decide)
  have quote : c ≠ '"' := other (by decide)
  have bracket : c ≠ '[' := other (by decide)
  have brace : c ≠ '\x7b' := other (by decide)
  rw [value, skipSpace_cons noSpace]
  simp [quote, bracket, brace, Text.dropLead, n.symm, t.symm, f.symm]

theorem compactChars_length_pos {v : Json} (finite : v.isFinite = true) :
    0 < v.compactChars.length := by
  obtain ⟨c, rest, text, _⟩ := compactChars_head v finite
  rw [text]
  exact Nat.succ_pos _

mutual

theorem value_compactChars : ∀ (v : Json) (fuel depth : Nat) (rest : List Char),
    v.fits depth = true → 2 * v.compactChars.length ≤ fuel → Closed rest →
    value fuel depth (v.compactChars ++ rest) = some (v, rest)
  | v, 0, depth, rest, fit, enough, _ => by
      have long := compactChars_length_pos (isFinite_of_fits depth v fit)
      omega
  | .null, fuel + 1, depth, rest, _, _, _ => by
      simp [compactChars, value, skipSpace, isSpace, Text.dropLead]
  | .bool b, fuel + 1, depth, rest, _, _, _ => by
      cases b <;> simp [compactChars, value, skipSpace, isSpace, Text.dropLead]
  | .num (.int n), fuel + 1, depth, rest, fit, _, closed => by
      simp only [fits, Bool.and_eq_true, decide_eq_true_eq] at fit
      have read := number_intChars fit.1 fit.2 closed
      obtain ⟨c, text, starts, shape⟩ := numberChars_head (n := .int n) rfl
      simp only [compactChars]
      rw [starts, List.cons_append, value_number shape, ← List.cons_append, ← starts]
      simp only [numberChars, read, Option.map_some]
  | .num (.double _), fuel + 1, depth, rest, fit, _, _ => by simp [fits] at fit
  | .str s, fuel + 1, depth, rest, _, _, _ => by
      obtain ⟨body, text, read⟩ := stringBody_stringChars s rest
      simp only [compactChars]
      rw [text, value, skipSpace_cons (by decide)]
      simp only [read, Option.map_some, String.ofList_toList]
  | .arr _, _ + 1, 0, _, fit, _, _ | .obj _, _ + 1, 0, _, fit, _, _ => by simp [fits] at fit
  | .arr [], fuel + 1, depth + 1, rest, _, _, _ => by
      simp [compactChars, compactItems, value, skipSpace, isSpace]
  | .arr (item :: others), fuel + 1, depth + 1, rest, fit, enough, _ => by
      simp only [fits] at fit
      simp only [compactChars, List.length_cons] at enough ⊢
      have read := items_compactItems item others fuel depth rest fit (by omega)
      simp only [fitsItems, Bool.and_eq_true] at fit
      have finite := isFinite_of_fits depth item fit.1
      have text : compactItems (item :: others) ++ rest = item.compactChars ++
          ((if others = [] then [']'] else ',' :: compactItems others) ++ rest) := by
        rw [compactItems_cons, List.append_assoc]
      -- No item starts with the closing bracket, so the list is not taken for an empty one.
      have goesOn (tail) : item.compactChars ++
          ((if others = [] then [']'] else ',' :: compactItems others) ++ rest) ≠ ']' :: tail :=
        ne_closing item finite (by decide)
      rw [List.cons_append, value, skipSpace_cons (by decide)]
      rw [text] at read ⊢
      simp only [skipSpace_compactChars finite, read, Option.map_some]
  | .obj [], fuel + 1, depth + 1, rest, _, _, _ => by
      simp [compactChars, compactFields, value, skipSpace, isSpace]
  | .obj ((key, item) :: others), fuel + 1, depth + 1, rest, fit, enough, _ => by
      simp only [fits] at fit
      simp only [compactChars, List.length_cons] at enough ⊢
      have read := fields_compactFields key item others fuel depth rest fit (by omega)
      obtain ⟨text, starts⟩ : ∃ text, compactFields ((key, item) :: others) ++ rest =
          '"' :: text := ⟨_, by rw [compactFields_cons, stringChars]; rfl⟩
      rw [List.cons_append, value, skipSpace_cons (by decide)]
      rw [starts] at read ⊢
      simp [skipSpace_cons, isSpace, read]

theorem items_compactItems : ∀ (item : Json) (others : List Json) (fuel depth : Nat)
    (rest : List Char), fitsItems depth (item :: others) = true →
    2 * (compactItems (item :: others)).length ≤ fuel →
    items fuel depth (compactItems (item :: others) ++ rest) = some (item :: others, rest)
  | item, others, 0, depth, rest, fit, enough => by
      rw [compactItems_cons, List.length_append] at enough
      simp only [fitsItems, Bool.and_eq_true] at fit
      have long := compactChars_length_pos (isFinite_of_fits depth item fit.1)
      omega
  | item, [], fuel + 1, depth, rest, fit, enough => by
      simp only [fitsItems, Bool.and_eq_true] at fit
      rw [compactItems_cons, if_pos rfl, List.length_append, List.length_singleton] at enough
      have read := value_compactChars item fuel depth (']' :: rest) fit.1 (by omega)
        (closed_cons (by decide) rest)
      rw [compactItems_cons, if_pos rfl, List.append_assoc, items]
      simp [read, skipSpace_cons, isSpace]
  | item, next :: others, fuel + 1, depth, rest, fit, enough => by
      rw [fitsItems, Bool.and_eq_true] at fit
      rw [compactItems_cons, if_neg (List.cons_ne_nil _ _), List.length_append,
        List.length_cons] at enough
      have read := value_compactChars item fuel depth (',' :: (compactItems (next :: others) ++ rest))
        fit.1 (by omega) (closed_cons (by decide) _)
      have further := items_compactItems next others fuel depth rest fit.2 (by omega)
      rw [compactItems_cons, if_neg (List.cons_ne_nil _ _), List.append_assoc, List.cons_append,
        items]
      simp [read, skipSpace_cons, isSpace, further]

theorem fields_compactFields : ∀ (key : String) (item : Json) (others : List (String × Json))
    (fuel depth : Nat) (rest : List Char), fitsFields depth ((key, item) :: others) = true →
    2 * (compactFields ((key, item) :: others)).length ≤ fuel →
    fields fuel depth (compactFields ((key, item) :: others) ++ rest) =
      some ((key, item) :: others, rest)
  | key, item, others, 0, depth, rest, fit, enough => by
      rw [compactFields_cons, List.length_append, List.length_cons] at enough
      omega
  | key, item, [], fuel + 1, depth, rest, fit, enough => by
      simp only [fitsFields, Bool.and_eq_true] at fit
      simp only [compactFields_cons, if_pos, List.length_append, List.length_cons] at enough
      have read := value_compactChars item fuel depth ('\x7d' :: rest) fit.1 (by omega)
        (closed_cons (by decide) rest)
      obtain ⟨body, text, keyRead⟩ := stringBody_stringChars key
        (':' :: (item.compactChars ++ '\x7d' :: rest))
      have whole : compactFields [(key, item)] ++ rest = '"' :: body := by
        rw [compactFields_cons, if_pos rfl, ← text]
        simp
      rw [whole, fields]
      simp [skipSpace_cons, isSpace, keyRead, read, String.ofList_toList]
  | key, item, (nextKey, next) :: others, fuel + 1, depth, rest, fit, enough => by
      rw [fitsFields, Bool.and_eq_true] at fit
      rw [compactFields_cons, if_neg (List.cons_ne_nil _ _)] at enough
      simp only [List.length_append, List.length_cons] at enough
      have read := value_compactChars item fuel depth
        (',' :: (compactFields ((nextKey, next) :: others) ++ rest)) fit.1 (by omega)
        (closed_cons (by decide) _)
      have further := fields_compactFields nextKey next others fuel depth rest fit.2 (by omega)
      obtain ⟨body, text, keyRead⟩ := stringBody_stringChars key
        (':' :: (item.compactChars ++ ',' :: (compactFields ((nextKey, next) :: others) ++ rest)))
      have whole : compactFields ((key, item) :: (nextKey, next) :: others) ++ rest =
          '"' :: body := by
        rw [compactFields_cons, if_neg (List.cons_ne_nil _ _), ← text]
        simp
      rw [whole, fields]
      simp [skipSpace_cons, isSpace, keyRead, read, further, String.ofList_toList]

end

/-! ### Whole texts -/

theorem isBlank_of_shapeOf {c : Char} (shape : shapeOf c ≠ 6) : Text.isBlank c = false := by
  by_contra blank
  refine shape ?_
  have number : Decimal.isNumberChar c ≠ true := fun inside =>
    blank (Decimal.isBlank_of_isNumberChar inside)
  have different {d : Char} (unblank : Text.isBlank d = false) : c ≠ d := by
    rintro rfl
    exact blank unblank
  have noDigit : ¬(c.isDigit = true ∨ c = '-') := by
    rintro (digit | rfl)
    · exact number (Decimal.isNumberChar_of_isDigit digit)
    · exact number rfl
  unfold shapeOf
  rw [if_neg (different (by decide)),
    if_neg (not_or.mpr ⟨different (by decide), different (by decide)⟩), if_neg noDigit,
    if_neg (different (by decide)), if_neg (different (by decide)), if_neg (different (by decide))]

theorem compactItems_end (items : List Json) : ∃ body, compactItems items = body ++ [']'] := by
  induction items with
  | nil => exact ⟨[], rfl⟩
  | cons item rest ih =>
      obtain ⟨body, text⟩ := ih
      rw [compactItems_cons]
      split
      · exact ⟨_, rfl⟩
      · exact ⟨item.compactChars ++ ',' :: body, by rw [text]; simp⟩

theorem compactFields_end (fields : List (String × Json)) :
    ∃ body, compactFields fields = body ++ ['\x7d'] := by
  induction fields with
  | nil => exact ⟨[], rfl⟩
  | cons field rest ih =>
      obtain ⟨body, text⟩ := ih
      obtain ⟨key, value⟩ := field
      rw [compactFields_cons]
      split
      · exact ⟨stringChars key ++ ':' :: value.compactChars, by simp⟩
      · exact ⟨stringChars key ++ ':' :: (value.compactChars ++ ',' :: body), by rw [text]; simp⟩

theorem compactChars_last {value : Json} (finite : value.isFinite = true) {c : Char}
    (last : value.compactChars.getLast? = some c) : Text.isBlank c = false := by
  have closed (body : List Char) {d : Char} (text : value.compactChars = body ++ [d])
      (unblank : Text.isBlank d = false) : Text.isBlank c = false := by
    rw [text, List.getLast?_concat] at last
    exact Option.some.inj last ▸ unblank
  cases value with
  | null => exact closed ['n', 'u', 'l'] (by rw [compactChars]; rfl) (by decide)
  | bool b =>
      cases b with
      | false => exact closed ['f', 'a', 'l', 's'] (by rw [compactChars]; rfl) (by decide)
      | true => exact closed ['t', 'r', 'u'] (by rw [compactChars]; rfl) (by decide)
  | num n =>
      rw [compactChars] at last
      exact Decimal.isBlank_of_isNumberChar
        (isNumberChar_of_mem_number finite c (List.mem_of_getLast? last))
  | str s => exact closed _ (by rw [compactChars, stringChars]) (by decide)
  | arr items =>
      obtain ⟨body, text⟩ := compactItems_end items
      exact closed _ (by rw [compactChars, text, List.cons_append]) (by decide)
  | obj fields =>
      obtain ⟨body, text⟩ := compactFields_end fields
      exact closed _ (by rw [compactChars, text, ← List.cons_append]) (by decide)

theorem trimChars_compactChars {value : Json} (finite : value.isFinite = true) :
    Text.trimChars value.compactChars = value.compactChars := by
  obtain ⟨c, rest, text, shape⟩ := compactChars_head value finite
  have unblank : Text.isBlank c = false := by
    refine isBlank_of_shapeOf ?_
    rw [shape]
    cases value <;> nofun
  refine Text.trimChars_eq_self (fun d first => ?_) fun d => compactChars_last finite
  rw [text] at first
  exact Option.some.inj first ▸ unblank

theorem trim_compact {value : Json} (finite : value.isFinite = true) :
    Text.trim value.compact = value.compact := by
  rw [Text.trim, compact, String.toList_ofList, trimChars_compactChars finite]

/-- A value that fits is read back from its compact text. -/
theorem parseChars?_compactChars {v : Json} (fit : v.fits maxDepth = true) :
    parseChars? v.compactChars = some v := by
  have read := value_compactChars v (2 * v.compactChars.length + 2) maxDepth [] fit (by omega)
    closed_nil
  rw [List.append_nil] at read
  simp [parseChars?, read, skipSpace]

/-- A value that fits is read from its compact text with its fields in order. -/
theorem parse?_trim_compact {value : Json} (fit : value.fits maxDepth = true) :
    parse? (Text.trim value.compact) = some value.canonical := by
  rw [trim_compact (isFinite_of_fits maxDepth value fit), parse?, compact, String.toList_ofList,
    parseChars?_compactChars fit, Option.map_some]

end HubKeeper.Json
