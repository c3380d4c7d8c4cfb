import HubKeeper.Json.Printer
import HubKeeper.Json.Reader
import HubKeeper.Proofs.Number.Notation

/-!
Compact JSON text tells which value it writes.

Strings and collections end where their closing character stands; a number ends where no
character of a number follows, which is so before a comma and a closing bracket.  So of
two texts that start alike, the values at their front are the same, and the rest too.
-/

namespace HubKeeper.Json

/-! ### Values that can be written -/

mutual

def isFinite : Json → Bool
  | .num (.double x) => x.isFinite
  | .arr items => allFinite items
  | .obj fields => fieldsFinite fields
  | _ => true

def allFinite : List Json → Bool
  | [] => true
  | item :: rest => item.isFinite && allFinite rest

def fieldsFinite : List (String × Json) → Bool
  | [] => true
  | (_, value) :: rest => value.isFinite && fieldsFinite rest

end

/-! ### Strings -/

theorem isHexDigit_hexDigit {n : Nat} (digit : n < 16) :
    Text.isHexDigit (Text.hexDigit n) = true := by
  have checked : ∀ k < 16, Text.isHexDigit (Text.hexDigit k) = true := by decide
  exact checked n digit

theorem hexValue_hexDigit {n : Nat} (digit : n < 16) : Text.hexValue (Text.hexDigit n) = n := by
  have checked : ∀ k < 16, Text.hexValue (Text.hexDigit k) = k := by decide
  exact checked n digit

theorem unicodeEscape_control {c : Char} (control : c.toNat < 32) (rest : List Char) :
    unicodeEscape ('0' :: '0' :: Text.hexDigit (c.toNat / 16) ::
      Text.hexDigit (c.toNat % 16) :: rest) = some (c, rest) := by
  have high : c.toNat / 16 < 16 := by omega
  have low : c.toNat % 16 < 16 := by omega
  have zero : Text.isHexDigit '0' = true ∧ Text.hexValue '0' = 0 := by decide
  have value : c.toNat / 16 * 16 + c.toNat % 16 = c.toNat := by omega
  have read : hex4 ('0' :: '0' :: Text.hexDigit (c.toNat / 16) ::
      Text.hexDigit (c.toNat % 16) :: rest) = some (c.toNat, rest) := by
    simp [hex4, zero, isHexDigit_hexDigit high, isHexDigit_hexDigit low, hexValue_hexDigit high,
      hexValue_hexDigit low, value]
  have noSurrogate : ¬0xd800 ≤ c.toNat ∧ ¬0xdc00 ≤ c.toNat := by omega
  simp [unicodeEscape, read, noSurrogate, Char.ofNat_toNat]

theorem stringBody_escapeChar (fuel : Nat) (c : Char) (rest : List Char) :
    stringBody (fuel + 1) (escapeChar c ++ rest) =
      (stringBody fuel rest).map fun (s, tail) => (c :: s, tail) := by
  by_cases quote : c = '"'
  · subst quote
    rfl
  by_cases backslash : c = '\\'
  · subst backslash
    rfl
  by_cases lineFeed : c = '\n'
  · subst lineFeed
    rfl
  by_cases carriageReturn : c = '\r'
  · subst carriageReturn
    rfl
  by_cases tab : c = '\t'
  · subst tab
    rfl
  by_cases backspace : c = '\x08'
  · subst backspace
    rfl
  by_cases formFeed : c = '\x0c'
  · subst formFeed
    rfl
  simp only [escapeChar, quote, backslash, lineFeed, carriageReturn, tab, backspace, formFeed,
    if_false]
  split
  · rename_i control
    simp [stringBody, unicodeEscape_control control]
  · rename_i plain
    simp [stringBody, quote, backslash, plain]

theorem stringBody_escaped (cs rest : List Char) {fuel : Nat} (enough : cs.length < fuel) :
    stringBody fuel (cs.flatMap escapeChar ++ '"' :: rest) = some (cs, rest) := by
  induction cs generalizing fuel with
  | nil =>
      obtain ⟨fuel, rfl⟩ := Nat.exists_eq_add_of_lt enough
      simp [stringBody]
  | cons c cs ih =>
      obtain ⟨fuel, rfl⟩ := Nat.exists_eq_add_of_lt enough
      rw [List.flatMap_cons, List.append_assoc, stringBody_escapeChar, ih (by simp; omega)]
      rfl

theorem stringChars_append_inj {s t : String} {rest tail : List Char}
    (same : stringChars s ++ rest = stringChars t ++ tail) : s = t ∧ rest = tail := by
  have body : s.toList.flatMap escapeChar ++ '"' :: rest =
      t.toList.flatMap escapeChar ++ '"' :: tail := by
    simpa [stringChars] using same
  have read := congrArg (stringBody (s.toList.length + t.toList.length + 1)) body
  rw [stringBody_escaped _ _ (by omega), stringBody_escaped _ _ (by omega), Option.some.injEq,
    Prod.mk.injEq, String.toList_inj] at read
  exact read

/-! ### Numbers -/

/-- No number goes on in a text. -/
def Apart (rest : List Char) : Prop :=
  ∀ c, rest.head? = some c → Decimal.isNumberChar c = false

theorem apart_cons {c : Char} (apart : Decimal.isNumberChar c = false) (rest : List Char) :
    Apart (c :: rest) := by
  rintro d ⟨rfl⟩
  exact apart

theorem isNumberChar_of_mem_intChars (n : Int) :
    ∀ c ∈ Text.intChars n, Decimal.isNumberChar c = true := by
  unfold Text.intChars
  split
  · exact List.forall_mem_cons.mpr ⟨by decide, Decimal.isNumberChar_of_mem_natChars⟩
  · exact Decimal.isNumberChar_of_mem_natChars

theorem isNumberChar_of_mem_number {n : JsonNumber} (finite : (Json.num n).isFinite = true) :
    ∀ c ∈ numberChars n, Decimal.isNumberChar c = true := by
  cases n with
  | int n => exact isNumberChar_of_mem_intChars n
  | double x => exact Binary64.isNumberChar_of_mem_text .json finite

theorem intChars_injective {n m : Int} (same : Text.intChars n = Text.intChars m) : n = m := by
  have apart (k l : Nat) (tail : List Char) : '-' :: tail ≠ Text.natChars k := fun found =>
    Text.not_mem_natChars (c := '-') (by decide) (found ▸ List.mem_cons_self)
  have magnitude {k l : Nat} (text : Text.natChars k = Text.natChars l) : k = l := by
    rw [← Text.decimalValue_natChars k, text, Text.decimalValue_natChars]
  unfold Text.intChars at same
  split at same <;> split at same
  · have := magnitude (List.cons.inj same).2
    omega
  · exact absurd same (apart _ 0 _)
  · exact absurd same.symm (apart _ 0 _)
  · have := magnitude same
    omega

theorem intChars_ne_double (n : Int) {x : Binary64} (finite : x.isFinite = true) :
    Text.intChars n ≠ x.textChars .json := by
  intro same
  obtain ⟨c, member, mark⟩ := Binary64.mem_text_of_pointZero .json rfl finite
  rw [← same, Text.intChars] at member
  have digits (k : Nat) : c ∉ Text.natChars k := by
    rcases mark with rfl | rfl <;> exact Text.not_mem_natChars (by decide)
  split at member
  · rcases List.mem_cons.mp member with rfl | member
    · rcases mark with mark | mark <;> cases mark
    · exact digits _ member
  · exact digits _ member

theorem numberChars_injective {n m : JsonNumber} (nFinite : (Json.num n).isFinite = true)
    (mFinite : (Json.num m).isFinite = true) (same : numberChars n = numberChars m) : n = m := by
  cases n with
  | int n =>
      cases m with
      | int m => rw [intChars_injective same]
      | double y => exact absurd same (intChars_ne_double n mFinite)
  | double x =>
      cases m with
      | int m => exact absurd same.symm (intChars_ne_double m nFinite)
      | double y => rw [Binary64.textChars_injective .json nFinite mFinite same]

theorem takeWhile_number {cs rest : List Char} (inside : ∀ c ∈ cs, Decimal.isNumberChar c = true)
    (apart : Apart rest) :
    (cs ++ rest).takeWhile Decimal.isNumberChar = cs ∧
      (cs ++ rest).dropWhile Decimal.isNumberChar = rest := by
  rw [List.takeWhile_append_of_pos inside, List.dropWhile_append_of_pos inside]
  cases rest with
  | nil => simp
  | cons c rest => simp [apart c rfl]

theorem numberChars_append_inj {n m : JsonNumber} {rest tail : List Char}
    (nFinite : (Json.num n).isFinite = true) (mFinite : (Json.num m).isFinite = true)
    (restApart : Apart rest) (tailApart : Apart tail)
    (same : numberChars n ++ rest = numberChars m ++ tail) : n = m ∧ rest = tail := by
  obtain ⟨nText, nRest⟩ := takeWhile_number (isNumberChar_of_mem_number nFinite) restApart
  obtain ⟨mText, mRest⟩ := takeWhile_number (isNumberChar_of_mem_number mFinite) tailApart
  rw [same] at nText nRest
  exact ⟨numberChars_injective nFinite mFinite (nText.symm.trans mText), nRest.symm.trans mRest⟩

/-! ### Values -/

def shapeOf (c : Char) : Nat :=
  if c = 'n' then 0
  else if c = 't' ∨ c = 'f' then 1
  else if c.isDigit ∨ c = '-' then 2
  else if c = '"' then 3
  else if c = '[' then 4
  else if c = '\x7b' then 5
  else 6

theorem shapeOf_isDigit {c : Char} (digit : c.isDigit = true) : shapeOf c = 2 := by
  have different {d : Char} (noDigit : d.isDigit = false) : c ≠ d := by
    rintro rfl
    rw [digit] at noDigit
    cases noDigit
  unfold shapeOf
  rw [if_neg (different (by decide)),
    if_neg (not_or.mpr ⟨different (by decide), different (by decide)⟩), if_pos (.inl digit)]

theorem numberChars_head {n : JsonNumber} (finite : (Json.num n).isFinite = true) :
    ∃ c rest, numberChars n = c :: rest ∧ shapeOf c = 2 := by
  have minus : shapeOf '-' = 2 := by decide
  cases n with
  | int n =>
      simp only [numberChars, Text.intChars]
      split
      · exact ⟨'-', _, rfl, minus⟩
      · obtain ⟨c, rest, text, digit⟩ := Decimal.natChars_head n.natAbs
        exact ⟨c, rest, text, shapeOf_isDigit digit⟩
  | double x =>
      obtain ⟨c, rest, text, digit⟩ := Binary64.unsignedChars_head .json x
      rw [numberChars, Binary64.textChars_of_isFinite _ finite, text]
      split
      · exact ⟨'-', _, rfl, minus⟩
      · exact ⟨c, rest, rfl, shapeOf_isDigit digit⟩

theorem compactChars_head (value : Json) (finite : value.isFinite = true) :
    ∃ c rest, value.compactChars = c :: rest ∧ shapeOf c = value.ctorIdx := by
  cases value with
  | null => exact ⟨'n', _, by rw [compactChars], by decide⟩
  | bool b => cases b <;> exact ⟨_, _, by rw [compactChars], by decide⟩
  | num n =>
      obtain ⟨c, rest, text, shape⟩ := numberChars_head finite
      exact ⟨c, rest, by rw [compactChars, text], shape⟩
  | str s =>
      have shape : shapeOf '"' = 3 := by decide
      exact ⟨'"', _, by rw [compactChars, stringChars, List.cons_append], shape⟩
  | arr items =>
      have shape : shapeOf '[' = 4 := by decide
      exact ⟨'[', _, by rw [compactChars], shape⟩
  | obj fields =>
      have shape : shapeOf '\x7b' = 5 := by decide
      exact ⟨'\x7b', _, by rw [compactChars], shape⟩

theorem ctorIdx_eq {value other : Json} {rest tail : List Char} (finite : value.isFinite = true)
    (otherFinite : other.isFinite = true)
    (same : value.compactChars ++ rest = other.compactChars ++ tail) :
    value.ctorIdx = other.ctorIdx := by
  obtain ⟨c, _, text, shape⟩ := compactChars_head value finite
  obtain ⟨d, _, otherText, otherShape⟩ := compactChars_head other otherFinite
  rw [text, otherText, List.cons_append, List.cons_append, List.cons.injEq] at same
  rw [← shape, ← otherShape, same.1]

theorem compactItems_cons (item : Json) (rest : List Json) :
    compactItems (item :: rest) =
      item.compactChars ++ if rest = [] then [']'] else ',' :: compactItems rest := by
  cases rest <;> simp [compactItems]

theorem compactFields_cons (key : String) (value : Json) (rest : List (String × Json)) :
    compactFields ((key, value) :: rest) =
      stringChars key ++ ':' :: (value.compactChars ++
        if rest = [] then ['\x7d'] else ',' :: compactFields rest) := by
  cases rest <;> simp [compactFields]

/-- What follows an item, and what follows a field. -/
theorem apart_after (closing : Char) (isClosing : Decimal.isNumberChar closing = false)
    (last : Prop) [Decidable last] (more rest : List Char) :
    Apart ((if last then [closing] else ',' :: more) ++ rest) := by
  split
  · exact apart_cons isClosing rest
  · exact apart_cons (by decide) _

theorem ne_closing (value : Json) (finite : value.isFinite = true) {closing : Char}
    (isClosing : shapeOf closing = 6) {rest tail : List Char} :
    value.compactChars ++ rest ≠ closing :: tail := by
  obtain ⟨c, text, starts, shape⟩ := compactChars_head value finite
  rw [starts, List.cons_append]
  intro same
  rw [(List.cons.inj same).1, isClosing] at shape
  cases value <;> cases shape

mutual

theorem compactChars_append_inj : ∀ (value other : Json) (rest tail : List Char),
    value.isFinite = true → other.isFinite = true → Apart rest → Apart tail →
    value.compactChars ++ rest = other.compactChars ++ tail → value = other ∧ rest = tail
  | .null, other, rest, tail, finite, otherFinite, _, _, same => by
      -- Texts that start alike are of values of one kind, which rules out all other cases.
      have shape := ctorIdx_eq finite otherFinite same
      cases other with
      | null => simpa [compactChars] using same
      | _ => cases shape
  | .bool b, other, rest, tail, finite, otherFinite, _, _, same => by
      have shape := ctorIdx_eq finite otherFinite same
      cases other with
      | bool c => cases b <;> cases c <;> simp_all [compactChars]
      | _ => cases shape
  | .num n, other, rest, tail, finite, otherFinite, restApart, tailApart, same => by
      have shape := ctorIdx_eq finite otherFinite same
      cases other with
      | num m =>
          simp only [compactChars] at same
          obtain ⟨rfl, ends⟩ :=
            numberChars_append_inj finite otherFinite restApart tailApart same
          exact ⟨rfl, ends⟩
      | _ => cases shape
  | .str s, other, rest, tail, finite, otherFinite, _, _, same => by
      have shape := ctorIdx_eq finite otherFinite same
      cases other with
      | str t =>
          simp only [compactChars] at same
          obtain ⟨rfl, ends⟩ := stringChars_append_inj same
          exact ⟨rfl, ends⟩
      | _ => cases shape
  | .arr items, other, rest, tail, finite, otherFinite, _, _, same => by
      have shape := ctorIdx_eq finite otherFinite same
      cases other with
      | arr others =>
          simp only [compactChars, List.cons_append, List.cons.injEq, true_and] at same
          obtain ⟨rfl, ends⟩ := compactItems_append_inj items others rest tail
            (by simpa [isFinite] using finite) (by simpa [isFinite] using otherFinite) same
          exact ⟨rfl, ends⟩
      | _ => cases shape
  | .obj fields, other, rest, tail, finite, otherFinite, _, _, same => by
      have shape := ctorIdx_eq finite otherFinite same
      cases other with
      | obj others =>
          simp only [compactChars, List.cons_append, List.cons.injEq, true_and] at same
          obtain ⟨rfl, ends⟩ := compactFields_append_inj fields others rest tail
            (by simpa [isFinite] using finite) (by simpa [isFinite] using otherFinite) same
          exact ⟨rfl, ends⟩
      | _ => cases shape

theorem compactItems_append_inj : ∀ (items others : List Json) (rest tail : List Char),
    allFinite items = true → allFinite others = true →
    compactItems items ++ rest = compactItems others ++ tail → items = others ∧ rest = tail
  | [], [], rest, tail, _, _, same => by
      simpa [compactItems] using same
  | [], other :: others, rest, tail, _, otherFinite, same => by
      simp only [allFinite, Bool.and_eq_true] at otherFinite
      rw [compactItems_cons, List.append_assoc] at same
      exact absurd same.symm (ne_closing other otherFinite.1 (by decide))
  | item :: items, [], rest, tail, finite, _, same => by
      simp only [allFinite, Bool.and_eq_true] at finite
      rw [compactItems_cons, List.append_assoc] at same
      exact absurd same (ne_closing item finite.1 (by decide))
  | item :: items, other :: others, rest, tail, finite, otherFinite, same => by
      simp only [allFinite, Bool.and_eq_true] at finite otherFinite
      rw [compactItems_cons, compactItems_cons, List.append_assoc, List.append_assoc] at same
      obtain ⟨rfl, ends⟩ := compactChars_append_inj item other _ _ finite.1 otherFinite.1
        (apart_after ']' (by decide) _ _ rest) (apart_after ']' (by decide) _ _ tail) same
      split at ends <;> split at ends
      · simp_all
      · simp at ends
      · simp at ends
      · simp only [List.cons_append, List.cons.injEq, true_and] at ends
        obtain ⟨rfl, after⟩ :=
          compactItems_append_inj items others rest tail finite.2 otherFinite.2 ends
        exact ⟨rfl, after⟩

theorem compactFields_append_inj : ∀ (fields others : List (String × Json)) (rest tail : List Char),
    fieldsFinite fields = true → fieldsFinite others = true →
    compactFields fields ++ rest = compactFields others ++ tail → fields = others ∧ rest = tail
  | [], [], rest, tail, _, _, same => by
      simpa [compactFields] using same
  | [], (key, other) :: others, rest, tail, _, _, same => by
      rw [compactFields_cons] at same
      simp [compactFields, stringChars] at same
  | (key, value) :: fields, [], rest, tail, _, _, same => by
      rw [compactFields_cons] at same
      simp [compactFields, stringChars] at same
  | (key, value) :: fields, (otherKey, other) :: others, rest, tail, finite, otherFinite, same => by
      simp only [fieldsFinite, Bool.and_eq_true] at finite otherFinite
      rw [compactFields_cons, compactFields_cons, List.append_assoc, List.append_assoc] at same
      obtain ⟨rfl, values⟩ := stringChars_append_inj same
      simp only [List.cons_append, List.cons.injEq, true_and, List.append_assoc] at values
      obtain ⟨rfl, ends⟩ := compactChars_append_inj value other _ _ finite.1 otherFinite.1
        (apart_after '\x7d' (by decide) _ _ rest) (apart_after '\x7d' (by decide) _ _ tail) values
      split at ends <;> split at ends
      · simp_all
      · simp at ends
      · simp at ends
      · simp only [List.cons_append, List.cons.injEq, true_and] at ends
        obtain ⟨rfl, after⟩ :=
          compactFields_append_inj fields others rest tail finite.2 otherFinite.2 ends
        exact ⟨rfl, after⟩

end

/-- Finite values with the same compact text are the same. -/
theorem compact_injective {value other : Json} (finite : value.isFinite = true)
    (otherFinite : other.isFinite = true) (same : value.compact = other.compact) :
    value = other := by
  have text : value.compactChars ++ [] = other.compactChars ++ [] := by
    simpa [compact] using congrArg String.toList same
  exact (compactChars_append_inj value other [] [] finite otherFinite nofun nofun text).1

end HubKeeper.Json
