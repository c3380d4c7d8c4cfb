import HubKeeper.Number.Notation
import HubKeeper.Number.Scan
import HubKeeper.Proofs.Number.Shortest
import HubKeeper.Proofs.Text.Basic

/-!
Written doubles tell which double they are.

A written form is a decimal with its point moved, so the decimal can be read off it; and
the shortest decimal of a double lies in the interval of no other double.
-/

namespace HubKeeper

namespace Decimal

def ofChars (cs : List Char) : Decimal :=
  let whole := cs.takeWhile Char.isDigit
  match cs.dropWhile Char.isDigit with
  | '.' :: rest =>
      let fraction := rest.takeWhile Char.isDigit
      ⟨Text.decimalValue (whole ++ fraction),
        (Number.exponentPart? (rest.dropWhile Char.isDigit)).getD 0 - fraction.length⟩
  | rest => ⟨Text.decimalValue whole, (Number.exponentPart? rest).getD 0⟩

theorem digits_before {cs : List Char} (apart : ∀ c, cs.head? = some c → c.isDigit = false) :
    cs.takeWhile Char.isDigit = [] ∧ cs.dropWhile Char.isDigit = cs := by
  cases cs with
  | nil => exact ⟨rfl, rfl⟩
  | cons c rest => simp [apart c rfl]

section Parts

variable {whole fraction tail : List Char} (wholeDigits : ∀ c ∈ whole, c.isDigit = true)
variable (apart : ∀ c, tail.head? = some c → c.isDigit = false)
include wholeDigits apart

theorem ofChars_whole (noPoint : tail.head? ≠ some '.') :
    ofChars (whole ++ tail) =
      ⟨Text.decimalValue whole, (Number.exponentPart? tail).getD 0⟩ := by
  obtain ⟨taken, dropped⟩ := digits_before apart
  unfold ofChars
  rw [List.takeWhile_append_of_pos wholeDigits, List.dropWhile_append_of_pos wholeDigits, taken,
    dropped, List.append_nil]
  split
  · simp at noPoint
  · rfl

theorem ofChars_fraction (fractionDigits : ∀ c ∈ fraction, c.isDigit = true) :
    ofChars (whole ++ '.' :: (fraction ++ tail)) =
      ⟨Text.decimalValue (whole ++ fraction),
        (Number.exponentPart? tail).getD 0 - fraction.length⟩ := by
  obtain ⟨taken, dropped⟩ := digits_before apart
  have point : Char.isDigit '.' = false := by decide
  unfold ofChars
  rw [List.takeWhile_append_of_pos wholeDigits, List.dropWhile_append_of_pos wholeDigits,
    List.takeWhile_cons, List.dropWhile_cons, point]
  simp only [Bool.false_eq_true, if_false, List.append_nil]
  rw [List.takeWhile_append_of_pos fractionDigits, List.dropWhile_append_of_pos fractionDigits,
    taken, dropped, List.append_nil]

end Parts

theorem ofChars_point {whole fraction : List Char} (wholeDigits : ∀ c ∈ whole, c.isDigit = true)
    (fractionDigits : ∀ c ∈ fraction, c.isDigit = true) :
    ofChars (whole ++ '.' :: fraction) =
      ⟨Text.decimalValue (whole ++ fraction), -fraction.length⟩ := by
  have apart : ∀ c, ([] : List Char).head? = some c → c.isDigit = false := nofun
  have read := ofChars_fraction wholeDigits apart fractionDigits
  rwa [List.append_nil, show (Number.exponentPart? []).getD 0 = 0 from rfl, zero_sub] at read

/-! ### Layouts -/

variable {d : Decimal}

theorem isDigit_of_mem_replicate {n : Nat} {c : Char} (member : c ∈ List.replicate n '0') :
    c.isDigit = true := by
  rw [List.eq_of_mem_replicate member]
  decide

theorem value_shift (digits places : Nat) (scale : Int) :
    value ⟨digits * 10 ^ places, scale - places⟩ = value ⟨digits, scale⟩ := by
  simp only [value]
  rw [zpow_sub₀ (by norm_num), zpow_natCast]
  push_cast
  field_simp

theorem isDigit_of_mem_zero {c : Char} (member : c ∈ ['0']) : c.isDigit = true :=
  isDigit_of_mem_replicate (n := 1) member

theorem value_ofChars_whole (pointZero : Bool) (n k : Nat) :
    (ofChars (Text.natChars n ++ List.replicate k '0' ++
      (if pointZero then ['.', '0'] else []))).value = value ⟨n, k⟩ := by
  have digits : ∀ c ∈ Text.natChars n ++ List.replicate k '0', c.isDigit = true := fun c member =>
    (List.mem_append.mp member).elim Text.isDigit_of_mem_natChars isDigit_of_mem_replicate
  have number : Text.decimalValue (Text.natChars n ++ List.replicate k '0') = n * 10 ^ k := by
    simp [Text.decimalValue_append]
  have whole : value ⟨n * 10 ^ k, 0⟩ = value ⟨n, k⟩ := by
    have shifted := value_shift n k k
    rwa [sub_self] at shifted
  cases pointZero with
  | false =>
      rw [if_neg (by decide), ofChars_whole digits (by simp) (by simp), number]
      exact whole
  | true =>
      have zero : Text.decimalValue ['0'] = 0 := rfl
      rw [if_pos rfl, ofChars_point digits fun _ => isDigit_of_mem_zero, Text.decimalValue_append,
        number, zero, Nat.add_zero]
      have shifted := value_shift (n * 10 ^ k) 1 0
      rw [zero_sub] at shifted
      exact shifted.trans whole

theorem ofChars_inside {n places : Nat} (inside : places < (Text.natChars n).length) :
    ofChars ((Text.natChars n).take ((Text.natChars n).length - places) ++
      '.' :: (Text.natChars n).drop ((Text.natChars n).length - places)) = ⟨n, -places⟩ := by
  have digits : ∀ c ∈ Text.natChars n, c.isDigit = true := fun _ => Text.isDigit_of_mem_natChars
  have length : ((Text.natChars n).drop ((Text.natChars n).length - places)).length = places := by
    rw [List.length_drop]
    omega
  rw [ofChars_point (fun c member => digits c (List.mem_of_mem_take member))
    (fun c member => digits c (List.mem_of_mem_drop member)), List.take_append_drop, length,
    Text.decimalValue_natChars]

theorem ofChars_before {n places : Nat} (before : (Text.natChars n).length ≤ places) :
    ofChars ('0' :: '.' :: (List.replicate (places - (Text.natChars n).length) '0' ++
      Text.natChars n)) = ⟨n, -places⟩ := by
  have digits : ∀ c ∈ List.replicate (places - (Text.natChars n).length) '0' ++ Text.natChars n,
      c.isDigit = true := fun c member =>
    (List.mem_append.mp member).elim isDigit_of_mem_replicate Text.isDigit_of_mem_natChars
  have length : (List.replicate (places - (Text.natChars n).length) '0' ++
      Text.natChars n).length = places := by
    rw [List.length_append, List.length_replicate]
    omega
  have zero : Text.decimalValue ['0'] = 0 := rfl
  have read := ofChars_point (fun _ => isDigit_of_mem_zero) digits
  rwa [length, Text.decimalValue_append, Text.decimalValue_append, zero, Text.decimalValue_zeros,
    Text.decimalValue_natChars, zero_mul, zero_mul, zero_add, zero_add] at read

theorem value_ofChars_positional (pointZero : Bool) (d : Decimal) :
    (ofChars (d.positionalChars pointZero)).value = d.value := by
  unfold positionalChars
  split
  · rename_i whole
    have scale : (d.scale.toNat : Int) = d.scale := Int.toNat_of_nonneg whole
    rw [value_ofChars_whole, scale]
  · rename_i fractional
    have scale : -((-d.scale).toNat : Int) = d.scale := by omega
    dsimp only
    split
    · rename_i inside
      rw [ofChars_inside inside, scale]
    · rename_i outside
      rw [ofChars_before (Nat.not_lt.mp outside), scale]

theorem digits?_natChars (n : Nat) : Number.digits? (Text.natChars n) = some n := by
  have digits : (Text.natChars n).all Char.isDigit = true :=
    List.all_eq_true.mpr fun _ => Text.isDigit_of_mem_natChars
  simp [Number.digits?, Text.natChars_ne_nil, digits]

theorem splitSign_natChars (n : Nat) :
    Number.splitSign (Text.natChars n) = (false, Text.natChars n) := by
  unfold Number.splitSign
  split
  · rename_i rest same
    exact absurd (same ▸ List.mem_cons_self) (Text.not_mem_natChars (c := '-') (by decide))
  · rename_i rest same
    exact absurd (same ▸ List.mem_cons_self) (Text.not_mem_natChars (c := '+') (by decide))
  · rfl

theorem int?_intChars {n : Int} (fits : Number.fitsInt64 n = true) :
    Number.int? (Text.intChars n) = some n := by
  unfold Text.intChars
  by_cases negative : n < 0
  · have value : -(n.natAbs : Int) = n := by omega
    simp only [if_pos negative, Number.int?, Number.splitSign, digits?_natChars, if_true, value,
      fits]
  · have value : (n.natAbs : Int) = n := by omega
    simp only [if_neg negative, Number.int?, splitSign_natChars, digits?_natChars,
      Bool.false_eq_true, if_false, value, fits, if_true]

theorem exponentPart?_natChars (plus : Bool) (power : Int) :
    Number.exponentPart? ('e' ::
      ((if power < 0 then ['-'] else if plus then ['+'] else []) ++ Text.natChars power.natAbs)) =
        some power := by
  have opened (rest : List Char) : Number.exponentPart? ('e' :: rest) =
      (Number.digits? (Number.splitSign rest).2).map fun n =>
        if (Number.splitSign rest).1 then -(n : Int) else n := rfl
  rw [opened]
  by_cases negative : power < 0
  · rw [if_pos negative, List.singleton_append,
      show Number.splitSign ('-' :: Text.natChars power.natAbs) = (true, _) from rfl,
      digits?_natChars]
    exact congrArg some (by simp only [if_true]; omega)
  · have signless : Number.splitSign ((if plus then ['+'] else []) ++ Text.natChars power.natAbs) =
        (false, Text.natChars power.natAbs) := by
      cases plus with
      | false => exact splitSign_natChars _
      | true => rfl
    rw [if_neg negative, signless, digits?_natChars]
    exact congrArg some (by simp only [Bool.false_eq_true, if_false]; omega)

theorem ofChars_exponent (plus : Bool) (d : Decimal) : ofChars (d.exponentChars plus) = d := by
  have digits : ∀ c ∈ Text.natChars d.digits, c.isDigit = true := fun _ =>
    Text.isDigit_of_mem_natChars
  have nonempty : 0 < (Text.natChars d.digits).length :=
    List.length_pos_iff.mpr (Text.natChars_ne_nil d.digits)
  have read := exponentPart?_natChars plus d.leadingPower
  have apart : ∀ c, ('e' :: ((if d.leadingPower < 0 then ['-'] else if plus then ['+'] else []) ++
      Text.natChars d.leadingPower.natAbs)).head? = some c → c.isDigit = false := by
    rintro c ⟨rfl⟩
    decide
  simp only [exponentChars, List.append_assoc, List.cons_append]
  split
  · rename_i single
    rw [List.nil_append, ofChars_whole (fun c member => digits c (List.mem_of_mem_take member)) apart
      (by simp), read, List.take_of_length_le single.le, Text.decimalValue_natChars]
    simp only [Option.getD_some, leadingPower, single]
    congr 1
    omega
  · rw [List.cons_append, ofChars_fraction (fun c member => digits c (List.mem_of_mem_take member)) apart
      (fun c member => digits c (List.mem_of_mem_drop member)), read, List.take_append_drop,
      Text.decimalValue_natChars]
    simp only [Option.getD_some, leadingPower, List.length_drop]
    congr 1
    omega

/-! ### Characters -/

def isNumberChar (c : Char) : Bool :=
  c.isDigit || ['-', '+', '.', 'e'].contains c

theorem isNumberChar_of_isDigit {c : Char} (digit : c.isDigit = true) : isNumberChar c = true := by
  simp [isNumberChar, digit]

theorem isBlank_of_isNumberChar {c : Char} (inside : isNumberChar c = true) :
    Text.isBlank c = false := by
  simp only [isNumberChar, Bool.or_eq_true, List.contains_iff_mem, List.mem_cons,
    List.not_mem_nil, or_false] at inside
  rcases inside with digit | rfl | rfl | rfl | rfl
  · have bounds : 48 ≤ c.toNat ∧ c.toNat ≤ 57 := by
      simpa [Char.isDigit, UInt32.le_iff_toNat_le] using digit
    simp only [Text.isBlank]
    grind
  all_goals decide

theorem natChars_head (n : Nat) : ∃ c rest, Text.natChars n = c :: rest ∧ c.isDigit = true := by
  cases text : Text.natChars n with
  | nil => exact absurd text (Text.natChars_ne_nil n)
  | cons c rest =>
      exact ⟨c, rest, rfl, Text.isDigit_of_mem_natChars (text ▸ List.mem_cons_self)⟩

theorem positionalChars_head (pointZero : Bool) (d : Decimal) :
    ∃ c rest, d.positionalChars pointZero = c :: rest ∧ c.isDigit = true := by
  obtain ⟨c, rest, text, digit⟩ := natChars_head d.digits
  unfold positionalChars
  dsimp only
  split
  · rw [text]
    exact ⟨c, _, rfl, digit⟩
  · split
    · rename_i inside
      obtain ⟨k, count⟩ := Nat.exists_eq_add_of_lt inside
      rw [show (Text.natChars d.digits).length - (-d.scale).toNat = k + 1 by omega, text]
      exact ⟨c, _, rfl, digit⟩
    · exact ⟨'0', _, rfl, rfl⟩

theorem exponentChars_head (plus : Bool) (d : Decimal) :
    ∃ c rest, d.exponentChars plus = c :: rest ∧ c.isDigit = true := by
  obtain ⟨c, rest, text, digit⟩ := natChars_head d.digits
  unfold exponentChars
  rw [text]
  exact ⟨c, _, rfl, digit⟩

theorem isNumberChar_of_mem_natChars {n : Nat} : ∀ c ∈ Text.natChars n, isNumberChar c = true :=
  fun _ member => isNumberChar_of_isDigit (Text.isDigit_of_mem_natChars member)

theorem isNumberChar_of_mem_zeros {n : Nat} :
    ∀ c ∈ List.replicate n '0', isNumberChar c = true :=
  fun _ member => isNumberChar_of_isDigit (isDigit_of_mem_replicate member)

theorem isNumberChar_of_mem_positional (pointZero : Bool) (d : Decimal) :
    ∀ c ∈ d.positionalChars pointZero, isNumberChar c = true := by
  have digits := isNumberChar_of_mem_natChars (n := d.digits)
  unfold positionalChars
  dsimp only
  split
  · refine List.forall_mem_append.mpr
      ⟨List.forall_mem_append.mpr ⟨digits, isNumberChar_of_mem_zeros⟩, ?_⟩
    cases pointZero <;> simp [isNumberChar]
  · split
    · exact List.forall_mem_append.mpr ⟨fun c member => digits c (List.mem_of_mem_take member),
        List.forall_mem_cons.mpr ⟨rfl, fun c member => digits c (List.mem_of_mem_drop member)⟩⟩
    · exact List.forall_mem_cons.mpr ⟨rfl, List.forall_mem_cons.mpr ⟨rfl,
        List.forall_mem_append.mpr ⟨isNumberChar_of_mem_zeros, digits⟩⟩⟩

theorem isNumberChar_of_mem_exponent (plus : Bool) (d : Decimal) :
    ∀ c ∈ d.exponentChars plus, isNumberChar c = true := by
  have digits := isNumberChar_of_mem_natChars (n := d.digits)
  unfold exponentChars
  dsimp only
  refine List.forall_mem_append.mpr ⟨List.forall_mem_append.mpr
    ⟨List.forall_mem_append.mpr ⟨fun c member => digits c (List.mem_of_mem_take member), ?_⟩,
      List.forall_mem_cons.mpr ⟨rfl, ?_⟩⟩, isNumberChar_of_mem_natChars⟩
  · split
    · exact List.forall_mem_nil _
    · exact List.forall_mem_cons.mpr ⟨rfl, fun c member => digits c (List.mem_of_mem_drop member)⟩
  · split
    · simp [isNumberChar]
    · cases plus <;> simp [isNumberChar]

/-- A point or an exponent tells a written double from an integer. -/
theorem mem_positional (d : Decimal) : '.' ∈ d.positionalChars true := by
  unfold positionalChars
  dsimp only
  split
  · simp
  · split <;> simp

theorem mem_exponent (plus : Bool) (d : Decimal) : 'e' ∈ d.exponentChars plus := by
  simp [exponentChars]

end Decimal

namespace Binary64

variable {form : NumberForm} {x y : Binary64}

def unsignedChars (form : NumberForm) (x : Binary64) : List Char :=
  if x.isZero then '0' :: (if form.pointZero then ['.', '0'] else []) else x.magnitudeChars form

theorem textChars_of_isFinite (form : NumberForm) (finite : x.isFinite = true) :
    x.textChars form = (if x.isNegative then ['-'] else []) ++ x.unsignedChars form := by
  have number : x.isNaN = false := by
    have field : (x.exponentField == topExponent) = false := by simpa [isFinite] using finite
    simp [isNaN, field]
  simp only [textChars, number, finite, unsignedChars, Bool.not_true, Bool.false_eq_true, if_false]
  split <;> rfl

theorem value_ofChars_magnitude (form : NumberForm) (x : Binary64) :
    (Decimal.ofChars (x.magnitudeChars form)).value = (x.shortest form.tie).value := by
  unfold magnitudeChars
  dsimp only
  split
  · exact Decimal.value_ofChars_positional _ _
  · split
    · exact Decimal.value_ofChars_positional _ _
    · rw [Decimal.ofChars_exponent]

theorem value_ofChars_unsigned (form : NumberForm) (x : Binary64) :
    (Decimal.ofChars (x.unsignedChars form)).value =
      if x.isZero then 0 else (x.shortest form.tie).value := by
  unfold unsignedChars
  split
  · have zero := Decimal.value_ofChars_whole form.pointZero 0 0
    simpa [Text.natChars, Decimal.value] using zero
  · exact value_ofChars_magnitude form x

theorem unsignedChars_head (form : NumberForm) (x : Binary64) :
    ∃ c rest, x.unsignedChars form = c :: rest ∧ c.isDigit = true := by
  unfold unsignedChars magnitudeChars
  dsimp only
  split
  · exact ⟨'0', _, rfl, rfl⟩
  · split
    · exact Decimal.positionalChars_head _ _
    · split
      · exact Decimal.positionalChars_head _ _
      · exact Decimal.exponentChars_head _ _

theorem splitSign_textChars (form : NumberForm) (finite : x.isFinite = true) :
    Number.splitSign (x.textChars form) = (x.isNegative, x.unsignedChars form) := by
  rw [textChars_of_isFinite form finite]
  cases x.isNegative with
  | true => rfl
  | false =>
      obtain ⟨c, rest, text, digit⟩ := unsignedChars_head form x
      rw [text]
      unfold Number.splitSign
      split
      · rename_i same
        cases same
        cases digit
      · rename_i same
        cases same
        cases digit
      · rfl

theorem textChars_injective (form : NumberForm) (xFinite : x.isFinite = true)
    (yFinite : y.isFinite = true) (same : x.textChars form = y.textChars form) : x = y := by
  have parts : x.isNegative = y.isNegative ∧ x.unsignedChars form = y.unsignedChars form := by
    have split := splitSign_textChars form xFinite
    rw [same, splitSign_textChars form yFinite, Prod.mk.injEq] at split
    exact ⟨split.1.symm, split.2.symm⟩
  -- Of one sign, doubles differ in their magnitudes, and the shortest decimals tell these.
  refine ext_magnitude parts.1 ?_
  have values := congrArg (fun cs => (Decimal.ofChars cs).value) parts.2
  simp only [value_ofChars_unsigned] at values
  cases xZero : x.isZero with
  | true =>
      cases yZero : y.isZero with
      | true => rw [(isZero_iff x).mp xZero, (isZero_iff y).mp yZero]
      | false =>
          simp only [xZero, yZero, if_true, Bool.false_eq_true, if_false] at values
          exact absurd values (shortest_pos _ yFinite yZero).ne
  | false =>
      cases yZero : y.isZero with
      | true =>
          simp only [xZero, yZero, if_true, Bool.false_eq_true, if_false] at values
          exact absurd values (shortest_pos _ xFinite xZero).ne'
      | false =>
          simp only [xZero, yZero, Bool.false_eq_true, if_false] at values
          exact magnitude_eq_of_shortest xFinite xZero yFinite yZero values

/-! ### The form in JSON text -/

theorem isNumberChar_of_mem_unsigned (form : NumberForm) (x : Binary64) :
    ∀ c ∈ x.unsignedChars form, Decimal.isNumberChar c = true := by
  unfold unsignedChars magnitudeChars
  dsimp only
  split
  · cases form.pointZero <;> simp [Decimal.isNumberChar]
  · split
    · exact Decimal.isNumberChar_of_mem_positional _ _
    · split
      · exact Decimal.isNumberChar_of_mem_positional _ _
      · exact Decimal.isNumberChar_of_mem_exponent _ _

theorem isNumberChar_of_mem_text (form : NumberForm) (finite : x.isFinite = true) :
    ∀ c ∈ x.textChars form, Decimal.isNumberChar c = true := by
  rw [textChars_of_isFinite _ finite]
  refine List.forall_mem_append.mpr ⟨?_, isNumberChar_of_mem_unsigned form x⟩
  split <;> simp [Decimal.isNumberChar]

/-- With a fraction for whole numbers, a double is never written like an integer. -/
theorem mem_text_of_pointZero (form : NumberForm) (pointZero : form.pointZero = true)
    (finite : x.isFinite = true) : ∃ c ∈ x.textChars form, c = '.' ∨ c = 'e' := by
  have mark : ∃ c ∈ x.unsignedChars form, c = '.' ∨ c = 'e' := by
    unfold unsignedChars magnitudeChars
    dsimp only
    rw [pointZero]
    split
    · exact ⟨'.', by simp, .inl rfl⟩
    · split
      · exact ⟨'.', Decimal.mem_positional _, .inl rfl⟩
      · split
        · exact ⟨'.', Decimal.mem_positional _, .inl rfl⟩
        · exact ⟨'e', Decimal.mem_exponent _ _, .inr rfl⟩
  obtain ⟨c, member, isMark⟩ := mark
  rw [textChars_of_isFinite _ finite]
  exact ⟨c, List.mem_append_right _ member, isMark⟩

end Binary64

end HubKeeper
