import HubKeeper.Proofs.Number.Notation
import HubKeeper.Proofs.Number.Rounding
import HubKeeper.Proofs.Text.Basic
import HubKeeper.Toml.Bare
import HubKeeper.Toml.Spelling

/-!
Bare scalars read back.

Integers are written without leading zeros and floats with digits on both sides of a
point, so neither is taken for the other, and neither has the separators of a date or a
time.
-/

namespace HubKeeper

namespace Toml

variable {cs rest word : List Char}

/-! ### Runs of digits -/

theorem digitRun?_digits (nonempty : cs ≠ []) (digits : ∀ c ∈ cs, c.isDigit = true) :
    digitRun? Char.isDigit cs = some cs := by
  induction cs with
  | nil => exact absurd rfl nonempty
  | cons c rest ih =>
      have digit := digits c List.mem_cons_self
      have others : ∀ d ∈ rest, d.isDigit = true :=
        fun d member => digits d (List.mem_cons_of_mem _ member)
      cases rest with
      | nil => simp [digitRun?, digit]
      | cons d rest =>
          have notScore : d ≠ '_' := by
            rintro rfl
            have := others '_' List.mem_cons_self
            cases this
          rw [digitRun?.eq_4 _ _ _ (by simp) (by simpa using fun same => absurd same notScore)]
          simp [digit, ih (by simp) others]

theorem wholeDigits?_digits (nonempty : cs ≠ []) (digits : ∀ c ∈ cs, c.isDigit = true)
    (leading : cs.length = 1 ∨ cs.head? ≠ some '0') : wholeDigits? cs = some cs := by
  rw [wholeDigits?, digitRun?_digits nonempty digits, Option.filter, if_pos]
  simpa using leading

/-! ### What is no date and no time -/

theorem date?_eq_none (few : cs.count '-' ≤ 1) : date? cs = none := by
  unfold date?
  split
  · rename_i year month day parts
    have three := Text.length_fields '-' cs
    rw [parts] at three
    simp at three
    omega
  · rfl

theorem moment?_eq_none (noColon : ':' ∉ cs) (few : cs.count '-' ≤ 1) : moment? cs = none := by
  have noDate : date? (cs.take 10) = none :=
    date?_eq_none (Nat.le_trans ((List.take_sublist 10 cs).count_le _) few)
  have noTime : time? cs = none := by
    rw [time?, Text.fields_of_not_mem noColon]
  simp only [moment?, noDate, noTime, Option.map_none]

/-! ### Integers -/

theorem integer?_natChars {n : Nat} (fits : Number.fitsInt64 n = true) :
    integer? (Text.natChars n) = some (n : Int) := by
  have digits : ∀ c ∈ Text.natChars n, c.isDigit = true := fun _ => Text.isDigit_of_mem_natChars
  unfold integer?
  split
  · rename_i rest text
    have := digits 'x' (text ▸ by simp)
    cases this
  · rename_i rest text
    have := digits 'o' (text ▸ by simp)
    cases this
  · rename_i rest text
    have := digits 'b' (text ▸ by simp)
    cases this
  · simp only [Decimal.splitSign_natChars,
      wholeDigits?_digits (Text.natChars_ne_nil n) digits (Text.natChars_head_ne_zero n),
      Option.map_some, Text.decimalValue_natChars]
    simp [Option.filter, fits]

theorem integer?_intChars {n : Int} (fits : Number.fitsInt64 n = true) :
    integer? (Text.intChars n) = some n := by
  unfold Text.intChars
  split
  · rename_i negative
    have digits : ∀ c ∈ Text.natChars n.natAbs, c.isDigit = true :=
      fun _ => Text.isDigit_of_mem_natChars
    have value : -(n.natAbs : Int) = n := by omega
    simp only [integer?, Number.splitSign,
      wholeDigits?_digits (Text.natChars_ne_nil _) digits (Text.natChars_head_ne_zero _),
      Option.map_some, Text.decimalValue_natChars, if_true, value]
    simp [Option.filter, fits]
  · rename_i notNegative
    have value : (n.natAbs : Int) = n := by omega
    rw [integer?_natChars (by rw [value]; exact fits), value]

/-! ### Floats -/

/-- Digits on both sides of a point, without a needless leading zero. -/
structure PointForm (word whole fraction : List Char) : Prop where
  split : word = whole ++ '.' :: fraction
  wholeDigits : ∀ c ∈ whole, c.isDigit = true
  fractionDigits : ∀ c ∈ fraction, c.isDigit = true
  wholeSome : whole ≠ []
  fractionSome : fraction ≠ []
  leading : whole.length = 1 ∨ whole.head? ≠ some '0'

theorem natChars_head_of_pos {n : Nat} (positive : 0 < n) :
    (Text.natChars n).head? ≠ some '0' := by
  rcases Text.natChars_head_ne_zero n with single | leading
  · intro zero
    obtain ⟨c, text⟩ := List.length_eq_one_iff.mp single
    rw [text] at zero
    obtain rfl : c = '0' := by simpa using zero
    have value := Text.decimalValue_natChars n
    rw [text, show Text.decimalValue ['0'] = 0 from rfl] at value
    omega
  · exact leading

theorem pointForm_positional {d : Decimal} (positive : 0 < d.digits) :
    ∃ whole fraction, PointForm (d.positionalChars true) whole fraction := by
  have digits : ∀ c ∈ Text.natChars d.digits, c.isDigit = true :=
    fun _ => Text.isDigit_of_mem_natChars
  have leading := natChars_head_of_pos positive
  have headAppend : ∀ cs, (Text.natChars d.digits ++ cs).head? = (Text.natChars d.digits).head? := by
    intro cs
    rw [List.head?_append_of_ne_nil _ (Text.natChars_ne_nil _)]
  unfold Decimal.positionalChars
  split
  · exact ⟨Text.natChars d.digits ++ List.replicate d.scale.toNat '0', ['0'], by simp,
      fun c member => (List.mem_append.mp member).elim (digits c) Decimal.isDigit_of_mem_replicate,
      fun _ => Decimal.isDigit_of_mem_zero, by simp [Text.natChars_ne_nil], by simp,
      .inr (headAppend _ ▸ leading)⟩
  · rename_i fractional
    dsimp only
    split
    · rename_i inside
      have headTake : ((Text.natChars d.digits).take
          ((Text.natChars d.digits).length - (-d.scale).toNat)).head? =
            (Text.natChars d.digits).head? := by
        rw [List.head?_take, if_neg (by omega)]
      refine ⟨_, _, rfl, fun c member => digits c (List.mem_of_mem_take member),
        fun c member => digits c (List.mem_of_mem_drop member), ?_, ?_, .inr (headTake ▸ leading)⟩
      · exact List.ne_nil_of_length_pos (by rw [List.length_take]; omega)
      · exact List.ne_nil_of_length_pos (by rw [List.length_drop]; omega)
    · exact ⟨['0'], _, rfl, fun _ => Decimal.isDigit_of_mem_zero,
        fun c member => (List.mem_append.mp member).elim Decimal.isDigit_of_mem_replicate (digits c),
        by simp, by simp [Text.natChars_ne_nil], .inl rfl⟩

theorem decimal?_pointForm {whole fraction : List Char} (form : PointForm word whole fraction)
    (negative : Bool) :
    decimal? negative word =
      some (.ofDecimal negative (Decimal.ofChars word).digits (Decimal.ofChars word).scale) := by
  have notMark : ∀ c, c.isDigit = true ∨ c = '.' → isExponentMark c = false := by
    rintro c (digit | rfl)
    · cases mark : isExponentMark c with
      | false => rfl
      | true =>
          simp only [isExponentMark, Bool.or_eq_true, beq_iff_eq] at mark
          rcases mark with rfl | rfl <;> cases digit
    · rfl
  have noMark : splitBefore isExponentMark word = (word, []) := by
    have none : ∀ c ∈ word, (!isExponentMark c) = true := by
      intro c member
      rw [form.split, List.mem_append, List.mem_cons] at member
      rw [notMark c, Bool.not_false]
      rcases member with member | rfl | member
      · exact .inl (form.wholeDigits c member)
      · exact .inr rfl
      · exact .inl (form.fractionDigits c member)
    simp only [splitBefore, List.takeWhile_eq_self_iff.mpr none, List.dropWhile_eq_nil_iff.mpr none]
  have atPoint : splitBefore (· == '.') word = (whole, '.' :: fraction) := by
    have before : ∀ c ∈ whole, (!(c == '.')) = true := by
      intro c member
      have digit := form.wholeDigits c member
      simp only [Bool.not_eq_true', beq_eq_false_iff_ne, ne_eq]
      rintro rfl
      cases digit
    rw [splitBefore, form.split, List.takeWhile_append_of_pos before,
      List.dropWhile_append_of_pos before]
    simp
  have value := Decimal.ofChars_point form.wholeDigits form.fractionDigits
  rw [← form.split] at value
  simp only [decimal?, noMark, atPoint,
    wholeDigits?_digits form.wholeSome form.wholeDigits form.leading,
    digitRun?_digits form.fractionSome form.fractionDigits, value]

variable {x : Binary64}

theorem pointForm_unsigned (finite : x.isFinite = true) :
    ∃ whole fraction, PointForm (x.unsignedChars .document) whole fraction := by
  unfold Binary64.unsignedChars
  split
  · exact ⟨['0'], ['0'], rfl, fun _ => Decimal.isDigit_of_mem_zero,
      fun _ => Decimal.isDigit_of_mem_zero, by simp, by simp, .inl rfl⟩
  · rename_i nonzero
    refine pointForm_positional (d := x.shortest .up) ?_
    have positive := Binary64.shortest_pos .up finite (by simpa using nonzero)
    rcases Nat.eq_zero_or_pos (x.shortest .up).digits with zero | some
    · simp [Decimal.value, zero] at positive
    · exact some

theorem ofDecimal_unsigned (finite : x.isFinite = true) :
    Binary64.ofDecimal x.isNegative (Decimal.ofChars (x.unsignedChars .document)).digits
      (Decimal.ofChars (x.unsignedChars .document)).scale = x := by
  have value := Binary64.value_ofChars_unsigned .document x
  cases zero : x.isZero with
  | true =>
      have text : x.unsignedChars .document = ['0', '.', '0'] := by
        rw [Binary64.unsignedChars, if_pos zero]
        rfl
      have small : (0 : Nat) < Binary64.signUnit := by decide
      rw [text, show (Decimal.ofChars ['0', '.', '0']).digits = 0 from rfl, Binary64.ofDecimal,
        if_pos rfl, Binary64.zero]
      exact Binary64.ext_magnitude (Binary64.isNegative_ofParts small)
        ((Binary64.magnitude_ofParts small).trans ((Binary64.isZero_iff x).mp zero).symm)
  | false =>
      simp only [zero, Bool.false_eq_true, if_false] at value
      refine Binary64.ofDecimal_eq finite zero ?_ ?_
      · rw [value]
        exact Binary64.shortest_pos _ finite zero
      · rw [value]
        exact Binary64.shortest_mem _ finite zero

theorem float?_textChars (finite : x.isFinite = true) :
    float? (x.textChars .document) = some x := by
  obtain ⟨whole, fraction, form⟩ := pointForm_unsigned finite
  have point : '.' ∈ x.unsignedChars .document := by
    rw [form.split]
    simp
  have notInfinite : x ≠ .infinity false := by
    rintro rfl
    cases finite
  simp only [float?, Binary64.splitSign_textChars .document finite]
  -- A finite double is written with a point, which the words for the others lack.
  split
  · rename_i same
    rw [same] at point
    simp at point
  · rename_i same
    rw [same] at point
    simp at point
  · rw [decimal?_pointForm form, ofDecimal_unsigned finite]
    simp [Option.filter, notInfinite]

/-! ### Bare scalars -/

/-- A scalar that is written without quotes, and JSON that it is read as. -/
structure Bare (word : List Char) (json : Json) : Prop where
  nonempty : word ≠ []
  bare : word.all isBareChar = true
  read : ∃ scalar, bareScalar? word = some scalar ∧ scalar.toJson = json

/-- A number whose characters are those of integers and floats. -/
theorem bareScalar?_of_number (number : ∀ c ∈ word, Decimal.isNumberChar c = true)
    (few : word.count '-' ≤ 1) :
    bareScalar? word =
      match integer? word with
      | some n => some (.integer n)
      | none => (float? word).map .float := by
  have absent : ∀ c, Decimal.isNumberChar c = false → c ∉ word := by
    intro c other member
    rw [number c member] at other
    cases other
  unfold bareScalar?
  -- Both words have letters that no number has.
  split
  · exact absurd (List.mem_cons_self) (absent 't' (by decide))
  · exact absurd (List.mem_cons_self) (absent 'f' (by decide))
  · have noMoment := moment?_eq_none (absent ':' (by decide)) few
    split
    · rename_i found
      cases noMoment.symm.trans found
    · rfl

theorem isBareChar_of_isNumberChar {c : Char} (number : Decimal.isNumberChar c = true) :
    isBareChar c = true := by
  simp only [Decimal.isNumberChar, Bool.or_eq_true, List.contains_iff_mem, List.mem_cons,
    List.not_mem_nil, or_false] at number
  rcases number with digit | rfl | rfl | rfl | rfl
  · simp [isBareChar, Char.isAlphanum, digit]
  all_goals decide

theorem bare_intChars {n : Int} (fits : Number.fitsInt64 n = true) :
    Bare (Text.intChars n) (.ofInt n) := by
  have number : ∀ c ∈ Text.intChars n, Decimal.isNumberChar c = true := by
    unfold Text.intChars
    split
    · exact List.forall_mem_cons.mpr ⟨by decide, Decimal.isNumberChar_of_mem_natChars⟩
    · exact Decimal.isNumberChar_of_mem_natChars
  have few : (Text.intChars n).count '-' ≤ 1 := by
    have none : (Text.natChars n.natAbs).count '-' = 0 :=
      List.count_eq_zero_of_not_mem (Text.not_mem_natChars (by decide))
    unfold Text.intChars
    split
    · rw [List.count_cons_self, none]
    · rw [none]
      decide
  refine ⟨?_, List.all_eq_true.mpr fun c member => isBareChar_of_isNumberChar (number c member),
    .integer n, ?_, rfl⟩
  · unfold Text.intChars
    split
    · simp
    · exact Text.natChars_ne_nil _
  · rw [bareScalar?_of_number number few, integer?_intChars fits]

theorem digitRun?_eq_none {c : Char} (member : c ∈ cs) (noDigit : c.isDigit = false)
    (noScore : c ≠ '_') : digitRun? Char.isDigit cs = none := by
  have notDigit : ∀ {d}, d.isDigit = true → c ≠ d := by
    rintro d digit rfl
    rw [digit] at noDigit
    cases noDigit
  induction cs using digitRun?.induct Char.isDigit with
  | case1 => simp at member
  | case2 d digit => exact absurd (by simpa using member) (notDigit digit)
  | case3 d other => simp [digitRun?, other]
  | case4 d rest digit ih =>
      have behind : c ∈ rest := by simpa [notDigit digit, noScore] using member
      simp [digitRun?, ih behind]
  | case5 d rest other => simp [digitRun?, other]
  | case6 d rest notEmpty notScore digit ih =>
      have behind : c ∈ rest := by simpa [notDigit digit] using member
      rw [digitRun?.eq_4 _ _ _ notEmpty notScore, ih behind]
      simp
  | case7 d rest notEmpty notScore other =>
      rw [digitRun?.eq_4 _ _ _ notEmpty notScore]
      simp [other]

theorem integer?_eq_none (number : ∀ c ∈ word, Decimal.isNumberChar c = true)
    (point : '.' ∈ word) : integer? word = none := by
  have absent : ∀ c, Decimal.isNumberChar c = false → c ∉ word := by
    intro c other member
    rw [number c member] at other
    cases other
  have body : '.' ∈ (Number.splitSign word).2 := by
    unfold Number.splitSign
    split
    · simpa using point
    · simpa using point
    · exact point
  unfold integer?
  split
  · exact absurd (by simp) (absent 'x' (by decide))
  · exact absurd (by simp) (absent 'o' (by decide))
  · exact absurd (by simp) (absent 'b' (by decide))
  · have noRun := digitRun?_eq_none body (by decide) (by decide)
    simp only [wholeDigits?, noRun]
    rfl

theorem bare_textChars_of_isFinite (finite : x.isFinite = true) :
    Bare (x.textChars .document) (.ofDouble x) := by
  have number := Binary64.isNumberChar_of_mem_text .document finite
  obtain ⟨whole, fraction, form⟩ := pointForm_unsigned finite
  have text := Binary64.textChars_of_isFinite .document finite
  have none : (x.unsignedChars .document).count '-' = 0 := by
    refine List.count_eq_zero_of_not_mem ?_
    rw [form.split, List.mem_append, List.mem_cons]
    rintro (member | same | member)
    · cases form.wholeDigits '-' member
    · cases same
    · cases form.fractionDigits '-' member
  have few : (x.textChars .document).count '-' ≤ 1 := by
    rw [text, List.count_append, none]
    split <;> decide
  have point : '.' ∈ x.textChars .document := by
    rw [text, form.split]
    simp
  refine ⟨List.ne_nil_of_mem point,
    List.all_eq_true.mpr fun c member => isBareChar_of_isNumberChar (number c member),
    .float x, ?_, rfl⟩
  rw [bareScalar?_of_number number few, integer?_eq_none number point, float?_textChars finite]
  rfl

theorem bare_textChars_of_not_isFinite (infinite : x.isFinite = false) :
    Bare (x.textChars .document) (.ofDouble x) := by
  have json : Json.ofDouble x = .null := by simp [Json.ofDouble, infinite]
  have word : x.textChars .document ∈
      [['n', 'a', 'n'], ['-', 'n', 'a', 'n'], ['i', 'n', 'f'], ['-', 'i', 'n', 'f']] := by
    unfold Binary64.textChars
    split
    · cases x.isNegative <;> simp [NumberForm.document]
    · rw [infinite]
      cases x.isNegative <;> simp
  rw [json]
  generalize x.textChars .document = word at *
  simp only [List.mem_cons, List.not_mem_nil, or_false] at word
  rcases word with rfl | rfl | rfl | rfl
  · exact ⟨by decide, by decide, .float (.nan false), rfl, rfl⟩
  · exact ⟨by decide, by decide, .float (.nan true), rfl, rfl⟩
  · exact ⟨by decide, by decide, .float (.infinity false), rfl, rfl⟩
  · exact ⟨by decide, by decide, .float (.infinity true), rfl, rfl⟩

theorem bare_floatChars (x : Binary64) : Bare (x.textChars .document) (.ofDouble x) := by
  cases finite : x.isFinite with
  | true => exact bare_textChars_of_isFinite finite
  | false => exact bare_textChars_of_not_isFinite finite

theorem bare_boolean (b : Bool) : Bare (Scalar.boolean b).spellingChars (.bool b) := by
  cases b with
  | true => exact ⟨by decide, by decide, .boolean true, rfl, rfl⟩
  | false => exact ⟨by decide, by decide, .boolean false, rfl, rfl⟩

end Toml

end HubKeeper
