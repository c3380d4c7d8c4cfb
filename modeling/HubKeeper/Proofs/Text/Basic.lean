import HubKeeper.Text.Ascii
import HubKeeper.Text.Blank
import HubKeeper.Text.Fields
import Mathlib

/-!
Laws of cutting, trimming, character classes, lower case and decimal texts.

Lower case changes ASCII letters only, so separators stay where they are.
-/

namespace HubKeeper.Text

/-! ### Fields -/

theorem fields_append_cons (sep : Char) (before after : List Char) :
    fields sep (before ++ sep :: after) = fields sep before ++ fields sep after := by
  induction before with
  | nil => simp [fields]
  | cons c rest ih =>
      simp only [List.cons_append, fields, ih]
      split
      · rfl
      · cases split : fields sep rest with
        | nil => exact absurd split (fields_ne_nil sep rest)
        | cons first others => rfl

theorem length_fields (sep : Char) (cs : List Char) :
    (fields sep cs).length = cs.count sep + 1 := by
  induction cs with
  | nil => rfl
  | cons c cs ih =>
      simp only [fields]
      split
      · rename_i same
        subst same
        simp [ih]
      · rename_i different
        cases parts : fields sep cs with
        | nil => exact absurd parts (fields_ne_nil sep cs)
        | cons first others =>
            rw [parts] at ih
            simpa [different] using ih

theorem fields_of_not_mem {sep : Char} {cs : List Char} (absent : sep ∉ cs) :
    fields sep cs = [cs] := by
  induction cs with
  | nil => rfl
  | cons c rest ih =>
      rw [List.mem_cons, not_or] at absent
      rw [fields, if_neg (Ne.symm absent.1), ih absent.2]

theorem intercalate_fields (sep : Char) (cs : List Char) :
    [sep].intercalate (fields sep cs) = cs := by
  induction cs with
  | nil => rfl
  | cons c rest ih =>
      simp only [fields]
      split
      · rename_i same
        cases parts : fields sep rest with
        | nil => exact absurd parts (fields_ne_nil sep rest)
        | cons first others =>
            rw [List.intercalate_cons_cons, ← parts, ih, same]
            rfl
      · cases parts : fields sep rest with
        | nil => exact absurd parts (fields_ne_nil sep rest)
        | cons first others =>
            rw [parts] at ih
            cases others with
            | nil => simpa using ih
            | cons second others =>
                rw [List.intercalate_cons_cons] at ih ⊢
                simpa using ih

theorem fields_injective {sep : Char} {cs ds : List Char} (same : fields sep cs = fields sep ds) :
    cs = ds := by
  rw [← intercalate_fields sep cs, same, intercalate_fields]

theorem intercalate_append_fields {sep : Char} {front : List (List Char)} (more : front ≠ [])
    (cs : List Char) :
    [sep].intercalate (front ++ fields sep cs) = [sep].intercalate front ++ sep :: cs := by
  induction front with
  | nil => exact absurd rfl more
  | cons first rest ih =>
      cases rest with
      | nil =>
          cases parts : fields sep cs with
          | nil => exact absurd parts (fields_ne_nil sep cs)
          | cons second others =>
              rw [List.singleton_append, List.intercalate_cons_cons, ← parts, intercalate_fields,
                List.intercalate_singleton, List.append_assoc]
              rfl
      | cons second others =>
          rw [List.cons_append, List.cons_append, List.intercalate_cons_cons, ← List.cons_append,
            ih (List.cons_ne_nil second others), List.intercalate_cons_cons, List.append_assoc,
            List.append_assoc, List.append_assoc]

/-- Parts without the separator are what their joined text is cut into. -/
theorem fields_intercalate {sep : Char} {parts : List (List Char)} (some : parts ≠ [])
    (apart : ∀ part ∈ parts, sep ∉ part) : fields sep ([sep].intercalate parts) = parts := by
  induction parts with
  | nil => exact absurd rfl some
  | cons first rest ih =>
      obtain ⟨absent, later⟩ := List.forall_mem_cons.mp apart
      cases rest with
      | nil => rw [List.intercalate_singleton, fields_of_not_mem absent]
      | cons second others =>
          rw [List.intercalate_cons_cons, List.append_assoc, List.singleton_append,
            fields_append_cons, fields_of_not_mem absent, ih (List.cons_ne_nil _ _) later]
          rfl

/-- The fields of a text end in those of another one where a separator cuts that one off. -/
theorem fields_suffix_iff {sep : Char} {cs whole : List Char} :
    fields sep cs <:+ fields sep whole ↔ whole = cs ∨ ∃ before, whole = before ++ sep :: cs := by
  constructor
  · rintro ⟨front, parts⟩
    have joined := congrArg [sep].intercalate parts
    rw [intercalate_fields] at joined
    by_cases more : front = []
    · rw [more, List.nil_append, intercalate_fields] at joined
      exact .inl joined.symm
    · rw [intercalate_append_fields more] at joined
      exact .inr ⟨_, joined.symm⟩
  · rintro (rfl | ⟨before, rfl⟩)
    · exact List.suffix_refl _
    · rw [fields_append_cons]
      exact List.suffix_append _ _

theorem nil_mem_fields_of_getLast? {sep : Char} {cs : List Char}
    (last : cs.getLast? = some sep) : [] ∈ fields sep cs := by
  obtain ⟨start, rfl⟩ := List.getLast?_eq_some_iff.mp last
  rw [fields_append_cons]
  simp [fields]

theorem mem_of_mem_field {sep c : Char} {cs part : List Char} (isPart : part ∈ fields sep cs)
    (member : c ∈ part) : c ∈ cs ∧ c ≠ sep := by
  induction cs generalizing part with
  | nil =>
      rw [fields, List.mem_singleton] at isPart
      rw [isPart] at member
      cases member
  | cons d cs ih =>
      simp only [fields] at isPart
      split at isPart
      · rcases List.mem_cons.mp isPart with rfl | later
        · cases member
        · obtain ⟨inside, different⟩ := ih later member
          exact ⟨List.mem_cons_of_mem _ inside, different⟩
      · rename_i different
        have nonempty := fields_ne_nil sep cs
        cases parts : fields sep cs with
        | nil => exact absurd parts nonempty
        | cons first others =>
            rw [parts] at isPart ih
            simp only [List.mem_cons] at isPart
            rcases isPart with rfl | later
            · rcases List.mem_cons.mp member with rfl | behind
              · exact ⟨List.mem_cons_self, different⟩
              · obtain ⟨inside, apart⟩ := ih List.mem_cons_self behind
                exact ⟨List.mem_cons_of_mem _ inside, apart⟩
            · obtain ⟨inside, apart⟩ := ih (List.mem_cons_of_mem _ later) member
              exact ⟨List.mem_cons_of_mem _ inside, apart⟩

theorem mem_fields_of_mem {sep c : Char} {cs : List Char} (member : c ∈ cs) (different : c ≠ sep) :
    ∃ part ∈ fields sep cs, c ∈ part := by
  induction cs with
  | nil => cases member
  | cons d rest ih =>
      simp only [fields]
      split
      · rename_i cut
        have later : c ∈ rest := (List.mem_cons.mp member).resolve_left fun same =>
          different (same.trans cut)
        obtain ⟨part, isPart, inside⟩ := ih later
        exact ⟨part, List.mem_cons_of_mem _ isPart, inside⟩
      · cases parts : fields sep rest with
        | nil => exact absurd parts (fields_ne_nil sep rest)
        | cons first others =>
            rw [parts] at ih
            rcases List.mem_cons.mp member with rfl | later
            · exact ⟨c :: first, List.mem_cons_self, List.mem_cons_self⟩
            · obtain ⟨part, isPart, inside⟩ := ih later
              rcases List.mem_cons.mp isPart with rfl | other
              · exact ⟨d :: part, List.mem_cons_self, List.mem_cons_of_mem _ inside⟩
              · exact ⟨part, List.mem_cons_of_mem _ other, inside⟩

theorem length_flatten_fields (sep : Char) (cs : List Char) :
    (fields sep cs).flatten.length + (fields sep cs).length = cs.length + 1 := by
  induction cs with
  | nil => rfl
  | cons c rest ih =>
      have nonempty := fields_ne_nil sep rest
      simp only [fields]
      split
      · simp only [List.flatten_cons, List.nil_append, List.length_cons]
        omega
      · cases parts : fields sep rest with
        | nil => exact absurd parts nonempty
        | cons first others =>
            rw [parts] at ih
            simp only [List.flatten_cons, List.cons_append, List.length_cons,
              List.length_append] at ih ⊢
            omega

theorem mem_of_mem_lines {c : Char} {cs line : List Char} (isLine : line ∈ lines cs)
    (member : c ∈ line) : c ∈ cs ∧ c ≠ '\n' := by
  have piece : ∃ part ∈ fields '\n' cs, c ∈ part := by
    have ended : line ∈ ((fields '\n' cs).dropLast.map fun line =>
        if line.getLast? = some '\r' then line.dropLast else line) →
          ∃ part ∈ fields '\n' cs, c ∈ part := by
      intro isEnded
      obtain ⟨part, isPart, rfl⟩ := List.mem_map.mp isEnded
      refine ⟨part, List.dropLast_subset _ isPart, ?_⟩
      split at member
      · exact List.dropLast_subset _ member
      · exact member
    simp only [lines] at isLine
    split at isLine
    · exact ended isLine
    · exact ended isLine
    · rename_i last _ isLast
      rcases List.mem_append.mp isLine with isEnded | isFinal
      · exact ended isEnded
      · rw [List.mem_singleton] at isFinal
        exact ⟨last, List.mem_of_getLast? isLast, isFinal ▸ member⟩
  obtain ⟨part, isPart, inside⟩ := piece
  exact mem_of_mem_field isPart inside

theorem not_mem_toList_append {c : Char} {before after : String} (notBefore : c ∉ before.toList)
    (notAfter : c ∉ after.toList) : c ∉ (before ++ after).toList := by
  simp [notBefore, notAfter]

theorem byteLength_append (before after : List Char) :
    byteLength (before ++ after) = byteLength before + byteLength after := by
  induction before with
  | nil => simp [byteLength]
  | cons c rest ih => simp only [List.cons_append, byteLength, ih, Nat.add_assoc]

theorem byteLength_replicate (n : Nat) (c : Char) :
    byteLength (List.replicate n c) = n * c.utf8Size := by
  induction n with
  | zero => simp [byteLength]
  | succ n ih => rw [List.replicate_succ, byteLength, ih, Nat.succ_mul, Nat.add_comm]

theorem utf8ByteSize_ofList (cs : List Char) : (String.ofList cs).utf8ByteSize = byteLength cs := by
  induction cs with
  | nil => rfl
  | cons c rest ih =>
      rw [String.ofList_cons, String.utf8ByteSize_append, ih, byteLength,
        String.utf8ByteSize_singleton]

theorem utf8ByteSize_eq (s : String) : s.utf8ByteSize = byteLength s.toList := by
  rw [← utf8ByteSize_ofList, String.ofList_toList]

theorem length_le_byteLength (cs : List Char) : cs.length ≤ byteLength cs := by
  induction cs with
  | nil => exact Nat.le_refl 0
  | cons c rest ih =>
      have := c.utf8Size_pos
      simp only [List.length_cons, byteLength]
      omega

/-! ### Trimming at the end -/

theorem dropEndWhile_concat (p : Char → Bool) (cs : List Char) (c : Char) :
    dropEndWhile p (cs ++ [c]) = if p c then dropEndWhile p cs else cs ++ [c] := by
  simp only [dropEndWhile, List.reverse_append, List.reverse_singleton, List.singleton_append,
    List.dropWhile_cons]
  split <;> simp

theorem dropEndWhile_of_getLast? {p : Char → Bool} {cs : List Char}
    (kept : ∀ c, cs.getLast? = some c → p c = false) : dropEndWhile p cs = cs := by
  rcases List.eq_nil_or_concat cs with rfl | ⟨start, c, rfl⟩
  · rfl
  · have stays : p c = false := kept c (by simp)
    rw [List.concat_eq_append, dropEndWhile_concat, stays]
    simp

theorem dropEndWhile_append_dropped (p : Char → Bool) (cs : List Char) :
    ∃ dropped, cs = dropEndWhile p cs ++ dropped ∧ ∀ c ∈ dropped, p c = true := by
  refine ⟨(cs.reverse.takeWhile p).reverse, ?_, fun c member => ?_⟩
  · rw [dropEndWhile, ← List.reverse_append, List.takeWhile_append_dropWhile, List.reverse_reverse]
  · exact List.all_eq_true.mp List.all_takeWhile c (List.mem_reverse.mp member)

theorem dropEndWhile_append_of_pos {p : Char → Bool} {back : List Char}
    (dropped : ∀ c ∈ back, p c = true) (cs : List Char) :
    dropEndWhile p (cs ++ back) = dropEndWhile p cs := by
  rw [dropEndWhile, List.reverse_append, List.dropWhile_append_of_pos (by simpa using dropped),
    dropEndWhile]

theorem trimChars_around {front back : List Char} (blankFront : ∀ c ∈ front, isBlank c = true)
    (blankBack : ∀ c ∈ back, isBlank c = true) (cs : List Char) :
    trimChars (front ++ cs ++ back) = trimChars cs := by
  rw [trimChars, trimStartChars, List.append_assoc, List.dropWhile_append_of_pos blankFront,
    List.dropWhile_append]
  split
  · rename_i blank
    rw [List.isEmpty_iff] at blank
    have gone : back.dropWhile isBlank = [] := List.dropWhile_eq_nil_iff.mpr blankBack
    rw [trimChars, trimStartChars, blank, gone]
  · exact dropEndWhile_append_of_pos blankBack _

/-- Nothing but blanks is trimmed off. -/
theorem exists_around_trimChars (cs : List Char) :
    ∃ front back, cs = front ++ trimChars cs ++ back ∧ (∀ c ∈ front, isBlank c = true) ∧
      ∀ c ∈ back, isBlank c = true := by
  obtain ⟨back, ends, blankBack⟩ := dropEndWhile_append_dropped isBlank (cs.dropWhile isBlank)
  refine ⟨cs.takeWhile isBlank, back, ?_, List.all_eq_true.mp List.all_takeWhile, blankBack⟩
  rw [List.append_assoc, trimChars, trimEndChars, trimStartChars, ← ends,
    List.takeWhile_append_dropWhile]

theorem mem_of_mem_trimChars {c : Char} {cs : List Char} (member : c ∈ trimChars cs) :
    c ∈ cs := by
  have start : c ∈ trimStartChars cs := by
    simpa using (List.dropWhile_sublist _).subset (List.mem_reverse.mp member)
  exact (List.dropWhile_sublist _).subset start

theorem trimChars_eq_self {cs : List Char} (first : ∀ c, cs.head? = some c → isBlank c = false)
    (last : ∀ c, cs.getLast? = some c → isBlank c = false) : trimChars cs = cs := by
  have start : trimStartChars cs = cs := by
    cases cs with
    | nil => rfl
    | cons c rest =>
        rw [trimStartChars, List.dropWhile_cons, first c rfl]
        rfl
  rw [trimChars, start]
  exact dropEndWhile_of_getLast? last

theorem head?_trimChars {cs : List Char} {c : Char} (first : (trimChars cs).head? = some c) :
    isBlank c = false := by
  obtain ⟨dropped, whole, _⟩ := dropEndWhile_append_dropped isBlank (trimStartChars cs)
  have start : (trimStartChars cs).head? = some c := by
    rw [whole, List.head?_append]
    exact Option.or_eq_some_iff.mpr (.inl first)
  have kept := List.head?_dropWhile_not isBlank cs
  rw [← trimStartChars, start] at kept
  simpa using kept

theorem getLast?_trimChars {cs : List Char} {c : Char}
    (last : (trimChars cs).getLast? = some c) : isBlank c = false := by
  rw [trimChars, trimEndChars, dropEndWhile, List.getLast?_reverse] at last
  have kept := List.head?_dropWhile_not isBlank (trimStartChars cs).reverse
  rw [last] at kept
  simpa using kept

/-- One text is what another one holds between the blanks at its ends. -/
structure TrimsTo (whole part : List Char) : Prop where
  around : ∃ front back, whole = front ++ part ++ back ∧ (∀ c ∈ front, isBlank c = true) ∧
    ∀ c ∈ back, isBlank c = true
  first : ∀ c, part.head? = some c → isBlank c = false
  last : ∀ c, part.getLast? = some c → isBlank c = false

theorem TrimsTo.mem {whole part : List Char} {c : Char} (trims : TrimsTo whole part)
    (member : c ∈ part) : c ∈ whole := by
  obtain ⟨front, back, rfl, _⟩ := trims.around
  simp [member]

theorem trimChars_eq_iff {whole part : List Char} :
    trimChars whole = part ↔ TrimsTo whole part := by
  constructor
  · rintro rfl
    exact ⟨exists_around_trimChars whole, fun _ => head?_trimChars, fun _ => getLast?_trimChars⟩
  · rintro ⟨⟨front, back, rfl, blankFront, blankBack⟩, first, last⟩
    rw [trimChars_around blankFront blankBack, trimChars_eq_self first last]

theorem trim_eq_iff {whole part : String} :
    trim whole = part ↔ TrimsTo whole.toList part.toList := by
  rw [← trimChars_eq_iff, trim, ← String.toList_inj, String.toList_ofList]

theorem trim_eq_self {s : String} (plain : ∀ c ∈ s.toList, isBlank c = false) : trim s = s := by
  apply String.toList_inj.mp
  rw [trim, String.toList_ofList]
  exact trimChars_eq_self (fun c first => plain c (List.mem_of_head? first))
    fun c last => plain c (List.mem_of_getLast? last)

@[simp] theorem toList_trimEndOf (c : Char) (s : String) :
    (trimEndOf c s).toList = dropEndWhile (· == c) s.toList :=
  String.toList_ofList

/-! ### Endings -/

theorem dropLead_eq_some_iff {lead cs rest : List Char} :
    dropLead lead cs = some rest ↔ cs = lead ++ rest := by
  induction lead generalizing cs with
  | nil => simp [dropLead]
  | cons l lead ih =>
      cases cs with
      | nil => simp [dropLead]
      | cons c cs =>
          simp only [dropLead, Option.ite_none_right_eq_some, ih, List.cons_append,
            List.cons.injEq]
          exact and_congr_left fun _ => eq_comm

/-! ### Cutting once -/

theorem eq_append_of_splitOnce {sep cs before after : List Char}
    (cut : splitOnce sep cs = some (before, after)) : cs = before ++ sep ++ after := by
  induction cs generalizing before with
  | nil =>
      simp only [splitOnce] at cut
      split at cut
      · rename_i empty
        cases cut
        simp [empty]
      · cases cut
  | cons c rest ih =>
      simp only [splitOnce] at cut
      split at cut
      · rename_i starts
        cases cut
        obtain ⟨tail, whole⟩ := List.isPrefixOf_iff_prefix.mp starts
        simp [← whole]
      · obtain ⟨⟨front, back⟩, further, same⟩ := Option.map_eq_some_iff.mp cut
        cases same
        simp [ih further]

theorem splitOnce_eq_none {sep cs : List Char} (absent : ¬ sep <:+: cs) :
    splitOnce sep cs = none := by
  cases cut : splitOnce sep cs with
  | none => rfl
  | some parts => exact absurd ⟨parts.1, parts.2, (eq_append_of_splitOnce cut).symm⟩ absent

/-- The cut is where the separator stands first: it does not even begin earlier. -/
theorem splitOnce_append {sep before : List Char} (solid : sep ≠ [])
    (first : ¬ sep <:+: before ++ sep.dropLast) (after : List Char) :
    splitOnce sep (before ++ sep ++ after) = some (before, after) := by
  induction before with
  | nil =>
      cases sep with
      | nil => exact absurd rfl solid
      | cons s sep => simp [splitOnce]
  | cons c before ih =>
      have later : ¬ sep <:+: before ++ sep.dropLast := fun inside =>
        first (inside.trans (List.suffix_cons c _).isInfix)
      have notHere : sep.isPrefixOf (c :: (before ++ sep ++ after)) = false := by
        rw [Bool.eq_false_iff, ne_eq, List.isPrefixOf_iff_prefix]
        intro starts
        have whole : c :: before ++ sep.dropLast <+: c :: (before ++ sep ++ after) := by
          rw [List.cons_append, List.cons_prefix_cons, List.append_assoc,
            List.prefix_append_right_inj]
          exact ⟨rfl, (List.dropLast_prefix sep).trans (List.prefix_append sep after)⟩
        have shorter : sep.length ≤ (c :: before ++ sep.dropLast).length := by
          simp
          omega
        exact first (List.prefix_of_prefix_length_le starts whole shorter).isInfix
      simp only [List.cons_append, splitOnce, notHere, ih later]
      rfl

/-! ### Letters and digits -/

def IsLetter (c : Char) : Prop :=
  'a' ≤ c ∧ c ≤ 'z' ∨ 'A' ≤ c ∧ c ≤ 'Z'

def IsDigit (c : Char) : Prop :=
  '0' ≤ c ∧ c ≤ '9'

theorem isAlpha_iff {c : Char} : c.isAlpha = true ↔ IsLetter c := by
  simp only [Char.isAlpha, Char.isUpper, Char.isLower, Bool.or_eq_true, Bool.and_eq_true,
    decide_eq_true_eq]
  exact or_comm

theorem isDigit_iff {c : Char} : c.isDigit = true ↔ IsDigit c := by
  rw [Char.isDigit, Bool.and_eq_true, decide_eq_true_eq, decide_eq_true_eq]
  exact Iff.rfl

theorem isAlphanum_iff {c : Char} : c.isAlphanum = true ↔ IsLetter c ∨ IsDigit c := by
  rw [Char.isAlphanum, Bool.or_eq_true, isAlpha_iff, isDigit_iff]

/-! ### Lower case -/

theorem toLower_of_not_isAlpha {c : Char} (plain : c.isAlpha = false) : c.toLower = c := by
  apply Char.toLower_eq_of_not_isUpper
  intro upper
  rw [Char.isAlpha, upper] at plain
  cases plain

/-- Only the character itself is lowered to one that is no letter. -/
theorem toLower_eq_iff {c d : Char} (plain : d.isAlpha = false) : c.toLower = d ↔ c = d := by
  constructor
  · intro lowered
    have same : c.isAlpha = false := by rw [← Char.isAlpha_toLower_eq_isAlpha, lowered, plain]
    rw [← lowered, toLower_of_not_isAlpha same]
  · rintro rfl
    exact toLower_of_not_isAlpha plain

@[simp] theorem toList_lower (s : String) : (lower s).toList = s.toList.map Char.toLower := by
  simp [lower, String.toList_map]

@[simp] theorem lower_lower (s : String) : lower (lower s) = lower s := by
  apply String.toList_inj.mp
  simp

theorem getLast?_lower_eq_iff {s : String} {c : Char} (plain : c.isAlpha = false) :
    (lower s).toList.getLast? = some c ↔ s.toList.getLast? = some c := by
  simp [List.getLast?_map, Option.map_eq_some_iff, toLower_eq_iff plain]

/-- What is the same for all letters is not changed by lower case. -/
theorem apply_toLower (letters : α) {f : Char → α}
    (same : ∀ c, c.isAlpha = true → f c = letters) (c : Char) : f c.toLower = f c := by
  cases alpha : c.isAlpha with
  | false => rw [toLower_of_not_isAlpha alpha]
  | true => rw [same c alpha, same c.toLower (by rw [Char.isAlpha_toLower_eq_isAlpha, alpha])]

theorem toNat_of_isAlpha {c : Char} (alpha : c.isAlpha = true) : 65 ≤ c.toNat ∧ c.toNat ≤ 122 := by
  simp [Char.isAlpha, Char.isUpper, Char.isLower, UInt32.le_iff_toNat_le] at alpha
  omega

theorem isDigit_toLower (c : Char) : c.toLower.isDigit = c.isDigit := by
  refine apply_toLower false (fun c alpha => ?_) c
  have bounds := toNat_of_isAlpha alpha
  simp [Char.isDigit, UInt32.le_iff_toNat_le]
  omega

theorem isBlank_toLower (c : Char) : isBlank c.toLower = isBlank c := by
  refine apply_toLower false (fun c alpha => ?_) c
  have bounds := toNat_of_isAlpha alpha
  simp [isBlank]
  omega

theorem utf8Size_toLower (c : Char) : c.toLower.utf8Size = c.utf8Size := by
  refine apply_toLower 1 (fun c alpha => ?_) c
  have bounds := toNat_of_isAlpha alpha
  rw [Char.utf8Size_eq_one_iff, UInt32.le_iff_toNat_le]
  simp
  omega

theorem byteLength_map_toLower (cs : List Char) :
    byteLength (cs.map Char.toLower) = byteLength cs := by
  induction cs with
  | nil => rfl
  | cons c rest ih => rw [List.map_cons, byteLength, byteLength, utf8Size_toLower, ih]

theorem fields_map_toLower {sep : Char} (plain : sep.isAlpha = false) (cs : List Char) :
    fields sep (cs.map Char.toLower) = (fields sep cs).map (·.map Char.toLower) := by
  induction cs with
  | nil => rfl
  | cons c rest ih =>
      simp only [List.map_cons, fields, toLower_eq_iff plain, ih]
      split
      · rfl
      · cases fields sep rest <;> rfl

/-! ### Decimal texts -/

theorem isDigit_of_mem_natChars {n : Nat} {c : Char} (member : c ∈ natChars n) :
    c.isDigit = true :=
  Nat.isDigit_of_mem_toDigits (by decide) (by decide) member

theorem not_mem_natChars {n : Nat} {c : Char} (noDigit : c.isDigit = false) : c ∉ natChars n := by
  intro member
  rw [isDigit_of_mem_natChars member] at noDigit
  cases noDigit

theorem natChars_ne_nil (n : Nat) : natChars n ≠ [] :=
  Nat.toDigits_ne_nil

@[simp] theorem decimalValue_natChars (n : Nat) : decimalValue (natChars n) = n := by
  have value := Nat.ofDigitChars_ten_toDigits (n := n)
  simpa [decimalValue, Nat.ofDigitChars, digitValue, natChars, Nat.mul_comm] using value

theorem decimalValue_append (before after : List Char) :
    decimalValue (before ++ after) =
      decimalValue before * 10 ^ after.length + decimalValue after := by
  induction after using List.reverseRecOn with
  | nil => simp [decimalValue]
  | append_singleton rest c ih =>
      have snoc (cs : List Char) : decimalValue (cs ++ [c]) = decimalValue cs * 10 + digitValue c :=
        List.foldl_append
      rw [← List.append_assoc, snoc, snoc, ih, List.length_append, List.length_singleton,
        Nat.pow_succ]
      ring

@[simp] theorem decimalValue_zeros (n : Nat) : decimalValue (List.replicate n '0') = 0 := by
  induction n with
  | zero => rfl
  | succ n ih =>
      rw [List.replicate_succ', decimalValue_append, ih]
      decide

theorem decimalValue_lt {digits : List Char} (all : ∀ c ∈ digits, c.isDigit = true) :
    decimalValue digits < 10 ^ digits.length := by
  induction digits with
  | nil => decide
  | cons c rest ih =>
      have further := ih fun d member => all d (List.mem_cons_of_mem _ member)
      have digit : digitValue c ≤ 9 := by
        have bounds := all c List.mem_cons_self
        simp only [Char.isDigit, Bool.and_eq_true, decide_eq_true_eq] at bounds
        have upper : c.toNat ≤ 57 := bounds.2
        simp only [digitValue]
        omega
      have split := decimalValue_append [c] rest
      have single : decimalValue [c] = digitValue c := by simp [decimalValue]
      rw [List.singleton_append, single] at split
      rw [split, List.length_cons, Nat.pow_succ]
      have scaled := Nat.mul_le_mul_right (10 ^ rest.length) digit
      omega

/-- A number is written without a leading zero, but for zero itself. -/
theorem natChars_head_ne_zero (n : Nat) :
    (natChars n).length = 1 ∨ (natChars n).head? ≠ some '0' := by
  by_contra bad
  rw [not_or, not_not] at bad
  obtain ⟨notSingle, zero⟩ := bad
  cases text : natChars n with
  | nil => exact natChars_ne_nil n text
  | cons c rest =>
      rw [text] at zero notSingle
      obtain rfl : c = '0' := by simpa using zero
      have value : decimalValue rest = n := by
        have whole := decimalValue_natChars n
        rw [text, show '0' :: rest = ['0'] ++ rest from rfl, decimalValue_append] at whole
        simpa [show decimalValue ['0'] = 0 from rfl] using whole
      have bound : decimalValue rest < 10 ^ rest.length := decimalValue_lt fun d member =>
        isDigit_of_mem_natChars (n := n) (text ▸ List.mem_cons_of_mem _ member)
      have nonempty : 0 < rest.length := by
        simp only [List.length_cons] at notSingle
        omega
      have short := (Nat.length_toDigits_le_iff (by decide) nonempty).mpr (value ▸ bound)
      have long : (Nat.toDigits 10 n).length = rest.length + 1 := congrArg List.length text
      omega

theorem natText_injective {n m : Nat} (same : natText n = natText m) : n = m := by
  have digits : Nat.toDigits 10 n = Nat.toDigits 10 m := by
    simpa [natText, natChars] using congrArg String.toList same
  have value := congrArg (fun cs => Nat.ofDigitChars 10 cs 0) digits
  simpa [Nat.ofDigitChars_ten_toDigits] using value

end HubKeeper.Text
