import HubKeeper.Proofs.Collections.Lookup
import HubKeeper.Proofs.Toml.Quoting
import HubKeeper.Proofs.Toml.Scalars
import HubKeeper.Toml.Printer
import HubKeeper.Toml.Value

/-!
Keys and values read back in the default layout.

What is read carries a spelling and decor that the written node had not, so the two are
compared as JSON.  Arrays and inline tables hold texts only, which is all that settings
put into them.
-/

namespace HubKeeper.Toml

variable {cs rest blanks : List Char} {c : Char}

/-! ### Blanks -/

theorem blank_nil : ∀ c ∈ [], isBlank c = true :=
  List.forall_mem_nil _

theorem blank_space : ∀ c ∈ [' '], isBlank c = true :=
  List.forall_mem_singleton.mpr rfl

theorem splitBlanks_append (blank : ∀ c ∈ blanks, isBlank c = true) (rest : List Char)
    (apart : ∀ c, rest.head? = some c → isBlank c = false) :
    splitBlanks (blanks ++ rest) = (blanks, rest) := by
  have stop : rest.takeWhile isBlank = [] ∧ rest.dropWhile isBlank = rest := by
    cases rest with
    | nil => exact ⟨rfl, rfl⟩
    | cons c rest => simp [apart c rfl]
  simp only [splitBlanks, List.takeWhile_append_of_pos blank, List.dropWhile_append_of_pos blank,
    stop.1, stop.2, List.append_nil]

/-- A character at which blanks, line ends and comments end. -/
def isSolid (c : Char) : Bool :=
  !isBlank c && c != '\n' && c != '\r' && c != '#'

theorem splitTrivia_solid (solid : isSolid c = true) :
    splitTrivia (c :: rest) false = ([], c :: rest) := by
  simp only [isSolid, Bool.and_eq_true, Bool.not_eq_true', bne_iff_ne, ne_eq] at solid
  obtain ⟨⟨⟨notBlank, notLine⟩, notReturn⟩, notComment⟩ := solid
  unfold splitTrivia
  split
  · rename_i same; cases same
  · rename_i same; cases same; exact absurd rfl notLine
  · rename_i same; cases same; exact absurd rfl notReturn
  · rename_i same
    cases same
    simp [notBlank, notComment]

theorem splitTrivia_blanks (blank : ∀ c ∈ blanks, isBlank c = true) (solid : isSolid c = true)
    (rest : List Char) :
    splitTrivia (blanks ++ c :: rest) false = (blanks, c :: rest) := by
  induction blanks with
  | nil => exact splitTrivia_solid solid
  | cons b blanks ih =>
      have here := blank b List.mem_cons_self
      have notLine : b ≠ '\n' ∧ b ≠ '\r' := by
        constructor <;> (rintro rfl; cases here)
      rw [List.cons_append, splitTrivia.eq_4 _ _ _ (by simpa using notLine.1)
        (by simp [notLine.2])]
      simp [here, ih fun d member => blank d (List.mem_cons_of_mem _ member)]

/-! ### Keys -/

theorem isBareKeyChar_cases (bare : isBareKeyChar c = true) :
    isBlank c = false ∧ c ≠ '"' ∧ c ≠ '\'' ∧ c ≠ '\x7d' := by
  refine ⟨?_, ?_, ?_, ?_⟩
  · cases blank : isBlank c with
    | false => rfl
    | true =>
        simp only [isBlank, Bool.or_eq_true, beq_iff_eq] at blank
        rcases blank with rfl | rfl <;> cases bare
  all_goals
    rintro rfl
    cases bare

def KeyEnd (rest : List Char) : Prop :=
  ∀ c, rest.head? = some c → isBareKeyChar c = false

theorem keyName?_bare (nonempty : cs ≠ []) (bare : cs.all isBareKeyChar = true)
    (ends : KeyEnd rest) : keyName? (cs ++ rest) = some (.ofList cs, rest) := by
  have bare := List.all_eq_true.mp bare
  have stop : rest.takeWhile isBareKeyChar = [] ∧ rest.dropWhile isBareKeyChar = rest := by
    cases rest with
    | nil => exact ⟨rfl, rfl⟩
    | cons c rest => simp [ends c rfl]
  obtain ⟨c, cs, rfl⟩ := List.exists_cons_of_ne_nil nonempty
  obtain ⟨_, notDouble, notSingle, _⟩ := isBareKeyChar_cases (bare c List.mem_cons_self)
  have taken : (c :: cs ++ rest).takeWhile isBareKeyChar = c :: cs := by
    rw [List.takeWhile_append_of_pos bare, stop.1, List.append_nil]
  have dropped : (c :: cs ++ rest).dropWhile isBareKeyChar = rest := by
    rw [List.dropWhile_append_of_pos bare, stop.2]
  unfold keyName?
  split
  · rename_i same; cases same; exact absurd rfl notDouble
  · rename_i same; cases same; exact absurd rfl notSingle
  · rw [taken, dropped]

theorem keyName?_basicChars (cs rest : List Char) :
    keyName? (basicChars cs ++ rest) = some (.ofList cs, rest) := by
  have bound := length_le_basicBody cs
  have read : basicBody? ((basicBody cs ++ '"' :: rest).length + 1) (basicBody cs ++ '"' :: rest) =
      some (cs, rest) :=
    basicBody?_basicBody (by simp only [List.length_append]; omega)
  have written : basicChars cs ++ rest = '"' :: (basicBody cs ++ '"' :: rest) := by
    simp [basicChars]
  rw [written]
  simp only [keyName?, lineText?, if_true, read, Option.map_some]

theorem keyName?_keyChars (ends : KeyEnd rest) (cs : List Char) :
    keyName? (keyChars cs ++ rest) = some (.ofList cs, rest) := by
  simp only [keyChars]
  split_ifs with bare basic literal
  · simp only [Bool.and_eq_true, bne_iff_ne] at bare
    exact keyName?_bare bare.1 bare.2 ends
  · exact keyName?_basicChars cs rest
  · simp only [Bool.and_eq_true, Bool.not_eq_true', List.any_eq_false, Bool.or_eq_true, not_or,
      beq_iff_eq] at literal
    have plain : ∀ c ∈ cs, isPlainChar c = true := fun c member =>
      isPlainChar_of_not_needsEscape (by simpa using (literal.1 c member).1) (literal.1 c member).2
    have noQuote : '\'' ∉ cs := by simpa using literal.2
    have read := literalBody?_append plain noQuote rest
    simp only [List.cons_append, List.append_assoc, List.nil_append, keyName?, lineText?, read]
    rfl
  · exact keyName?_basicChars cs rest

theorem keyChars_head (cs : List Char) :
    ∃ c tail, keyChars cs = c :: tail ∧ isBlank c = false ∧ c ≠ '\x7d' := by
  simp only [keyChars]
  split_ifs with bare basic literal
  · simp only [Bool.and_eq_true, bne_iff_ne, List.all_eq_true] at bare
    obtain ⟨c, cs, rfl⟩ := List.exists_cons_of_ne_nil bare.1
    obtain ⟨notBlank, _, _, notEnd⟩ := isBareKeyChar_cases (bare.2 c List.mem_cons_self)
    exact ⟨c, cs, rfl, notBlank, notEnd⟩
  · exact ⟨_, _, rfl, rfl, by decide⟩
  · exact ⟨_, _, rfl, rfl, by decide⟩
  · exact ⟨_, _, rfl, rfl, by decide⟩

theorem dottedKey?_keyChars {after : List Char} {close : Char} (lead : Raw) (tail : List Char)
    (blank : ∀ c ∈ blanks, isBlank c = true) (afterBlank : ∀ c ∈ after, isBlank c = true)
    (ends : KeyEnd (after ++ close :: tail)) (closes : isBlank close = false) (last : close ≠ '.')
    (name : String) :
    ∃ key : Key, key.name = name ∧
      dottedKey? lead (blanks ++ (keyChars name.toList ++ (after ++ close :: tail))) =
        some (([], key), close :: tail) := by
  obtain ⟨c, spelled, head, notBlank, _⟩ := keyChars_head name.toList
  have start := splitBlanks_append blank (keyChars name.toList ++ (after ++ close :: tail))
    (by rw [head]; simpa using notBlank)
  have named := keyName?_keyChars ends name.toList
  have ended := splitBlanks_append afterBlank (close :: tail) (by simpa using closes)
  generalize spelled : consumed (keyChars name.toList ++ (after ++ close :: tail))
    (after ++ close :: tail) = spelling
  have part : keyPart? (blanks ++ (keyChars name.toList ++ (after ++ close :: tail))) =
      some (⟨blanks, name, spelling, after⟩, close :: tail) := by
    simp only [keyPart?, start, named, ended, String.ofList_toList, spelled]
  have parts : keyParts? maxKeyParts (blanks ++ (keyChars name.toList ++ (after ++ close :: tail))) =
      some ([⟨blanks, name, spelling, after⟩], close :: tail) := by
    rw [show maxKeyParts = 78 + 1 from rfl, keyParts?, part]
    split
    · rename_i same; cases same
    · rename_i same; cases same; exact absurd rfl last
    · rename_i same; cases same; rfl
  refine ⟨⟨name, some spelling, ⟨some (lead ++ blanks), some after⟩, ⟨some [], some []⟩⟩, rfl, ?_⟩
  rw [dottedKey?, parts]
  rfl

/-! ### Scalars -/

theorem value?_scalar {fuel depth : Nat} (noArray : cs.head? ≠ some '[')
    (noTable : cs.head? ≠ some '\x7b') : value? (fuel + 1) depth cs = scalar? cs := by
  unfold value?
  split
  · simp at noArray
  · simp at noTable
  · simp at noArray
  · simp at noArray
  · simp at noTable
  · rfl

@[simp] theorem toJson_withDecor (decor : Decor) (node : Node) :
    (node.withDecor decor).toJson = node.toJson := by
  cases node <;> simp [Node.withDecor, Node.toJson]

theorem textChars_head (cs : List Char) :
    ∃ quote tail, textChars cs = quote :: tail ∧ (quote = '"' ∨ quote = '\'') := by
  simp only [textChars]
  split_ifs
  · exact ⟨_, _, rfl, .inl rfl⟩
  · exact ⟨_, _, rfl, .inr rfl⟩
  · exact ⟨_, _, rfl, .inl rfl⟩
  · exact ⟨_, _, rfl, .inr rfl⟩
  · exact ⟨_, _, rfl, .inl rfl⟩
  · exact ⟨_, _, rfl, .inl rfl⟩

theorem value?_text (fuel depth : Nat) (apart : Unquoted rest) (s : String) :
    ∃ node, value? (fuel + 1) depth (textChars s.toList ++ rest) = some (node, rest) ∧
      node.toJson = .str s := by
  obtain ⟨quote, tail, text, isQuote⟩ := textChars_head s.toList
  have head : (textChars s.toList ++ rest).head? = some quote := by rw [text]; rfl
  refine ⟨.scalar (.text s) (some (consumed (textChars s.toList ++ rest) rest)) .tight, ?_, rfl⟩
  rw [value?_scalar (by rw [head]; rcases isQuote with rfl | rfl <;> decide)
    (by rw [head]; rcases isQuote with rfl | rfl <;> decide)]
  simp only [scalar?, quotedText?_textChars apart, String.ofList_toList]

theorem bareSpelling_line {word : List Char} (bare : word.all isBareChar = true)
    (tail : List Char) : bareSpelling (word ++ '\n' :: tail) = (word, '\n' :: tail) := by
  have bare := List.all_eq_true.mp bare
  have line : isBareChar '\n' = false := by decide
  have taken : (word ++ '\n' :: tail).takeWhile isBareChar = word := by
    rw [List.takeWhile_append_of_pos bare, List.takeWhile_cons_of_neg (by simp [line]),
      List.append_nil]
  have dropped : (word ++ '\n' :: tail).dropWhile isBareChar = '\n' :: tail := by
    rw [List.dropWhile_append_of_pos bare, List.dropWhile_cons_of_neg (by simp [line])]
  unfold bareSpelling
  simp only [taken, dropped]
  split
  · rename_i same; cases same
  · rfl

theorem value?_bare {word : List Char} {json : Json} (fuel depth : Nat) (bare : Bare word json)
    (tail : List Char) :
    ∃ node, value? (fuel + 1) depth (word ++ '\n' :: tail) = some (node, '\n' :: tail) ∧
      node.toJson = json := by
  obtain ⟨nonempty, all, scalar, read, value⟩ := bare
  obtain ⟨c, word, rfl⟩ := List.exists_cons_of_ne_nil nonempty
  have bare : isBareChar c = true := List.all_eq_true.mp all c List.mem_cons_self
  have notQuote : c ≠ '"' ∧ c ≠ '\'' := by
    constructor <;> (rintro rfl; cases bare)
  have unquoted : quotedText? (c :: word ++ '\n' :: tail) = none := by
    unfold quotedText?
    split
    · rename_i same
      injection same with first
      simp [← first, notQuote]
    · rename_i same
      injection same with first
      simp [← first, notQuote]
    · rfl
  refine ⟨.scalar scalar (some (c :: word)) .tight, ?_, value⟩
  rw [value?_scalar (by rintro same; cases same; cases bare) (by rintro same; cases same; cases bare)]
  simp only [scalar?, unquoted, bareSpelling_line all, read, Option.map_some]

/-! ### Arrays -/

theorem valueChars_ofText (before after : List Char) (s : String) :
    valueChars (before, after) (.ofText s) = before ++ textChars s.toList ++ after := by
  simp [Node.ofText, valueChars, Decor.default, Decor.beforeChars, Decor.afterChars,
    Scalar.spellingChars]

theorem isSolid_of_quote {quote : Char} (isQuote : quote = '"' ∨ quote = '\'') :
    isSolid quote = true ∧ quote ≠ ']' := by
  rcases isQuote with rfl | rfl <;> decide

section Items

variable {fuel depth : Nat} {tail next : List Char} {quote : Char} {node : Node}
variable (blank : ∀ c ∈ blanks, isBlank c = true) (isQuote : quote = '"' ∨ quote = '\'')

include blank isQuote

theorem items?_last (read : value? fuel depth (quote :: tail) = some (node, ']' :: rest)) :
    items? (fuel + 1) depth (blanks ++ quote :: tail) =
      some (([node.withDecor ⟨some blanks, some []⟩], false, []), rest) := by
  obtain ⟨solid, noEnd⟩ := isSolid_of_quote isQuote
  have start := splitTrivia_blanks blank solid tail
  have close : splitTrivia (']' :: rest) false = ([], ']' :: rest) := splitTrivia_solid (by decide)
  simp only [items?, start, read, close]
  split
  · rename_i same
    exact absurd (List.cons.inj same).1 noEnd
  · rfl

theorem items?_more (read : value? fuel depth (quote :: tail) = some (node, ',' :: next)) :
    items? (fuel + 1) depth (blanks ++ quote :: tail) =
      (items? fuel depth next).map fun ((items, comma, trailing), rest) =>
        ((node.withDecor ⟨some blanks, some []⟩ :: items, comma, trailing), rest) := by
  obtain ⟨solid, noEnd⟩ := isSolid_of_quote isQuote
  have start := splitTrivia_blanks blank solid tail
  have close : splitTrivia (',' :: next) false = ([], ',' :: next) := splitTrivia_solid (by decide)
  simp only [items?, start, read, close]
  split
  · rename_i same
    exact absurd (List.cons.inj same).1 noEnd
  · rfl

end Items

/-- Items read back from one of them on, with the blanks before it. -/
theorem items?_texts {fuel : Nat} (depth : Nat) (blank : ∀ c ∈ blanks, isBlank c = true)
    (s : String) (items : List String) (enough : items.length + 1 < fuel) (rest : List Char) :
    ∃ nodes, items? fuel depth (blanks ++ (textChars s.toList ++
        (itemsChars false (items.map .ofText) ++ ']' :: rest))) = some ((nodes, false, []), rest) ∧
      Node.itemsToJson nodes = (s :: items).map .str := by
  induction items generalizing s fuel blanks with
  | nil =>
      obtain ⟨fuel, rfl⟩ : ∃ less, fuel = less + 2 := ⟨fuel - 2, by simp at enough; omega⟩
      obtain ⟨quote, tail, text, isQuote⟩ := textChars_head s.toList
      have apart : Unquoted (']' :: rest) := by constructor <;> simp
      obtain ⟨node, read, json⟩ := value?_text fuel depth apart s
      refine ⟨[node.withDecor ⟨some blanks, some []⟩], ?_, by simp [Node.itemsToJson, json]⟩
      rw [List.map_nil, itemsChars, List.nil_append]
      rw [text, List.cons_append] at read ⊢
      exact items?_last blank isQuote read
  | cons next items ih =>
      obtain ⟨fuel, rfl⟩ : ∃ less, fuel = less + 2 := ⟨fuel - 2, by simp at enough; omega⟩
      obtain ⟨quote, tail, text, isQuote⟩ := textChars_head s.toList
      have written : itemsChars false ((next :: items).map .ofText) ++ ']' :: rest =
          ',' :: ([' '] ++ (textChars next.toList ++
            (itemsChars false (items.map .ofText) ++ ']' :: rest))) := by
        simp [itemsChars, valueChars_ofText]
      have apart : ∀ cs, Unquoted (',' :: cs) := fun cs => by constructor <;> simp
      obtain ⟨node, read, json⟩ := value?_text fuel depth (apart _) s
      obtain ⟨nodes, further, others⟩ := ih blank_space next
        (show items.length + 1 < fuel + 1 by simp at enough; omega)
      refine ⟨node.withDecor ⟨some blanks, some []⟩ :: nodes, ?_,
        by simp [Node.itemsToJson, json, others]⟩
      rw [written]
      rw [text, List.cons_append] at read ⊢
      rw [items?_more blank isQuote read, further]
      rfl

theorem value?_array {fuel depth : Nat} (notEnd : cs.head? ≠ some ']') :
    value? (fuel + 1) (depth + 1) ('[' :: cs) =
      (items? fuel depth cs).map fun ((items, comma, trailing), tail) =>
        (.array items ⟨trailing, comma, .tight⟩, tail) := by
  rw [value?.eq_5]
  intro tail same
  simp [same] at notEnd

theorem value?_texts {fuel : Nat} (depth : Nat) (items : List String)
    (enough : items.length + 1 < fuel) (rest : List Char) :
    ∃ node, value? fuel (depth + 1)
        (valueChars ([], []) (.array (items.map .ofText) .default) ++ rest) = some (node, rest) ∧
      node.toJson = .arr (items.map .str) := by
  obtain ⟨fuel, rfl⟩ := Nat.exists_eq_add_one_of_ne_zero (show fuel ≠ 0 by omega)
  have written : valueChars ([], []) (.array (items.map .ofText) .default) ++ rest =
      '[' :: (itemsChars true (items.map .ofText) ++ ']' :: rest) := by
    simp [valueChars, ArrayLayout.default, Decor.default, Decor.beforeChars, Decor.afterChars,
      rawChars]
  rw [written]
  cases items with
  | nil =>
      refine ⟨.array [] ⟨[], false, .tight⟩, ?_, by simp [Node.toJson, Node.itemsToJson]⟩
      simp [itemsChars, value?]
  | cons s items =>
      obtain ⟨quote, tail, text, isQuote⟩ := textChars_head s.toList
      obtain ⟨nodes, read, json⟩ := items?_texts depth blank_nil s items
        (show items.length + 1 < fuel by simp at enough; omega) rest
      refine ⟨.array nodes ⟨[], false, .tight⟩, ?_, by rw [Node.toJson, json]⟩
      have body : itemsChars true ((s :: items).map .ofText) ++ ']' :: rest =
          [] ++ (textChars s.toList ++ (itemsChars false (items.map .ofText) ++ ']' :: rest)) := by
        simp [itemsChars, valueChars_ofText]
      have notEnd : (itemsChars true ((s :: items).map .ofText) ++ ']' :: rest).head? ≠
          some ']' := by
        rw [body, text]
        rcases isQuote with rfl | rfl <;> simp
      rw [← body] at read
      rw [value?_array notEnd, read]
      rfl

/-! ### Inline tables -/

def pairsChars : List (String × String) → List Char
  | [] => []
  | [(name, s)] => ' ' :: keyChars name.toList ++ [' ', '=', ' '] ++ textChars s.toList ++ [' ']
  | (name, s) :: pairs =>
      ' ' :: keyChars name.toList ++ [' ', '=', ' '] ++ textChars s.toList ++ ',' ::
        pairsChars pairs

theorem inlineEntries_text (name s : String) (entries : List (Key × Node)) :
    inlineEntries [] ((.plain name, .ofText s) :: entries) =
      ([.plain name], ' ' :: textChars s.toList, ' ' :: textChars s.toList ++ [' ']) ::
        inlineEntries [] entries := by
  simp [inlineEntries, inlineEntry, Node.ofText, valueChars, Decor.default, Decor.beforeChars,
    Decor.afterChars, Scalar.spellingChars]

theorem pathChars_plain (name : String) :
    pathChars ([' '], [' ']) [.plain name] = ' ' :: keyChars name.toList ++ [' '] := by
  simp [pathChars, pathTail, Key.plain, Key.chars, Decor.default, Decor.beforeChars,
    Decor.afterChars]

theorem inlineChars_texts (pairs : List (String × String)) :
    inlineChars (inlineEntries [] (pairs.map fun (name, s) => (.plain name, .ofText s))) =
      pairsChars pairs := by
  induction pairs with
  | nil => simp [inlineEntries, inlineChars, pairsChars]
  | cons pair pairs ih =>
      obtain ⟨name, s⟩ := pair
      cases pairs with
      | nil => simp [inlineEntries_text, inlineEntries, inlineChars, pairsChars, pathChars_plain]
      | cons next pairs =>
          obtain ⟨nextName, nextS⟩ := next
          simp only [List.map_cons, inlineEntries_text, inlineChars, pathChars_plain, pairsChars] at ih ⊢
          rw [ih]
          simp

theorem unquoted_of_head {c : Char} (notDouble : c ≠ '"') (notSingle : c ≠ '\'') :
    Unquoted (c :: rest) := by
  constructor <;> simpa

theorem pairs?_text {after : List Char} {close : Char} (tail : List Char) (fuel depth : Nat)
    (name s : String)
    (blank : ∀ c ∈ after, isBlank c = true) (apart : Unquoted (after ++ close :: tail))
    (closes : isBlank close = false) :
    ∃ key node, key.name = name ∧ node.toJson = .str s ∧
      pairs? (fuel + 2) depth (' ' :: keyChars name.toList ++ [' ', '=', ' '] ++
          textChars s.toList ++ (after ++ close :: tail)) =
        match close :: tail with
        | '\x7d' :: tail => some ([(([], key), node)], tail)
        | ',' :: tail =>
            (pairs? (fuel + 1) depth tail).map fun (pairs, rest) =>
              ((([], key), node) :: pairs, rest)
        | _ => none := by
  obtain ⟨node, read, json⟩ := value?_text fuel depth apart s
  obtain ⟨key, named, readKey⟩ := dottedKey?_keyChars []
    (' ' :: (textChars s.toList ++ (after ++ close :: tail))) blank_space blank_space
    (by simp [KeyEnd]; decide) (show isBlank '=' = false by decide) (by decide) name
  obtain ⟨quote, spelled, text, isQuote⟩ := textChars_head s.toList
  have start := splitBlanks_append blank_space (textChars s.toList ++ (after ++ close :: tail))
    (by rw [text]; rcases isQuote with rfl | rfl <;> simp <;> decide)
  have ended := splitBlanks_append blank (close :: tail) (by simpa using closes)
  have written : ' ' :: keyChars name.toList ++ [' ', '=', ' '] ++ textChars s.toList ++
      (after ++ close :: tail) = [' '] ++ (keyChars name.toList ++ ([' '] ++ '=' ::
        (' ' :: (textChars s.toList ++ (after ++ close :: tail))))) := by
    simp
  refine ⟨key, node.withDecor ⟨some [' '], some after⟩, named, by simpa using json, ?_⟩
  rw [List.singleton_append] at start
  rw [written, pairs?, readKey]
  simp only [start, read, ended] <;> rfl

/-- The nodes that were read for pairs. -/
def ReadPairs : List ((List Key × Key) × Node) → List (String × String) → Prop :=
  List.Forall₂ fun read pair =>
    read.1.1 = [] ∧ read.1.2.name = pair.1 ∧ read.2.toJson = .str pair.2

/-- Pairs read back from one of them on. -/
theorem pairs?_texts {fuel : Nat} (depth : Nat) (name s : String) (pairs : List (String × String))
    (enough : pairs.length + 1 < fuel) (rest : List Char) :
    ∃ read, pairs? fuel depth (pairsChars ((name, s) :: pairs) ++ '\x7d' :: rest) =
        some (read, rest) ∧ ReadPairs read ((name, s) :: pairs) := by
  induction pairs generalizing name s fuel with
  | nil =>
      obtain ⟨fuel, rfl⟩ : ∃ less, fuel = less + 2 := ⟨fuel - 2, by simp at enough; omega⟩
      obtain ⟨key, node, named, json, read⟩ := pairs?_text rest fuel depth name s blank_space
        (unquoted_of_head (by decide) (by decide)) (show isBlank '\x7d' = false by decide)
      refine ⟨[(([], key), node)], ?_, .cons ⟨rfl, named, json⟩ .nil⟩
      simpa [pairsChars] using read
  | cons next pairs ih =>
      obtain ⟨nextName, nextS⟩ := next
      obtain ⟨fuel, rfl⟩ : ∃ less, fuel = less + 2 := ⟨fuel - 2, by simp at enough; omega⟩
      obtain ⟨others, further, same⟩ := ih nextName nextS
        (show pairs.length + 1 < fuel + 1 by simp at enough; omega)
      obtain ⟨key, node, named, json, read⟩ := pairs?_text
        (pairsChars ((nextName, nextS) :: pairs) ++ '\x7d' :: rest) fuel depth name s blank_nil
        (unquoted_of_head (by decide) (by decide)) (show isBlank ',' = false by decide)
      refine ⟨(([], key), node) :: others, ?_, .cons ⟨rfl, named, json⟩ same⟩
      simp only [further, Option.map_some] at read
      simpa [pairsChars] using read

theorem find?_eq_none {entries : Entries} {name : String} (absent : name ∉ entries.names) :
    entries.find? name = none := by
  rw [Entries.find?, Option.map_eq_none_iff, List.find?_eq_none]
  intro entry member same
  exact absent (List.mem_map.mpr ⟨entry, member, by simpa using same⟩)

theorem foldlM_insertDotted {read : List ((List Key × Key) × Node)}
    {pairs : List (String × String)} (same : ReadPairs read pairs) (entries : Entries)
    (distinct : (entries.names ++ pairs.map (·.1)).Nodup) :
    ∃ more : Entries,
      read.foldlM (fun entries ((path, key), value) => insertDotted key value path entries) entries =
        some (entries ++ more) ∧
      more.map (fun entry => (entry.1.name, entry.2.toJson)) =
        pairs.map fun pair => (pair.1, .str pair.2) := by
  induction same generalizing entries with
  | nil => exact ⟨[], by simp, rfl⟩
  | @cons first pair read pairs firstSame same ih =>
      obtain ⟨⟨path, key⟩, node⟩ := first
      obtain ⟨noPath, named, json⟩ := firstSame
      simp only at noPath named json
      subst noPath
      have absent : entries.find? key.name = none := by
        refine find?_eq_none fun member => ?_
        rw [List.map_cons, List.nodup_append] at distinct
        exact distinct.2.2 _ member _ List.mem_cons_self named
      have distinct' : ((entries ++ [(key, node)]).names ++ pairs.map (·.1)).Nodup := by
        simpa [Entries.names, named] using distinct
      obtain ⟨more, further, others⟩ := ih _ distinct'
      refine ⟨(key, node) :: more, ?_, by simp [named, json, others]⟩
      rw [List.foldlM_cons]
      simp only [insertDotted, absent, Option.isSome_none, Bool.false_eq_true, if_false]
      rw [Option.bind_eq_bind, Option.bind_some, further]
      simp

theorem entriesToJson_eq_map (entries : Entries) :
    Node.entriesToJson entries = entries.map fun entry => (entry.1.name, entry.2.toJson) := by
  induction entries with
  | nil => rw [Node.entriesToJson, List.map_nil]
  | cons entry entries ih =>
      obtain ⟨key, node⟩ := entry
      rw [Node.entriesToJson, ih, List.map_cons]

theorem value?_inline {fuel depth : Nat} (notEnd : (splitBlanks cs).2.head? ≠ some '\x7d') :
    value? (fuel + 1) (depth + 1) ('\x7b' :: cs) =
      match pairs? fuel depth cs with
      | none => none
      | some (pairs, tail) =>
          (inlineOfPairs pairs).map fun entries => (.inline entries ⟨[], false, .tight⟩, tail) := by
  rw [value?.eq_6]
  generalize splitBlanks cs = split at notEnd
  obtain ⟨blanks, start⟩ := split
  simp only
  split
  · simp at notEnd
  · rfl

theorem value?_textMap {fuel : Nat} (depth : Nat) (map : Dict String)
    (enough : map.entries.length + 1 < fuel) (rest : List Char) :
    ∃ node, value? fuel (depth + 1)
        (valueChars ([], []) (.inline (map.entries.map fun (name, s) => (.plain name, .ofText s))
          .default) ++ rest) = some (node, rest) ∧
      node.toJson = .obj (map.entries.map fun pair => (pair.1, .str pair.2)) := by
  obtain ⟨fuel, rfl⟩ := Nat.exists_eq_add_one_of_ne_zero (show fuel ≠ 0 by omega)
  obtain ⟨pairs, ascending⟩ := map
  have written : valueChars ([], []) (.inline (pairs.map fun (name, s) => (.plain name, .ofText s))
      .default) ++ rest = '\x7b' :: (pairsChars pairs ++ '\x7d' :: rest) := by
    simp [valueChars, InlineLayout.default, Decor.default, Decor.beforeChars, Decor.afterChars,
      rawChars, inlineChars_texts]
  simp only at enough ⊢
  rw [written]
  cases pairs with
  | nil =>
      refine ⟨.inline [] ⟨[], false, .tight⟩, ?_,
        by simp [Node.toJson, Node.entriesToJson, Json.sortFields]⟩
      rw [pairsChars, List.nil_append, value?.eq_6]
      rfl
  | cons pair pairs =>
      obtain ⟨name, s⟩ := pair
      obtain ⟨read, found, same⟩ := pairs?_texts depth name s pairs
        (show pairs.length + 1 < fuel by simp at enough; omega) rest
      have distinct := ascending.nodup_keys
      obtain ⟨entries, made, json⟩ := foldlM_insertDotted same [] (by simpa [Entries.names] using distinct)
      rw [List.nil_append] at made
      -- The first pair starts with its key, which is no closing brace.
      have notEnd : (splitBlanks (pairsChars ((name, s) :: pairs) ++ '\x7d' :: rest)).2.head? ≠
          some '\x7d' := by
        obtain ⟨c, tail, head, notBlank, notEnd⟩ := keyChars_head name.toList
        obtain ⟨more, text⟩ : ∃ more, pairsChars ((name, s) :: pairs) =
            ' ' :: (keyChars name.toList ++ more) := by
          cases pairs <;> exact ⟨_, by simp [pairsChars]; rfl⟩
        have start := splitBlanks_append blank_space (keyChars name.toList ++ more ++ '\x7d' :: rest)
          (by rw [head]; simpa using notBlank)
        rw [List.singleton_append] at start
        rw [text, List.cons_append, start, head]
        simpa using notEnd
      refine ⟨.inline entries ⟨[], false, .tight⟩, ?_, ?_⟩
      · rw [value?_inline notEnd, found]
        simp only [inlineOfPairs, made, Option.map_some]
      · have inOrder : AscendingKeys (((name, s) :: pairs).map fun pair => (pair.1, Json.str pair.2)) :=
          List.pairwise_map.mpr ascending
        rw [Node.toJson, entriesToJson_eq_map, json, Json.sortFields,
          foldl_insertEntry (by simpa using inOrder), List.nil_append]

end HubKeeper.Toml
