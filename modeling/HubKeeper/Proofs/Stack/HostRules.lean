import HubKeeper.Proofs.Text.Basic
import HubKeeper.Stack.Routing

/-!
Host rules as sets of names.

A rule stands for a set of names: neither the order of the host names that it is made from nor how
often each one is given shows in it.  Nothing else is lost, because every name stands in back
quotes of its own.  So a name may hold whatever separates two names in a rule, as long as it has no
back quote itself.
-/

namespace HubKeeper

theorem TextSet.ext_mem {left right : TextSet} (same : ∀ text, text ∈ left ↔ text ∈ right) :
    left = right :=
  TextSet.ext (left.ascending.eq_of_mem_iff right.ascending same)

namespace Text

/-! ### Parts in quotes -/

def everySecond {α : Type} : List α → List α
  | _ :: second :: rest => second :: everySecond rest
  | _ => []

/-- The parts of a text that stand in quotes, which are those behind an odd number of them. -/
def quotedParts (quote : Char) (cs : List Char) : List (List Char) :=
  everySecond (fields quote cs)

variable {quote : Char} {lead inner cs : List Char}

theorem quotedParts_append (absent : quote ∉ lead) :
    quotedParts quote (lead ++ cs) = quotedParts quote cs := by
  induction lead with
  | nil => rfl
  | cons c rest ih =>
      rw [List.mem_cons, not_or] at absent
      rw [← ih absent.2]
      simp only [quotedParts, List.cons_append, fields, if_neg (Ne.symm absent.1)]
      -- The character goes into the first field, which stands before every quote.
      cases fields quote (rest ++ cs) with
      | nil => rfl
      | cons first others => cases others <;> rfl

theorem quotedParts_quoted (absent : quote ∉ inner) :
    quotedParts quote (quote :: (inner ++ quote :: cs)) = inner :: quotedParts quote cs := by
  rw [quotedParts, fields, if_pos rfl, fields_append_cons, fields_of_not_mem absent]
  rfl

end Text

namespace Stack

variable {hosts others names : List String} {name : String}

/-! ### The names of a rule -/

/-- The names in a list of host names: each one without the blanks around it, unless nothing else
is there. -/
def namedHosts (hosts : List String) : Set String :=
  {name | name ≠ "" ∧ ∃ host ∈ hosts, Text.TrimsTo host.toList name.toList}

theorem mem_ruleNames : name ∈ ruleNames hosts ↔ name ∈ namedHosts hosts := by
  simp only [ruleNames, TextSet.mem_ofList, List.mem_filter, List.mem_map, Text.trim_eq_iff,
    bne_iff_ne, ne_eq]
  exact and_comm

theorem ruleNames_eq_iff :
    ruleNames hosts = ruleNames others ↔ namedHosts hosts = namedHosts others := by
  constructor
  · intro same
    ext name
    rw [← mem_ruleNames, same, mem_ruleNames]
  · intro same
    apply TextSet.ext_mem
    intro name
    rw [mem_ruleNames, same, mem_ruleNames]

/-! ### Reading a rule -/

theorem quotedParts_hostTerm (plain : '\x60' ∉ name.toList) (cs : List Char) :
    Text.quotedParts '\x60' ((hostTerm name).toList ++ cs) =
      name.toList :: Text.quotedParts '\x60' cs := by
  have parts : (hostTerm name).toList ++ cs =
      "Host(".toList ++ '\x60' :: (name.toList ++ '\x60' :: (")".toList ++ cs)) := by
    simp [hostTerm]
  rw [parts, Text.quotedParts_append (by decide), Text.quotedParts_quoted plain,
    Text.quotedParts_append (by decide)]

theorem quotedParts_terms (plain : ∀ name ∈ names, '\x60' ∉ name.toList) :
    Text.quotedParts '\x60' (" || ".intercalate (names.map hostTerm)).toList =
      names.map String.toList := by
  induction names with
  | nil => rfl
  | cons name rest ih =>
      obtain ⟨here, later⟩ := List.forall_mem_cons.mp plain
      cases rest with
      | nil =>
          have last := quotedParts_hostTerm here []
          rw [List.append_nil] at last
          rw [List.map_singleton, String.intercalate_singleton, last]
          rfl
      | cons second others =>
          rw [List.map_cons, List.map_cons, String.intercalate_cons_cons, String.append_assoc,
            String.toList_append, quotedParts_hostTerm here, String.toList_append,
            Text.quotedParts_append (by decide), ← List.map_cons, ih later]
          rfl

/-- The names that a rule was made from can be read off it. -/
theorem quotedParts_hostRule (plain : ∀ host ∈ hosts, '\x60' ∉ host.toList) :
    Text.quotedParts '\x60' (hostRule hosts).toList =
      (ruleNames hosts).items.map String.toList := by
  apply quotedParts_terms
  intro name member inside
  obtain ⟨_, host, listed, trims⟩ := mem_ruleNames.mp member
  exact plain host listed (trims.mem inside)

/-- Two lists of host names without a back quote have the same rule just when they have the same
set of names. -/
theorem hostRule_eq_iff (plain : ∀ host ∈ hosts, '\x60' ∉ host.toList)
    (othersPlain : ∀ host ∈ others, '\x60' ∉ host.toList) :
    hostRule hosts = hostRule others ↔ namedHosts hosts = namedHosts others := by
  rw [← ruleNames_eq_iff]
  constructor
  · intro same
    have parts : (ruleNames hosts).items.map String.toList =
        (ruleNames others).items.map String.toList := by
      rw [← quotedParts_hostRule plain, same, quotedParts_hostRule othersPlain]
    exact TextSet.ext ((List.map_inj_right fun _ _ => String.toList_inj.mp).mp parts)
  · intro same
    rw [hostRule, hostRule, same]

/-- One of the names looks like the end of a term, a separator and the start of another term. -/
def bracketedHosts : List String :=
  ["a) || Host(b", " nas.example.com\t", "", "a", "nas.example.com"]

theorem bracketedHosts_hostRule :
    (∀ host ∈ bracketedHosts, '\x60' ∉ host.toList) ∧
      hostRule bracketedHosts = hostRule ["nas.example.com", "a", "a) || Host(b"] ∧
      hostRule bracketedHosts ≠ hostRule ["nas.example.com", "a", "b"] := by
  have plain : ∀ host ∈ bracketedHosts, '\x60' ∉ host.toList := by decide
  refine ⟨plain, ?_, ?_⟩
  · rw [hostRule_eq_iff plain (by decide), ← ruleNames_eq_iff]
    decide +kernel
  · rw [ne_eq, hostRule_eq_iff plain (by decide), ← ruleNames_eq_iff]
    decide +kernel

/-- A back quote in a name can close the quotes around it. -/
example : hostRule ["a\x60) || Host(\x60b"] = hostRule ["a", "b"] := by
  decide +kernel

end Stack

end HubKeeper
