import HubKeeper.Proofs.Dns.Grammar
import HubKeeper.Settings.Validator

/-!
Texts that are tested as names and as mail addresses.

An address is cut at its last at sign.  No name has an at sign in it, so this is the only cut
that could leave a name behind it, and the test accepts just what the grammar spells.
-/

namespace HubKeeper

def IsMailChar (c : Char) : Prop :=
  Text.IsLetter c ∨ Text.IsDigit c ∨ c ∈ ".!#$%&'*+/=?^_\x60\x7b|\x7d~-".toList

/-- A local part, an at sign and a name. -/
def MailAddress (s : String) : Prop :=
  ∃ localPart domain, s = localPart ++ "@" ++ domain ∧ localPart ≠ "" ∧
    (∀ c ∈ localPart.toList, IsMailChar c) ∧ Dns.isName domain = true

theorem isMailLocal_iff {s : String} :
    isMailLocal s.toList = true ↔ s ≠ "" ∧ ∀ c ∈ s.toList, IsMailChar c := by
  have punctuation : mailPunctuation = ".!#$%&'*+/=?^_\x60\x7b|\x7d~-".toList := by decide
  have char (c : Char) : (c.isAlphanum || mailPunctuation.contains c) = true ↔ IsMailChar c := by
    rw [Bool.or_eq_true, Text.isAlphanum_iff, List.contains_iff_mem, punctuation, or_assoc]
    rfl
  simp only [isMailLocal, Bool.and_eq_true, bne_iff_ne, ne_eq, String.toList_eq_nil_iff,
    List.all_eq_true, char]

/-! ### The last at sign -/

theorem splitLastAt_append {before after : List Char} (solid : '@' ∉ after) :
    splitLastAt (before ++ '@' :: after) = some (before, after) := by
  have parts : Text.fields '@' (before ++ '@' :: after) = Text.fields '@' before ++ [after] := by
    rw [Text.fields_append_cons, Text.fields_of_not_mem solid]
  have several : (Text.fields '@' before ++ [after]).length ≠ 1 := by
    have nonempty := List.length_pos_iff.mpr (Text.fields_ne_nil '@' before)
    rw [List.length_append, List.length_singleton]
    omega
  have count : (before ++ '@' :: after).length - after.length - 1 = before.length := by
    rw [List.length_append, List.length_cons]
    omega
  simp only [splitLastAt, parts, List.getLast?_concat, if_neg several, count, List.take_left]

theorem splitLastAt_eq_some_iff {cs before after : List Char} :
    splitLastAt cs = some (before, after) ↔ cs = before ++ '@' :: after ∧ '@' ∉ after := by
  refine ⟨fun cut => ?_, fun ⟨whole, solid⟩ => whole ▸ splitLastAt_append solid⟩
  have found := cut
  simp only [splitLastAt] at found
  split at found
  · rename_i domain last
    have solid : '@' ∉ domain := fun inside =>
      (Text.mem_of_mem_field (List.mem_of_getLast? last) inside).2 rfl
    split at found
    · cases found
    · rename_i several
      have ends : Text.fields '@' domain <:+ Text.fields '@' cs := by
        obtain ⟨front, parts⟩ := List.getLast?_eq_some_iff.mp last
        rw [Text.fields_of_not_mem solid, parts]
        exact List.suffix_append _ _
      rcases Text.fields_suffix_iff.mp ends with rfl | ⟨start, rfl⟩
      · rw [Text.fields_of_not_mem solid] at several
        exact absurd rfl several
      · rw [splitLastAt_append solid] at cut
        cases cut
        exact ⟨rfl, solid⟩
  · cases found

theorem isEmail_iff {s : String} : isEmail s = true ↔ MailAddress s := by
  constructor
  · intro accepted
    simp only [isEmail] at accepted
    split at accepted
    · rename_i before after cut
      rw [Bool.and_eq_true, ← String.toList_ofList (l := before), isMailLocal_iff,
        ← String.toList_ofList (l := after)] at accepted
      refine ⟨.ofList before, .ofList after, ?_, accepted.1.1, accepted.1.2, accepted.2⟩
      apply String.toList_inj.mp
      simp [(splitLastAt_eq_some_iff.mp cut).1]
    · cases accepted
  · rintro ⟨localPart, domain, rfl, nonempty, chars, valid⟩
    have solid : '@' ∉ domain.toList := fun inside => by
      rcases Dns.isLabelChar_of_mem_name valid '@' inside with point | fits
      · exact absurd point (by decide)
      · exact absurd fits (by decide)
    have cut : splitLastAt (localPart ++ "@" ++ domain).toList =
        some (localPart.toList, domain.toList) :=
      splitLastAt_eq_some_iff.mpr ⟨by simp, solid⟩
    simp only [isEmail, cut, Bool.and_eq_true]
    exact ⟨isMailLocal_iff.mpr ⟨nonempty, chars⟩, valid⟩

/-- What is accepted as a name or as an address is what the grammar of names or of addresses
spells. -/
theorem names_and_addresses_spelled (s : String) :
    (Dns.isName s = true ↔ Dns.DomainName s) ∧ (isEmail s = true ↔ MailAddress s) :=
  ⟨Dns.isName_iff, isEmail_iff⟩

end HubKeeper
