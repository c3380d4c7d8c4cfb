import HubKeeper.Net.Ipv4
import HubKeeper.Proofs.Text.Basic

/-!
The dotted form of an address reads back as the address; a text that ends in a point is none.
-/

namespace HubKeeper.Ipv4

theorem octet?_natChars (n : UInt8) : octet? (Text.natChars n.toNat) = some n := by
  have read : ∀ k < 256, octet? (Text.natChars k) = some (.ofNat k) := by decide +kernel
  simpa using read n.toNat n.toNat_lt

theorem parse?_text (ip : Ipv4) : parse? ip.text = some ip := by
  have fieldOf : ∀ n : UInt8, Text.fields '.' (Text.natChars n.toNat) = [Text.natChars n.toNat] :=
    fun n => Text.fields_of_not_mem (Text.not_mem_natChars (by decide))
  have cut : Text.fields '.' ip.chars =
      [Text.natChars ip.a.toNat, Text.natChars ip.b.toNat, Text.natChars ip.c.toNat,
        Text.natChars ip.d.toNat] := by
    simp only [chars, List.append_assoc, List.cons_append, Text.fields_append_cons, fieldOf,
      List.nil_append]
  simp [parse?, text, ofChars?, cut, octet?_natChars]

/-- A text that ends in a point is no address. -/
theorem parse?_of_getLast? {s : String} (last : s.toList.getLast? = some '.') :
    parse? s = none := by
  obtain ⟨start, split⟩ := List.getLast?_eq_some_iff.mp last
  have unread : octet? [] = none := by decide
  have cut : (Text.fields '.' s.toList).mapM octet? = none := by
    rw [split, Text.fields_append_cons]
    cases (Text.fields '.' start).mapM octet? <;> simp_all [List.mapM_append, Text.fields]
  rw [parse?, ofChars?, cut]

end HubKeeper.Ipv4
