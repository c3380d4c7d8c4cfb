import HubKeeper.Cloudflare.Payload
import HubKeeper.Proofs.Dns.Names
import HubKeeper.Proofs.Net.Ipv4

/-!
Records in the JSON of the API, and back.

Points at the end of names are left out when a record is sent, and one is put back when
it is read.  A record with one point where a name ends comes back as it was.
-/

namespace HubKeeper.Cloudflare

open Dns (Record comparableName trimEndOf_plain trimEndOf_trimEndOf)

/-! ### Points -/

/-- A name in lower case that ends in exactly one point. -/
def EndsInPoint (name : String) : Prop :=
  Text.lower name = name ∧ ∃ bare, name = bare ++ "." ∧ bare.toList.getLast? ≠ some '.'

theorem fullName_trimEndOf (name : String) :
    fullName (Text.trimEndOf '.' name) = comparableName name := by
  rw [fullName, trimEndOf_trimEndOf, comparableName]

theorem EndsInPoint.comparableName_eq {name : String} (ends : EndsInPoint name) :
    comparableName name = name := by
  obtain ⟨lower, bare, rfl, plain⟩ := ends
  have bareLower : Text.lower bare = bare := by
    rwa [Dns.lower_append_point, String.append_left_inj] at lower
  have qualified : Dns.qualified bare = bare ++ "." := by rw [Dns.qualified, bareLower]
  rw [← qualified, Dns.comparableName_qualified plain]

/-! ### Records -/

/-- A record that the reconciler manages: its name is one to manage, its lifetime fits 32
bits, and its value is an address or a name in lower case with one point at its end. -/
structure Manageable (record : Record) : Prop where
  name : ∃ name, Dns.normalizeName name = .ok record.name
  ttl : record.ttl < UInt32.size
  value : record.type = .address ∧ (Ipv4.parse? record.value).isSome = true ∨
    record.type = .canonicalName ∧ EndsInPoint record.value

variable {record : Record}

theorem natBelow?_ofInt {n bound : Nat} (below : n < bound) :
    Json.natBelow? bound (.ofInt n) = some n := by
  simp [Json.natBelow?, Json.ofInt, below]

theorem named_address : Dns.RecordType.named Dns.RecordType.address.text = .address := by
  cbv

theorem named_canonicalName :
    Dns.RecordType.named Dns.RecordType.canonicalName.text = .canonicalName := by
  cbv

theorem required?_word?_ofInt {n : Nat} (fits : n < UInt32.size) :
    (Json.Slot.value (.ofInt n)).required? Json.word? = some n := by
  rw [Json.Slot.required?, Json.word?, natBelow?_ofInt fits]

theorem record?_recordFields (fits : record.ttl < UInt32.size) (id : String) :
    record? (.obj (recordFields record ++ [("id", .str id)])) =
      some ⟨comparableName record.name, .named record.type.text, record.ttl,
        recordValue (.named record.type.text) (Text.trimEndOf '.' record.value), some id⟩ := by
  have slots : (Json.obj (recordFields record ++ [("id", .str id)])).record?
      ["id", "name", "type", "content", "ttl"] =
        some [.value (.str id), .value (.str (Text.trimEndOf '.' record.name)),
          .value (.str record.type.text), .value (.str (Text.trimEndOf '.' record.value)),
          .value (.ofInt record.ttl)] := by
    rfl
  rw [← fullName_trimEndOf, record?, slots]
  dsimp only
  rw [required?_word?_ofInt fits]
  rfl

def sentBody (record : Record) (id : String) : Json :=
  .obj (recordFields record ++ [("id", .str id)])

/-- A record that is sent is read as it was. -/
theorem Manageable.record?_sent (manageable : Manageable record) (id : String) :
    record? (.obj (recordFields record ++ [("id", .str id)])) = some { record with id := some id } := by
  obtain ⟨⟨name, normalized⟩, fits, value⟩ := manageable
  rw [record?_recordFields fits, Dns.comparableName_normalizeName normalized]
  rcases value with ⟨type, address⟩ | ⟨type, ends⟩
  · have pointless : record.value.toList.getLast? ≠ some '.' := fun last => by
      rw [Ipv4.parse?_of_getLast? last] at address
      cases address
    rw [type, named_address, recordValue, trimEndOf_plain pointless, ← type]
    nofun
  · rw [type, named_canonicalName, recordValue, fullName_trimEndOf, ends.comparableName_eq, ← type]

end HubKeeper.Cloudflare
