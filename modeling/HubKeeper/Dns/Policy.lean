import HubKeeper.Error
import HubKeeper.Json.Record

/-!
What a reconciliation may do.
-/

namespace HubKeeper.Dns

structure Policy where
  allowExisting : Bool
  allowOverwrite : Bool
  verifyTarget : Bool
  expectedAddress : Option Ipv4
  ttl : Nat
  allowMissing : Bool
deriving DecidableEq

namespace Policy

def defaultTtl : Nat := 300

/-- Present and missing records are fine, nothing is overwritten or verified. -/
def default : Policy := ⟨true, false, false, none, defaultTtl, true⟩

instance : Inhabited Policy := ⟨default⟩

def withTtl (policy : Policy) (ttl : Nat) : Policy :=
  { policy with ttl := ttl }

def overwrite (policy : Policy) (allow : Bool) : Policy :=
  { policy with allowOverwrite := allow }

/-- Requires the target to have an address, the public one if none is given. -/
def verifyAgainst (policy : Policy) (expected : Option Ipv4) : Policy :=
  { policy with verifyTarget := true, expectedAddress := expected }

def validate (policy : Policy) : Except Error Unit :=
  if policy.ttl < 60 || 86400 < policy.ttl then
    .error (.config ("DNS TTL must be between 60 and 86400 seconds. Got: " ++
      Text.natText policy.ttl))
  else if policy.expectedAddress.isSome && !policy.verifyTarget then
    .error (.config "expected_address is only meaningful with verify_target")
  else .ok ()

def fieldNames : List String :=
  ["allow_existing", "allow_overwrite", "verify_target", "expected_address", "ttl",
    "allow_missing"]

def toJson (policy : Policy) : Json :=
  .obj [("allow_existing", .bool policy.allowExisting),
    ("allow_overwrite", .bool policy.allowOverwrite),
    ("verify_target", .bool policy.verifyTarget),
    ("expected_address", .ofOption (fun a => .str a.text) policy.expectedAddress),
    ("ttl", .ofInt policy.ttl), ("allow_missing", .bool policy.allowMissing)]

def address? (json : Json) : Option Ipv4 :=
  json.text?.bind Ipv4.parse?

def ofJson? (json : Json) : Option Policy :=
  match json.record? fieldNames with
  | some [existing, overwrite, verify, expected, ttl, missing] => do
      return ⟨← existing.withDefault? true Json.boolean?,
        ← overwrite.withDefault? false Json.boolean?,
        ← verify.withDefault? false Json.boolean?,
        ← expected.withDefault? none (Json.Slot.nullable? address?),
        ← ttl.withDefault? defaultTtl Json.word?,
        ← missing.withDefault? true Json.boolean?⟩
  | _ => none

end Policy

end HubKeeper.Dns
