import HubKeeper.Dns.MemoryAccount
import HubKeeper.Dns.Reconciliation

/-!
Requests served on an account kept in memory.

Each request meets conditions of its own: calls that are refused before they have
any effect, and what the outside answers to the others.
-/

namespace HubKeeper.Dns

/-- What a request meets outside of the account. -/
structure Conditions where
  refusal : Call → Option Error
  listsWholeZone : Bool
  addresses : String → List Ipv4
  publicAddress : Ipv4

inductive Request
  | createOrUpdate (name target : String) (policy : Policy)
  | delete (name : String) (policy : Policy)

namespace Request

def dialogue : Request → Dialogue Outcome
  | createOrUpdate name target policy => Reconciliation.createOrUpdate name target policy
  | delete name policy => Reconciliation.delete name policy

end Request

namespace MemoryAccount

def respond (conditions : Conditions) :
    (call : Call) → MemoryAccount → Except Error call.Answer × MemoryAccount
  | .listZones, account => (.ok account.zones, account)
  | .listRecords zone name, account =>
      (.ok (if conditions.listsWholeZone then account.recordsOf zone
        else account.recordsAt zone name), account)
  | .apply zone batch, account =>
      let (account, result) := applyAll zone batch account
      (result, account)
  | .resolve name, account => (.ok (conditions.addresses name), account)
  | .publicAddress, account => (.ok conditions.publicAddress, account)

/-- Answers calls; a refused one leaves the account as it is. -/
def answer (conditions : Conditions) : Service MemoryAccount := fun call account =>
  match conditions.refusal call with
  | some e => (.error e, account)
  | none => respond conditions call account

def serve (account : MemoryAccount) (conditions : Conditions) (request : Request) :
    Run MemoryAccount Outcome :=
  request.dialogue.run (answer conditions) account

def after (account : MemoryAccount) : List (Conditions × Request) → MemoryAccount
  | [] => account
  | (conditions, request) :: rest => (account.serve conditions request).state.after rest

end MemoryAccount

end HubKeeper.Dns
