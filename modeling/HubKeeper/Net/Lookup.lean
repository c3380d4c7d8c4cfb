import HubKeeper.Http.Exchange
import HubKeeper.Json.Record
import HubKeeper.Text.Blank

/-!
Addresses looked up over HTTP: the public address of this network, and the addresses
of a name.  Each lookup is one request.
-/

namespace HubKeeper.Net

structure LookupServices where
  addressService : String
  resolver : String
deriving DecidableEq, Inhabited

namespace LookupServices

def default : LookupServices :=
  ⟨"https://api.ipify.org", "https://dns.google/resolve"⟩

end LookupServices

def publicAddressOf (service : String) (response : Http.Response) : Except Error Ipv4 :=
  if !Http.isSuccess response.status then
    .error (.http (service ++ " answered with status " ++ Http.statusText response.status))
  else
    let text := Text.trim response.body
    match Ipv4.parse? text with
    | some address => .ok address
    | none =>
        .error (.http ("Expected an IPv4 address from the IP service, got '" ++ text ++ "'"))

/-- Asks a service that answers with the address alone. -/
def publicAddress (service : String) : Http.Exchange Ipv4 := do
  let request := Http.Request.get (Http.Url.ofText service)
  let response ← Http.Exchange.request request fun fault =>
    .http ("Request to " ++ service ++ " failed: " ++ fault.message)
  publicAddressOf service response

structure ResolverRecord where
  type : Nat
  data : String
deriving DecidableEq

structure ResolverAnswer where
  status : Nat
  records : List ResolverRecord
deriving DecidableEq

namespace ResolverAnswer

def record? (json : Json) : Option ResolverRecord :=
  match json.record? ["type", "data"] with
  | some [type, data] => do
      return ⟨← type.required? (Json.natBelow? UInt16.size), ← data.required? Json.text?⟩
  | _ => none

def ofJson? (json : Json) : Option ResolverAnswer :=
  match json.record? ["Status", "Answer"] with
  | some [status, answer] => do
      return ⟨← status.required? Json.word?, ← answer.withDefault? [] (Json.listOf? record?)⟩
  | _ => none

def addressType : Nat := 1

def noSuchName : Nat := 3

def addressIn (name : String) (record : ResolverRecord) : Except Error Ipv4 :=
  match Ipv4.parse? record.data with
  | some address => .ok address
  | none => .error (.http ("Invalid A record data '" ++ record.data ++ "' for " ++ name))

/-- Addresses of a name; a name that does not exist has none. -/
def addresses (answer : ResolverAnswer) (name : String) : Except Error (List Ipv4) :=
  if answer.status = 0 then
    (answer.records.filter fun record => record.type == addressType).mapM (addressIn name)
  else if answer.status = noSuchName then .ok []
  else
    .error (.http ("DNS lookup of " ++ name ++ " failed with RCODE " ++
      Text.natText answer.status))

end ResolverAnswer

def resolvedOf (name : String) (response : Http.Response) : Except Error (List Ipv4) :=
  if !Http.isSuccess response.status then
    .error (.http ("DNS-over-HTTPS endpoint answered with status " ++
      Http.statusText response.status))
  else
    match response.json?.bind ResolverAnswer.ofJson? with
    | some answer => answer.addresses name
    | none =>
        .error (.http ("Failed to parse DNS-over-HTTPS response: " ++ Http.Response.undecodable))

def resolve (resolver name : String) : Http.Exchange (List Ipv4) := do
  let url := (Http.Url.ofText resolver).withParameters [("name", name), ("type", "A")]
  let request := { Http.Request.get url with accept := "application/dns-json" }
  let response ← Http.Exchange.request request fun fault =>
    .http ("DNS-over-HTTPS request failed: " ++ fault.message)
  resolvedOf name response

end HubKeeper.Net
