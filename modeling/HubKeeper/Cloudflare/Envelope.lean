import HubKeeper.Http.Exchange
import HubKeeper.Json.Record

/-!
Responses of the API: what was asked for stands in an envelope that tells whether the
request succeeded.
-/

namespace HubKeeper.Cloudflare

def providerName : String := "cloudflare"

structure ApiMessage where
  code : Int
  message : String
deriving DecidableEq

namespace ApiMessage

def ofJson? (json : Json) : Option ApiMessage :=
  match json.record? ["code", "message"] with
  | some [code, message] => do
      return ⟨← code.required? Json.int64?, ← message.required? Json.text?⟩
  | _ => none

def text (m : ApiMessage) : String :=
  m.message ++ " (" ++ Text.intText m.code ++ ")"

end ApiMessage

structure Envelope (α : Type) where
  success : Bool
  errors : List ApiMessage
  result : Option α
  totalPages : Option Nat

namespace Envelope

def pages? (json : Json) : Option Nat :=
  match json.record? ["total_pages"] with
  | some [total] => total.required? Json.word?
  | _ => none

def ofJson? (read : Json → Option α) (json : Json) : Option (Envelope α) :=
  match json.record? ["success", "errors", "result", "result_info"] with
  | some [success, errors, result, info] => do
      return ⟨← success.required? Json.boolean?,
        ← errors.withDefault? [] (Json.listOf? ApiMessage.ofJson?),
        ← result.optional? read, ← info.optional? pages?⟩
  | _ => none

end Envelope

def statusError (context : String) (response : Http.Response) : Error :=
  let status := Http.statusText response.status
  if response.status = 401 || response.status = 403 then
    .authentication ("Invalid API token or insufficient permissions. Status: " ++ status)
  else if response.status = 404 then
    .provider providerName (context ++ ": not found. Status: " ++ status)
  else if response.status = 409 then
    .provider providerName ("Conflict: records changed concurrently. Status: " ++ status)
  else if response.status = 429 then
    .rateLimited ("Rate limit exceeded. Please retry later. Status: " ++ status)
  else if 500 ≤ response.status && response.status ≤ 599 then
    .provider providerName ("Cloudflare server error (transient): " ++ status ++ " - " ++
      response.body)
  else .provider providerName (context ++ " failed: " ++ status ++ " - " ++ response.body)

def openEnvelope (read : Json → Option α) (context : String) (response : Http.Response) :
    Except Error (Envelope α) :=
  if !Http.isSuccess response.status then .error (statusError context response)
  else
    match response.json?.bind (Envelope.ofJson? read) with
    | none =>
        .error (.provider providerName
          ("Failed to parse response: " ++ Http.Response.undecodable))
    | some envelope =>
        if envelope.success then .ok envelope
        else
          .error (.provider providerName (context ++ " failed: " ++
            "; ".intercalate (envelope.errors.map ApiMessage.text)))

end HubKeeper.Cloudflare
