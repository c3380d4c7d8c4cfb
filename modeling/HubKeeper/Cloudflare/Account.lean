import HubKeeper.Cloudflare.Envelope
import HubKeeper.Cloudflare.Payload
import HubKeeper.Text.Listing

/-!
An account at the API.

Zones are listed page by page.  A batch is sent in one request; a dry run lists as
usual but sends no batch.
-/

namespace HubKeeper.Cloudflare

structure Account where
  token : String
  accountId : Option String
  baseUrl : String
  dryRun : Bool
deriving DecidableEq, Inhabited

namespace Account

def defaultBaseUrl : String := "https://api.cloudflare.com/client/v4"

/-- An account with a token, and only the zones of one id if it is given. -/
def create (token : String) (accountId : Option String) (dryRun : Bool) :
    Except Error Account :=
  if Text.trim token = "" then .error (.config "Cloudflare API token cannot be empty")
  else .ok ⟨token, accountId.filter (· != ""), defaultBaseUrl, dryRun⟩

def withBaseUrl (account : Account) (baseUrl : String) : Account :=
  { account with baseUrl := Text.trimEndOf '/' baseUrl }

/-- Text for diagnosis, which keeps the token secret. -/
def listing (account : Account) : String :=
  let accountId := match account.accountId with
    | some id => "Some(" ++ Text.listed id ++ ")"
    | none => "None"
  let fields := ["api_token: \"<REDACTED>\"", "account_id: " ++ accountId,
    "base_url: " ++ Text.listed account.baseUrl,
    "dry_run: " ++ if account.dryRun then "true" else "false"]
  "CloudflareZoneApi \x7b " ++ ", ".intercalate fields ++ " \x7d"

def requestFailed (fault : Http.Fault) : Error :=
  .provider providerName ("HTTP request failed: " ++ fault.message)

def get (account : Account) (path : String) (parameters : List (String × String))
    (read : Json → Option α) (context : String) : Http.Exchange (Envelope α) := do
  let url := (Http.Url.ofText (account.baseUrl ++ path)).withParameters parameters
  let response ← Http.Exchange.request ((Http.Request.get url).bearing account.token) requestFailed
  openEnvelope read context response

def zonesPerPage : Nat := 50

def recordsPerPage : Nat := 100

def zonePage (account : Account) (page : Nat) : Http.Exchange (Envelope (List Dns.Zone)) :=
  account.get "/zones"
    ([("page", Text.natText page), ("per_page", Text.natText zonesPerPage)] ++
      (account.accountId.map fun id => ("account.id", id)).toList)
    (Json.listOf? zone?) "Zone listing"

/-- Zones from a page on, of at most `left` more pages. -/
def zonesFrom (account : Account) : (left page : Nat) → Http.Exchange (List Dns.Zone)
  | 0, _ => .ok []
  | left + 1, page => do
      let envelope ← account.zonePage page
      let zones := envelope.result.getD []
      -- A listing that tells of no pages has one.
      if page < envelope.totalPages.getD 1 then
        return zones ++ (← zonesFrom account left (page + 1))
      else return zones

def maxPages : Nat := UInt32.size - 1

def listZones (account : Account) : Http.Exchange (List Dns.Zone) :=
  account.zonesFrom maxPages 1

def listRecords (account : Account) (zone : Dns.Zone) (name : String) :
    Http.Exchange (List Dns.Record) := do
  let envelope ← account.get ("/zones/" ++ zone.id ++ "/dns_records")
    [("name", Text.trimEndOf '.' name), ("per_page", Text.natText recordsPerPage)]
    (Json.listOf? record?) "Record listing"
  return envelope.result.getD []

/-- Sends a batch, unless it is empty or this is a dry run. -/
def apply (account : Account) (zone : Dns.Zone) (batch : Dns.Batch) : Http.Exchange Unit :=
  if batch.isEmpty then .ok ()
  else do
    -- A batch that cannot be put together is refused in a dry run as well.
    let payload ← Payload.ofBatch batch
    if account.dryRun then return ()
    else
      let url := Http.Url.ofText (account.baseUrl ++ "/zones/" ++ zone.id ++ "/dns_records/batch")
      let request := (Http.Request.post url payload.toJson).bearing account.token
      let response ← Http.Exchange.request request requestFailed
      let _ ← openEnvelope some "Record batch" response
      return ()

end Account

end HubKeeper.Cloudflare
