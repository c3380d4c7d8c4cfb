import HubKeeper.Cloudflare.Account
import HubKeeper.Dns.Dialogue
import HubKeeper.Net.Lookup

/-!
Calls of a reconciliation answered over HTTP: by the account and by lookup services.
-/

namespace HubKeeper.Cloudflare

def Account.exchange (account : Account) (services : Net.LookupServices) :
    (call : Dns.Call) → Http.Exchange call.Answer
  | .listZones => account.listZones
  | .listRecords zone name => account.listRecords zone name
  | .apply zone batch => account.apply zone batch
  | .resolve name => Net.resolve services.resolver name
  | .publicAddress => Net.publicAddress services.addressService

def Account.service (account : Account) (services : Net.LookupServices)
    (transport : Http.Transport σ) : Dns.Service σ :=
  fun call state => (account.exchange services call).run transport state

end HubKeeper.Cloudflare
