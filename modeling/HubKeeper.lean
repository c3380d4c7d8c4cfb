import HubKeeper.Main
import HubKeeper.Proofs.Dns.Guarding
import HubKeeper.Proofs.Dns.SelfAlias
import HubKeeper.Proofs.Dns.Serving
import HubKeeper.Proofs.Document.Seeding
import HubKeeper.Proofs.Dotenv.Restoring
import HubKeeper.Proofs.Settings.Secrecy
import HubKeeper.Proofs.Store.Failures
import HubKeeper.Proofs.Store.Memory
import HubKeeper.Proofs.Store.Storing
import HubKeeper.Proofs.Cloudflare.Encoding
import HubKeeper.Proofs.Cloudflare.Answers
import HubKeeper.Proofs.Cloudflare.Keeping
import HubKeeper.Proofs.Cloudflare.Repetition
import HubKeeper.Proofs.Settings.Completeness
import HubKeeper.Proofs.Settings.Idempotence
import HubKeeper.Proofs.Settings.Precedence
import HubKeeper.Proofs.Cli.Creation
import HubKeeper.Proofs.Store.Naming
import HubKeeper.Proofs.Stack.Composing
import HubKeeper.Proofs.Stack.Isolation
import HubKeeper.Proofs.Cloudflare.Paging
import HubKeeper.Proofs.Json.Reading
import HubKeeper.Proofs.Dns.Targets
import HubKeeper.Proofs.Toml.Distinct
import HubKeeper.Proofs.Document.MapEntries
import HubKeeper.Proofs.Store.Entries
import HubKeeper.Proofs.Document.RawEdits
import HubKeeper.Proofs.Document.Removal
import HubKeeper.Proofs.Stack.Recursion
import HubKeeper.Proofs.Stack.RouterRules
import HubKeeper.Proofs.Store.Supplying
import HubKeeper.Proofs.Settings.MalformedMaps
import HubKeeper.Proofs.Settings.Flattening
import HubKeeper.Proofs.Dns.ZoneChoice
import HubKeeper.Proofs.Settings.Rendering
import HubKeeper.Proofs.Settings.MissingReports
import HubKeeper.Proofs.Settings.MailAddresses
import HubKeeper.Proofs.Dns.ManagedNames
import HubKeeper.Proofs.Files.Atomicity
import HubKeeper.Proofs.Cloudflare.Grouping
import HubKeeper.Proofs.Settings.PasswordLines
import HubKeeper.Proofs.Store.Recollection
import HubKeeper.Proofs.Net.Caching
import HubKeeper.Proofs.Store.Discretion
import HubKeeper.Proofs.Stack.HostRules
