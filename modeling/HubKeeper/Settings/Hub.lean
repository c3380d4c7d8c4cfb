import HubKeeper.Settings.Resolution

/-!
The settings of a service hub.

Domain names of the services are derived from a parent domain and a subdomain,
the administrative ones from the administrative domain; contact addresses and
certificate resolvers fall back on more general ones; the host's name and address
come from the host itself.
-/

namespace HubKeeper.Hub

def packageVersion : String := "0.1.0"

def under (label domain : String) : Value :=
  .text (label ++ "." ++ domain)

/-- Places the text of one setting under the domain of another. -/
def subdomainOf (label domain : String) (context : Context) : Probed (Option Value) := do
  let l ← context.requireText label
  let d ← context.requireText domain
  return some (under l d)

/-- The stable public name when none is given. -/
def stableName (context : Context) : Probed (Option Value) := do
  let domain ← context.requireText "admin_parent_dns_domain"
  return some (under "ddns" domain)

/-- A bare label is placed under the administrative domain. -/
def qualify (value : Value) (context : Context) : Probed Value :=
  match value with
  | .text name =>
      if name.toList.contains '.' then .ok value
      else do
        let domain ← context.requireText "admin_parent_dns_domain"
        return under name domain
  | other => .ok other

def hostName (context : Context) : Probed (Option Value) := do
  let name ← context.probe.askHostname
  return some (.text name)

def lanAddress (context : Context) : Probed (Option Value) := do
  let address ← context.probe.askLanAddress
  return some (.text address.text)

/-- The default app answers under its own name and the host's. -/
def appHostNames (context : Context) : Probed (Option Value) := do
  let app ← context.text? "default_app_dns_name"
  let host ← context.text? "hub_hostname"
  return some (.textSet (.ofList ([app, host].filterMap id)))

/-- Settings that hold explicit variables of a stack. -/
def stackSettings : List (String × String) :=
  [("base_stack_env", "Extra variables for every stack."),
   ("traefik_stack_env", "Extra variables for the reverse proxy stack."),
   ("portainer_stack_env", "Extra variables for the container manager stack."),
   ("base_app_stack_env", "Extra variables for every app stack."),
   ("portainer_runtime_env", "Extra variables for stacks launched by the container manager.")]

def stackSetting (entry : String × String) : Setting :=
  Setting.declare entry.1 .textMap
    |>.default (.textMap .empty)
    |>.validate Validator.envVarMap
    |>.describe entry.2

def declare (name : String) (kind : Kind) (description : String) : Setting :=
  (Setting.declare name kind).describe description

def domainSettings : List Setting :=
  [declare "hub_package_version" .text "Version of the hub package that wrote this file."
    |>.default (.text packageVersion),
   declare "parent_dns_domain" .text
      "Registered public DNS domain under which the hub's subdomains are created. REQUIRED."
    |>.required ("set hub.parent_dns_domain in hub.toml or HUB_PARENT_DNS_DOMAIN, " ++
      "e.g. 'example.com'")
    |>.validate Validator.dnsName,
   declare "admin_parent_dns_domain" .text
      ("Domain for administrative services (dashboard, container manager). " ++
        "Defaults to parent_dns_domain.")
    |>.fallback "parent_dns_domain"
    |>.validate Validator.dnsName,
   declare "letsencrypt_owner_email" .text
      "Email address registered with Let's Encrypt. REQUIRED."
    |>.required ("set hub.letsencrypt_owner_email to the address that receives " ++
      "certificate notices")
    |>.validate Validator.email,
   declare "letsencrypt_owner_email_prod" .text
      "Email for the production ACME resolver. Defaults to letsencrypt_owner_email."
    |>.fallback "letsencrypt_owner_email"
    |>.validate Validator.email,
   declare "letsencrypt_owner_email_staging" .text
      "Email for the staging ACME resolver. Defaults to letsencrypt_owner_email."
    |>.fallback "letsencrypt_owner_email"
    |>.validate Validator.email,
   declare "default_cert_resolver" .text
      "Certificate resolver for app routes: 'prod' or 'staging'."
    |>.default (.text "staging")
    |>.validate Validator.certResolver,
   declare "admin_cert_resolver" .text
      "Certificate resolver for administrative routes: 'prod' or 'staging'."
    |>.default (.text "prod")
    |>.validate Validator.certResolver,
   declare "traefik_dashboard_cert_resolver" .text
      "Certificate resolver for the proxy dashboard. Defaults to admin_cert_resolver."
    |>.fallback "admin_cert_resolver"
    |>.validate Validator.certResolver,
   declare "portainer_cert_resolver" .text
      "Certificate resolver for the container manager. Defaults to admin_cert_resolver."
    |>.fallback "admin_cert_resolver"
    |>.validate Validator.certResolver,
   declare "app_subdomain_cert_resolver" .text
      "Certificate resolver for app subdomains. Defaults to default_cert_resolver."
    |>.fallback "default_cert_resolver"
    |>.validate Validator.certResolver]

/-- Credentials, never shown. -/
def secretSettings : List Setting :=
  [declare "portainer_agent_secret" .text
      "Shared secret between the container manager and its agents. REQUIRED."
    |>.required ("generate one with \x60openssl rand -hex 32\x60 and store it in " ++
      "hub.portainer_agent_secret")
    |>.secret
    |>.validate Validator.secretToken,
   declare "traefik_dashboard_htpasswd" .text
      "Dashboard credentials as 'user:<bcrypt hash>'. Stored exactly as given. REQUIRED."
    |>.required ("create one with \x60htpasswd -nB admin\x60 and store it in " ++
      "hub.traefik_dashboard_htpasswd")
    |>.secret
    |>.validate Validator.htpasswd]

def nameSettings : List Setting :=
  [declare "stable_public_dns_name" .text
      ("DNS name that always resolves to the hub's public IP. A bare label is placed " ++
        "under admin_parent_dns_domain. Defaults to 'ddns'.")
    |>.derive ["admin_parent_dns_domain"] stableName
    |>.normalize ["admin_parent_dns_domain"] qualify
    |>.validate Validator.dnsName,
   declare "traefik_dashboard_subdomain" .text
      "Subdomain of admin_parent_dns_domain serving the proxy dashboard."
    |>.default (.text "traefik")
    |>.validate Validator.dnsLabel,
   declare "portainer_subdomain" .text
      "Subdomain of admin_parent_dns_domain serving the container manager."
    |>.default (.text "portainer")
    |>.validate Validator.dnsLabel,
   declare "default_app_subdomain" .text
      "Subdomain of parent_dns_domain serving the default app."
    |>.default (.text "hub")
    |>.validate Validator.dnsLabel,
   declare "traefik_dashboard_dns_name" .text
      "Fully-qualified dashboard name. Defaults to <subdomain>.<admin domain>."
    |>.derive ["traefik_dashboard_subdomain", "admin_parent_dns_domain"]
      (subdomainOf "traefik_dashboard_subdomain" "admin_parent_dns_domain")
    |>.validate Validator.dnsName,
   declare "portainer_dns_name" .text "Fully-qualified container manager name."
    |>.derive ["portainer_subdomain", "admin_parent_dns_domain"]
      (subdomainOf "portainer_subdomain" "admin_parent_dns_domain")
    |>.validate Validator.dnsName,
   declare "default_app_dns_name" .text "Fully-qualified default app name."
    |>.derive ["default_app_subdomain", "parent_dns_domain"]
      (subdomainOf "default_app_subdomain" "parent_dns_domain")
    |>.validate Validator.dnsName]

def hostSettings : List Setting :=
  [declare "hub_hostname" .text
      "Host name of the hub machine. Defaults to the system host name."
    |>.derive [] hostName
    |>.validate Validator.hostName,
   declare "hub_lan_ip" .text
      "LAN IPv4 address of the hub. Defaults to the address of the outbound interface."
    |>.derive [] lanAddress
    |>.validate Validator.ipv4,
   declare "default_app_hostnames" .textSet "Host names routed to the default app."
    |>.derive ["default_app_dns_name", "hub_hostname"] appHostNames
    |>.validate Validator.hostNames,
   declare "dns_ttl" .integer "Time-to-live in seconds for DNS records created by the hub."
    |>.default (.integer 300)
    |>.validate Validator.ttl,
   declare "http_port" .integer "Host port for plain HTTP."
    |>.default (.integer 80)
    |>.validate Validator.portNumber,
   declare "https_port" .integer "Host port for HTTPS."
    |>.default (.integer 443)
    |>.validate Validator.portNumber,
   declare "traefik_log_level" .text "Reverse proxy log level: DEBUG, INFO, WARN or ERROR."
    |>.default (.text "INFO")
    |>.validate Validator.logLevel,
   declare "traefik_dashboard_enabled" .boolean "Whether the proxy dashboard is routed."
    |>.default (.boolean true)]

def settings : List Setting :=
  domainSettings ++ secretSettings ++ nameSettings ++ hostSettings ++
    stackSettings.map stackSetting

def schema : Except Error Schema :=
  Schema.build settings

end HubKeeper.Hub
