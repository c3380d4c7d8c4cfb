import HubKeeper.Stack.Composition
import HubKeeper.Stack.Routing

/-!
The stack environments of a service hub.  All inherit from `base`; what the
container manager launches inherits from `app`.
-/

namespace HubKeeper.Hub

open Stack

/-- Rule for the name that another variable holds. -/
def ruleOf (key : String) : DefaultRule :=
  .computed fun _ vars => .ok ((vars.get? key).map fun name => hostRule [name])

def appRule : DefaultRule :=
  .computed fun snapshot _ =>
    .ok ((snapshot.set? "default_app_hostnames").map fun hosts => hostRule hosts.items)

/-- Credentials end up in a compose file, where a dollar sign is not literal. -/
def dashboardCredentials : DefaultRule :=
  .computed fun snapshot _ =>
    .ok ((snapshot.text? "traefik_dashboard_htpasswd").map escapeDollars)

def baseStack : Declaration where
  name := "base"
  parent := none
  overrides := some "base_stack_env"
  defaults :=
    [("PARENT_DNS_DOMAIN", .setting "parent_dns_domain"),
     ("ADMIN_PARENT_DNS_DOMAIN", .setting "admin_parent_dns_domain"),
     ("STABLE_PUBLIC_DNS_NAME", .setting "stable_public_dns_name"),
     ("DEFAULT_CERT_RESOLVER", .setting "default_cert_resolver"),
     ("HUB_HOSTNAME", .setting "hub_hostname"),
     ("HUB_LAN_IP", .setting "hub_lan_ip"),
     ("HUB_PACKAGE_VERSION", .setting "hub_package_version")]

def traefikStack : Declaration where
  name := "traefik"
  parent := some "base"
  overrides := some "traefik_stack_env"
  defaults :=
    [("TRAEFIK_DASHBOARD_DNS_NAME", .setting "traefik_dashboard_dns_name"),
     ("TRAEFIK_DASHBOARD_CERT_RESOLVER", .setting "traefik_dashboard_cert_resolver"),
     ("TRAEFIK_DASHBOARD_HTPASSWD", dashboardCredentials),
     ("TRAEFIK_DASHBOARD_HOST_RULE", ruleOf "TRAEFIK_DASHBOARD_DNS_NAME"),
     ("TRAEFIK_DASHBOARD_ENABLED", .setting "traefik_dashboard_enabled"),
     ("TRAEFIK_LOG_LEVEL", .setting "traefik_log_level"),
     ("TRAEFIK_HTTP_PORT", .setting "http_port"),
     ("TRAEFIK_HTTPS_PORT", .setting "https_port"),
     ("LETSENCRYPT_OWNER_EMAIL_PROD", .setting "letsencrypt_owner_email_prod"),
     ("LETSENCRYPT_OWNER_EMAIL_STAGING", .setting "letsencrypt_owner_email_staging")]

def portainerStack : Declaration where
  name := "portainer"
  parent := some "base"
  overrides := some "portainer_stack_env"
  defaults :=
    [("PORTAINER_DNS_NAME", .setting "portainer_dns_name"),
     ("PORTAINER_CERT_RESOLVER", .setting "portainer_cert_resolver"),
     ("PORTAINER_AGENT_SECRET", .setting "portainer_agent_secret"),
     ("PORTAINER_HOST_RULE", ruleOf "PORTAINER_DNS_NAME")]

def appStack : Declaration where
  name := "app"
  parent := some "base"
  overrides := some "base_app_stack_env"
  defaults :=
    [("DEFAULT_APP_DNS_NAME", .setting "default_app_dns_name"),
     ("APP_SUBDOMAIN_CERT_RESOLVER", .setting "app_subdomain_cert_resolver"),
     ("DEFAULT_APP_HOST_RULE", appRule)]

def runtimeStack : Declaration where
  name := "portainer-runtime"
  parent := some "app"
  overrides := some "portainer_runtime_env"
  defaults := []

def declarations : List Declaration :=
  [baseStack, traefikStack, portainerStack, appStack, runtimeStack]

def compositor (schema : Schema) : Except Error Compositor :=
  Compositor.build schema declarations

end HubKeeper.Hub
