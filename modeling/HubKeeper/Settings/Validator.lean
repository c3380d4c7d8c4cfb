import HubKeeper.Dns.Name
import HubKeeper.Net.Ipv4
import HubKeeper.Settings.Value
import HubKeeper.Text.Blank
import HubKeeper.Text.DecimalDigit

/-!
Constraints on the values of settings.

A validator accepts a value or tells the constraint that it breaks.
-/

namespace HubKeeper

/-- Accepts a value, or tells the constraint that it breaks. -/
abbrev Validator := Value → Except String Unit

/-- A letter or underscore followed by letters, digits and underscores. -/
def isEnvKeyChars : List Char → Bool
  | [] => false
  | c :: rest => (c.isAlpha || c == '_') && rest.all fun d => d.isAlphanum || d == '_'

def isEnvKey (s : String) : Bool :=
  isEnvKeyChars s.toList

def mailPunctuation : List Char :=
  ['.', '!', '#', '$', '%', '&', '\'', '*', '+', '/', '=', '?', '^', '_', '\x60', '\x7b', '|',
    '\x7d', '~', '-']

def isMailLocal (cs : List Char) : Bool :=
  cs != [] && cs.all fun c => c.isAlphanum || mailPunctuation.contains c

def splitLastAt (cs : List Char) : Option (List Char × List Char) :=
  let fields := Text.fields '@' cs
  match fields.getLast? with
  | some domain =>
      if fields.length = 1 then none else some (cs.take (cs.length - domain.length - 1), domain)
  | none => none

/-- A local part, an at sign and a DNS name. -/
def isEmail (s : String) : Bool :=
  match splitLastAt s.toList with
  | some (localPart, domain) => isMailLocal localPart && Dns.isNameChars domain
  | none => false

def isHashChar (c : Char) : Bool :=
  c.isAlphanum || c == '.' || c == '/'

/-- Hash after its version letter: two digits as cost and 53 characters. -/
def isCostAndHash : List Char → Bool
  | '$' :: tens :: ones :: '$' :: hash =>
      Text.isDecimalDigit tens && Text.isDecimalDigit ones && hash.length == 53 &&
        hash.all isHashChar
  | _ => false

def isPasswordHash : List Char → Bool
  | '$' :: '2' :: c :: rest =>
      if c = 'a' || c = 'b' || c = 'x' || c = 'y' then isCostAndHash rest
      else isCostAndHash (c :: rest)
  | _ => false

/-- A user name without blanks, a colon and a password hash. -/
def isHtpasswd (s : String) : Bool :=
  let user := s.toList.takeWhile (· != ':')
  user != [] && !user.any Text.isBlank &&
    match s.toList.dropWhile (· != ':') with
    | ':' :: hash => isPasswordHash hash
    | _ => false

def isTokenChar (c : Char) : Bool :=
  c.isAlphanum || c == '.' || c == '_' || c == '~' || c == '+' || c == '/' || c == '=' || c == '-'

def isSecretToken (s : String) : Bool :=
  16 ≤ s.toList.length && s.toList.all isTokenChar

namespace Validator

def onText (test : String → Bool) (constraint : String) : Validator
  | .text s => if test s then .ok () else .error constraint
  | value => .error ("expected a string, got a " ++ value.kind.title)

def oneOf (allowed : List String) : Validator :=
  onText allowed.contains ("must be one of: " ++ ", ".intercalate allowed)

def between (low high : Int) : Validator
  | .integer n =>
      if low ≤ n && n ≤ high then .ok ()
      else .error ("must be between " ++ Text.intText low ++ " and " ++ Text.intText high)
  | value => .error ("expected an integer, got a " ++ value.kind.title)

def dnsName : Validator :=
  onText Dns.isName "must be a valid DNS name with at least two labels"

def dnsLabel : Validator :=
  onText Dns.isLabel "must be a single DNS label (letters, digits, inner hyphens)"

def isHostName (s : String) : Bool :=
  Dns.isLabel s || Dns.isName s

/-- A bare host name or a DNS name. -/
def hostName : Validator :=
  onText isHostName "must be a host name or DNS name"

def hostNames : Validator
  | .textSet hosts =>
      match hosts.items.find? fun host => !isHostName host with
      | some bad => .error ("'" ++ bad ++ "' is not a host name or DNS name")
      | none => .ok ()
  | value => .error ("expected a string set, got a " ++ value.kind.title)

def email : Validator :=
  onText isEmail "must be an email address"

def htpasswd : Validator :=
  onText isHtpasswd "must be of the form 'user:<bcrypt hash>'"

def secretToken : Validator :=
  onText isSecretToken "must be at least 16 characters of [A-Za-z0-9._~+/=-]"

/-- Certificate resolvers that the reverse proxy is set up with. -/
def certResolver : Validator :=
  oneOf ["prod", "staging"]

/-- Log levels of the reverse proxy. -/
def logLevel : Validator :=
  oneOf ["DEBUG", "INFO", "WARN", "ERROR"]

def portNumber : Validator :=
  between 1 65535

def ttl : Validator :=
  between 60 86400

def ipv4 : Validator :=
  onText (fun s => (Ipv4.parse? s).isSome) "must be an IPv4 address"

/-- Every key of the map names an environment variable. -/
def envVarMap : Validator
  | .textMap map =>
      match map.keys.find? fun key => !isEnvKey key with
      | some bad => .error ("'" ++ bad ++ "' is not a valid environment variable name")
      | none => .ok ()
  | value => .error ("expected a string map, got a " ++ value.kind.title)

end Validator

end HubKeeper
