import HubKeeper.Collections.TextSet
import HubKeeper.Text.Blank
import HubKeeper.Text.Fields

/-!
Texts for the reverse proxy.

A host rule matches any of a set of host names; it does not depend on the order
and repetitions of the names given.
-/

namespace HubKeeper.Stack

/-- The names of a rule: blanks around them and empty ones removed. -/
def ruleNames (hosts : List String) : TextSet :=
  .ofList ((hosts.map Text.trim).filter (· != ""))

def hostTerm (host : String) : String :=
  "Host(\x60" ++ host ++ "\x60)"

def hostRule (hosts : List String) : String :=
  " || ".intercalate ((ruleNames hosts).items.map hostTerm)

/-- Doubles every dollar sign, which otherwise starts an interpolation in a compose
file. -/
def escapeDollars (s : String) : String :=
  .ofList (Text.replaceChar '$' ['$', '$'] s.toList)

end HubKeeper.Stack
