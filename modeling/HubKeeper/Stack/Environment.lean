import HubKeeper.Dotenv.Writer
import HubKeeper.Text.Listing

/-!
The environment of a stack: named variables, written as a dotenv file.
-/

namespace HubKeeper

structure StackEnvironment where
  name : String
  vars : Dict String
deriving DecidableEq

namespace StackEnvironment

def heading (env : StackEnvironment) : String :=
  "Environment for the '" ++ env.name ++ "' stack. Generated; do not edit."

def toDotenv (env : StackEnvironment) : String :=
  Dotenv.render env.heading env.vars

/-- Diagnostic listing: the keys only, since values may be secret. -/
def listing (env : StackEnvironment) : String :=
  "EnvironmentDictionary \x7b name: " ++ Text.listed env.name ++ ", keys: " ++
    Text.bracketed (env.vars.keys.map Text.listed) ++ " \x7d"

end StackEnvironment

end HubKeeper
