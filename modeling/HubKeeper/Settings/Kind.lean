/-!
The kinds of values a setting can have.
-/

namespace HubKeeper

inductive Kind
  | text
  | integer
  | float
  | boolean
  | textSet
  | textList
  | textMap
deriving DecidableEq, Inhabited

namespace Kind

/-- Name in messages and generated documents. -/
def title : Kind → String
  | text => "string"
  | integer => "integer"
  | float => "float"
  | boolean => "boolean"
  | textSet => "string set"
  | textList => "string list"
  | textMap => "string map"

end Kind

end HubKeeper
