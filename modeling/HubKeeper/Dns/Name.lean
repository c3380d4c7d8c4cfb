import HubKeeper.Text.Fields
import HubKeeper.Text.Ascii

/-!
Grammar of DNS names.

A label is one to 63 ASCII letters, digits and hyphens without a hyphen at either
end.  A name has at least two labels between points, the last not all digits, at
most 255 bytes, and may end in one more point.
-/

namespace HubKeeper.Dns

def isLabelChar (c : Char) : Bool :=
  c.isAlphanum || c == '-'

def isLabelChars (cs : List Char) : Bool :=
  cs != [] && Text.byteLength cs ≤ 63 && cs.head? != some '-' && cs.getLast? != some '-' &&
    cs.all isLabelChar

/-- The labels of a name, one point at the end ignored. -/
def labels (cs : List Char) : List (List Char) :=
  Text.fields '.' (if cs.getLast? = some '.' then cs.dropLast else cs)

def isNameChars (cs : List Char) : Bool :=
  3 ≤ Text.byteLength cs && Text.byteLength cs ≤ 255 &&
    2 ≤ (labels cs).length &&
    !((labels cs).getLast?.any fun label => label.all Char.isDigit) &&
    (labels cs).all isLabelChars

def isLabel (s : String) : Bool :=
  isLabelChars s.toList

def isName (s : String) : Bool :=
  isNameChars s.toList

end HubKeeper.Dns
