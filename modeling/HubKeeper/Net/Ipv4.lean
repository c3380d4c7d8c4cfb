import HubKeeper.Text.Fields
import HubKeeper.Text.Ascii

/-!
IPv4 addresses and their dotted form.
-/

namespace HubKeeper

structure Ipv4 where
  a : UInt8
  b : UInt8
  c : UInt8
  d : UInt8
deriving DecidableEq, Inhabited

namespace Ipv4

/-- A decimal number below 256 without needless leading zeros. -/
def octet? (cs : List Char) : Option UInt8 :=
  if cs = [] || 3 < cs.length || !cs.all Char.isDigit then none
  else if cs.head? = some '0' && cs.length != 1 then none
  else
    let n := Text.decimalValue cs
    if n < 256 then some (.ofNat n) else none

def ofChars? (cs : List Char) : Option Ipv4 :=
  match (Text.fields '.' cs).mapM octet? with
  | some [a, b, c, d] => some ⟨a, b, c, d⟩
  | _ => none

/-- Four numbers separated by points, nothing around them. -/
def parse? (s : String) : Option Ipv4 :=
  ofChars? s.toList

def chars (ip : Ipv4) : List Char :=
  Text.natChars ip.a.toNat ++ '.' :: Text.natChars ip.b.toNat ++ '.' ::
    Text.natChars ip.c.toNat ++ '.' :: Text.natChars ip.d.toNat

def text (ip : Ipv4) : String :=
  .ofList ip.chars

end Ipv4

end HubKeeper
