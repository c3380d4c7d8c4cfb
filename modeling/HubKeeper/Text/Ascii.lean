/-!
Classes of ASCII characters.  `Char.isDigit`, `Char.isAlpha`, `Char.isAlphanum`,
`Char.toLower` and `Char.toUpper` of core know ASCII only and are used as they are.
-/

namespace HubKeeper.Text

def isHexDigit (c : Char) : Bool :=
  c.isDigit || ('a' ≤ c && c ≤ 'f') || ('A' ≤ c && c ≤ 'F')

def hexValue (c : Char) : Nat :=
  if c.isDigit then c.toNat - 48
  else if 'a' ≤ c then c.toNat - 87
  else c.toNat - 55

def digitValue (c : Char) : Nat :=
  c.toNat - 48

/-- Number written by decimal digits, most significant first. -/
def decimalValue (digits : List Char) : Nat :=
  digits.foldl (fun n c => n * 10 + digitValue c) 0

def hexDigit (n : Nat) : Char :=
  Char.ofNat (if n < 10 then 48 + n else 87 + n)

def upperHexDigit (n : Nat) : Char :=
  Char.ofNat (if n < 10 then 48 + n else 55 + n)

def natChars (n : Nat) : List Char :=
  Nat.toDigits 10 n

def natText (n : Nat) : String :=
  .ofList (natChars n)

def intChars (n : Int) : List Char :=
  if n < 0 then '-' :: natChars n.natAbs else natChars n.natAbs

def intText (n : Int) : String :=
  .ofList (intChars n)

/-- Left-pads with zeros to at least `width` digits. -/
def paddedChars (width n : Nat) : List Char :=
  let digits := natChars n
  List.replicate (width - digits.length) '0' ++ digits

def lower (s : String) : String :=
  s.map Char.toLower

def upper (s : String) : String :=
  s.map Char.toUpper

end HubKeeper.Text
