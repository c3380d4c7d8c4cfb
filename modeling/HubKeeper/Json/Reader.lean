import HubKeeper.Json.Basic
import HubKeeper.Text.Ascii
import HubKeeper.Text.Fields

/-!
Reading JSON text.

Integers that fit 64 bits, signed or unsigned, stay integers; every other number
is a double.  A double is read as its leading digits that fit 64 bits times a
power of ten, each step rounded, so the last bit may differ from the nearest
double.  A number too large for a double is refused, and so is nesting deeper
than 127 levels.
-/

namespace HubKeeper.Json

def isSpace (c : Char) : Bool :=
  c == ' ' || c == '\n' || c == '\t' || c == '\r'

def skipSpace (cs : List Char) : List Char :=
  cs.dropWhile isSpace

def hex4 : List Char → Option (Nat × List Char)
  | a :: b :: c :: d :: rest =>
      if Text.isHexDigit a && Text.isHexDigit b && Text.isHexDigit c && Text.isHexDigit d then
        some (((Text.hexValue a * 16 + Text.hexValue b) * 16 + Text.hexValue c) * 16 +
          Text.hexValue d, rest)
      else none
  | _ => none

def simpleEscape (c : Char) : Option Char :=
  match c with
  | '"' => some '"'
  | '\\' => some '\\'
  | '/' => some '/'
  | 'b' => some '\x08'
  | 'f' => some '\x0c'
  | 'n' => some '\n'
  | 'r' => some '\r'
  | 't' => some '\t'
  | _ => none

/-- The character of a `\u` escape; one above the basic plane takes two. -/
def unicodeEscape (cs : List Char) : Option (Char × List Char) :=
  match hex4 cs with
  | none => none
  | some (first, rest) =>
      if 0xd800 ≤ first && first < 0xdc00 then
        match rest with
        | '\\' :: 'u' :: low =>
            match hex4 low with
            | some (second, tail) =>
                if 0xdc00 ≤ second && second < 0xe000 then
                  some (Char.ofNat (0x10000 + (first - 0xd800) * 0x400 + (second - 0xdc00)), tail)
                else none
            | none => none
        | _ => none
      -- The second half of a pair does not stand alone.
      else if 0xdc00 ≤ first && first < 0xe000 then none
      else some (Char.ofNat first, rest)

/-- The characters of a string up to the closing quote, and what follows it. -/
def stringBody : (fuel : Nat) → List Char → Option (List Char × List Char)
  | 0, _ => none
  | _, [] => none
  | fuel + 1, c :: rest =>
      if c = '"' then some ([], rest)
      else if c = '\\' then
        match rest with
        | 'u' :: code =>
            match unicodeEscape code with
            | some (d, tail) => (stringBody fuel tail).map fun (s, t) => (d :: s, t)
            | none => none
        | e :: tail =>
            match simpleEscape e with
            | some d => (stringBody fuel tail).map fun (s, t) => (d :: s, t)
            | none => none
        | [] => none
      else if c.toNat < 32 then none
      else (stringBody fuel rest).map fun (s, t) => (c :: s, t)

def maxSignificand : Nat := UInt64.size - 1

/-- Takes leading digits while the number fits 64 bits. -/
def takeDigits (n : Nat) : List Char → Nat × List Char
  | [] => (n, [])
  | c :: rest =>
      let next := n * 10 + Text.digitValue c
      if maxSignificand < next then (n, c :: rest) else takeDigits next rest

def powerOfTen (k : Nat) : Binary64 :=
  .ofNat (Nat.pow 10 k)

/-- A significand of 64 bits times a power of ten, rounded at each step; nothing
if the result is too large for a double. -/
def scaleDouble (significand : Nat) (power : Int) : Option Binary64 :=
  let start := Binary64.ofNat significand
  if 0 ≤ power then
    -- No higher power of ten is a double.
    if power ≤ 308 then
      let product := start.mulFinite (powerOfTen power.toNat)
      if product.isFinite then some product else none
    else if significand = 0 then some start
    else none
  else
    let down := (-power).toNat
    if down ≤ 308 then some (start.divFinite (powerOfTen down))
    else if down ≤ 616 then
      some ((start.divFinite (powerOfTen 308)).divFinite (powerOfTen (down - 308)))
    else some (.zero false)

structure Literal where
  whole : List Char
  fraction : Option (List Char)
  power : Option Int

/-- Optional fraction: a point and at least one digit. -/
def fractionPart : List Char → Option (Option (List Char) × List Char)
  | '.' :: rest =>
      match rest.takeWhile Char.isDigit with
      | [] => none
      | digits => some (some digits, rest.dropWhile Char.isDigit)
  | cs => some (none, cs)

/-- Optional exponent: a letter e, a sign if wanted, and at least one digit. -/
def exponentPart : List Char → Option (Option Int × List Char)
  | [] => some (none, [])
  | c :: rest =>
      if c = 'e' || c = 'E' then
        let (negative, body) := match rest with
          | '-' :: more => (true, more)
          | '+' :: more => (false, more)
          | more => (false, more)
        match body.takeWhile Char.isDigit with
        | [] => none
        | digits =>
            let n : Int := Text.decimalValue digits
            some (some (if negative then -n else n), body.dropWhile Char.isDigit)
      else some (none, c :: rest)

/-- A number literal without sign; a leading zero stands alone. -/
def literal (cs : List Char) : Option (Literal × List Char) :=
  match cs.takeWhile Char.isDigit with
  | [] => none
  | whole =>
      if whole.head? = some '0' && whole.length != 1 then none
      else
        match fractionPart (cs.dropWhile Char.isDigit) with
        | none => none
        | some (fraction, rest) =>
            (exponentPart rest).map fun (power, tail) => (⟨whole, fraction, power⟩, tail)

/-- Value of a literal with fraction or exponent, or of a too long integer. -/
def literalDouble (lit : Literal) : Option Binary64 :=
  let (significand, dropped) := takeDigits 0 lit.whole
  let fraction := lit.fraction.getD []
  if dropped = [] then
    let (significand, unread) := takeDigits significand fraction
    let shift : Int := fraction.length - unread.length
    scaleDouble significand (lit.power.getD 0 - shift)
  else
    let (significand, unread) := takeDigits significand fraction
    let shift : Int := fraction.length - unread.length
    scaleDouble significand (lit.power.getD 0 + dropped.length - shift)

def literalNumber (negative : Bool) (lit : Literal) : Option JsonNumber :=
  let n := Text.decimalValue lit.whole
  let asDouble := (literalDouble lit).map fun x => JsonNumber.double (if negative then x.neg else x)
  match lit.fraction, lit.power with
  | none, none =>
      if negative then
        if 0 < n && Number.minInt64 ≤ -(n : Int) then some (.int (-n)) else asDouble
      else if n ≤ maxSignificand then some (.int n)
      else asDouble
  | _, _ => asDouble

def number (cs : List Char) : Option (JsonNumber × List Char) :=
  let (negative, body) := match cs with
    | '-' :: rest => (true, rest)
    | rest => (false, rest)
  match literal body with
  | none => none
  | some (lit, tail) => (literalNumber negative lit).map fun n => (n, tail)

mutual

/-- One value at the front of the text, and what follows it.  `depth` levels of
nesting are left. -/
def value : (fuel : Nat) → (depth : Nat) → List Char → Option (Json × List Char)
  | 0, _, _ => none
  | fuel + 1, depth, cs =>
      match skipSpace cs with
      | [] => none
      | '"' :: rest =>
          (stringBody (rest.length + 1) rest).map fun (s, tail) => (.str (.ofList s), tail)
      | '[' :: rest =>
          match depth with
          | 0 => none
          | depth + 1 =>
              match skipSpace rest with
              | ']' :: tail => some (.arr [], tail)
              | _ => (items fuel depth rest).map fun (is, tail) => (.arr is, tail)
      | '\x7b' :: rest =>
          match depth with
          | 0 => none
          | depth + 1 =>
              match skipSpace rest with
              | '\x7d' :: tail => some (.obj [], tail)
              | _ => (fields fuel depth rest).map fun (fs, tail) => (.obj fs, tail)
      | cs =>
          match Text.dropLead ['n', 'u', 'l', 'l'] cs with
          | some tail => some (.null, tail)
          | none =>
              match Text.dropLead ['t', 'r', 'u', 'e'] cs with
              | some tail => some (.bool true, tail)
              | none =>
                  match Text.dropLead ['f', 'a', 'l', 's', 'e'] cs with
                  | some tail => some (.bool false, tail)
                  | none => (number cs).map fun (n, tail) => (.num n, tail)

def items : (fuel : Nat) → (depth : Nat) → List Char → Option (List Json × List Char)
  | 0, _, _ => none
  | fuel + 1, depth, cs =>
      match value fuel depth cs with
      | none => none
      | some (item, rest) =>
          match skipSpace rest with
          | ']' :: tail => some ([item], tail)
          | ',' :: tail => (items fuel depth tail).map fun (is, after) => (item :: is, after)
          | _ => none

def fields : (fuel : Nat) → (depth : Nat) → List Char → Option (List (String × Json) × List Char)
  | 0, _, _ => none
  | fuel + 1, depth, cs =>
      match skipSpace cs with
      | '"' :: rest =>
          match stringBody (rest.length + 1) rest with
          | none => none
          | some (key, afterKey) =>
              match skipSpace afterKey with
              | ':' :: afterColon =>
                  match value fuel depth afterColon with
                  | none => none
                  | some (item, afterItem) =>
                      match skipSpace afterItem with
                      | '\x7d' :: tail => some ([(.ofList key, item)], tail)
                      | ',' :: tail =>
                          (fields fuel depth tail).map fun (fs, after) =>
                            ((.ofList key, item) :: fs, after)
                      | _ => none
              | _ => none
      | _ => none

end

def maxDepth : Nat := 127

/-- The value a whole text writes, its fields in the order written. -/
def parseChars? (cs : List Char) : Option Json :=
  match value (2 * cs.length + 2) maxDepth cs with
  | none => none
  | some (result, tail) => if skipSpace tail = [] then some result else none

/-- The value a whole text writes, in canonical form. -/
def parse? (s : String) : Option Json :=
  (parseChars? s.toList).map canonical

end HubKeeper.Json
