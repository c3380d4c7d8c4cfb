import HubKeeper.Number.Scan
import HubKeeper.Text.Fields
import HubKeeper.Toml.Basic

/-!
Scalars that are written without quotes: integers, floats, booleans, dates and times.

A bare scalar extends to the first character that cannot be part of one; the whole
of it must have one of the forms.  Underscores may stand between digits.
-/

namespace HubKeeper.Toml

def isBareChar (c : Char) : Bool :=
  c.isAlphanum || c == '_' || c == '+' || c == '-' || c == '.' || c == ':'

/-- Digits of a run in which single underscores stand between digits. -/
def digitRun? (isDigit : Char → Bool) : List Char → Option (List Char)
  | [] => none
  | [c] => if isDigit c then some [c] else none
  | c :: '_' :: rest => if isDigit c then (digitRun? isDigit rest).map (c :: ·) else none
  | c :: rest => if isDigit c then (digitRun? isDigit rest).map (c :: ·) else none

def wholeDigits? (cs : List Char) : Option (List Char) :=
  (digitRun? Char.isDigit cs).filter fun digits => digits.length = 1 || digits.head? != some '0'

def isOctalDigit (c : Char) : Bool :=
  '0' ≤ c && c ≤ '7'

def isBinaryDigit (c : Char) : Bool :=
  c == '0' || c == '1'

def valueInBase (base : Nat) (digits : List Char) : Nat :=
  digits.foldl (fun n c => n * base + Text.hexValue c) 0

/-- An integer of 64 bits, decimal with an optional sign or in base 16, 8 or 2
without one. -/
def integer? (cs : List Char) : Option Int :=
  let magnitude : Option Int := match cs with
    | '0' :: 'x' :: rest => (digitRun? Text.isHexDigit rest).map fun ds => valueInBase 16 ds
    | '0' :: 'o' :: rest => (digitRun? isOctalDigit rest).map fun ds => valueInBase 8 ds
    | '0' :: 'b' :: rest => (digitRun? isBinaryDigit rest).map fun ds => valueInBase 2 ds
    | _ =>
        let (negative, body) := Number.splitSign cs
        (wholeDigits? body).map fun digits =>
          if negative then -(Text.decimalValue digits : Int) else Text.decimalValue digits
  magnitude.filter Number.fitsInt64

/-- The text before the first of some characters, and what follows it from there. -/
def splitBefore (stop : Char → Bool) (cs : List Char) : List Char × List Char :=
  (cs.takeWhile (!stop ·), cs.dropWhile (!stop ·))

def isExponentMark (c : Char) : Bool :=
  c == 'e' || c == 'E'

/-- Exponent after its letter: an optional sign and digits. -/
def exponent? (cs : List Char) : Option Int :=
  let (negative, body) := Number.splitSign cs
  (digitRun? Char.isDigit body).map fun digits =>
    if negative then -(Text.decimalValue digits : Int) else Text.decimalValue digits

def decimal? (negative : Bool) (cs : List Char) : Option Binary64 :=
  let (mantissa, power) := splitBefore isExponentMark cs
  let (whole, fraction) := splitBefore (· == '.') mantissa
  match wholeDigits? whole, fraction, power with
  -- Digits alone are an integer.
  | some _, [], [] => none
  | some digits, [], _ :: power =>
      (exponent? power).map fun n => .ofDecimal negative (Text.decimalValue digits) n
  | some digits, _ :: fraction, power =>
      match digitRun? Char.isDigit fraction, power with
      | some places, [] =>
          some (.ofDecimal negative (Text.decimalValue (digits ++ places)) (-(places.length : Int)))
      | some places, _ :: power =>
          (exponent? power).map fun n =>
            .ofDecimal negative (Text.decimalValue (digits ++ places)) (n - places.length)
      | none, _ => none
  | none, _, _ => none

/-- A float: a decimal that does not exceed the doubles, or a word for a value that
no decimal writes. -/
def float? (cs : List Char) : Option Binary64 :=
  let (negative, body) := Number.splitSign cs
  match body with
  | ['i', 'n', 'f'] => some (.infinity negative)
  | ['n', 'a', 'n'] => some (.nan negative)
  | _ => (decimal? negative body).filter (· != .infinity false)

def fixedNat? (count low high : Nat) (cs : List Char) : Option Nat :=
  if cs.length = count && cs.all Char.isDigit then
    let n := Text.decimalValue cs
    if low ≤ n && n ≤ high then some n else none
  else none

def isLeapYear (year : Nat) : Bool :=
  year % 4 = 0 && (year % 100 != 0 || year % 400 = 0)

def daysOf (year month : Nat) : Nat :=
  if month = 2 then if isLeapYear year then 29 else 28
  else if month = 4 || month = 6 || month = 9 || month = 11 then 30
  else 31

/-- A date such as 2024-02-29 that the calendar has. -/
def date? (cs : List Char) : Option Date :=
  match Text.fields '-' cs with
  | [year, month, day] => do
      let year ← fixedNat? 4 0 9999 year
      let month ← fixedNat? 2 1 12 month
      let day ← fixedNat? 2 1 (daysOf year month) day
      return ⟨year, month, day⟩
  | _ => none

/-- Nanoseconds of a fraction; digits beyond the ninth are dropped. -/
def nanoseconds? (cs : List Char) : Option Nat :=
  if cs != [] && cs.all Char.isDigit then
    let digits := cs.take 9
    some (Text.decimalValue digits * Nat.pow 10 (9 - digits.length))
  else none

/-- A time of day such as 07:32:00.5; a minute may have a 60th second. -/
def time? (cs : List Char) : Option Time :=
  match Text.fields ':' cs with
  | [hour, minute, rest] => do
      let hour ← fixedNat? 2 0 23 hour
      let minute ← fixedNat? 2 0 59 minute
      let (second, fraction) := splitBefore (· == '.') rest
      let second ← fixedNat? 2 0 60 second
      let nanosecond ← match fraction with
        | [] => some 0
        | _ :: digits => nanoseconds? digits
      return ⟨hour, minute, second, nanosecond⟩
  | _ => none

def offsetMinutes? (cs : List Char) : Option Nat :=
  match Text.fields ':' cs with
  | [hour, minute] => do
      return (← fixedNat? 2 0 23 hour) * 60 + (← fixedNat? 2 0 59 minute)
  | _ => none

def isOffsetMark (c : Char) : Bool :=
  c == 'Z' || c == 'z' || c == '+' || c == '-'

def timeAndOffset? (cs : List Char) : Option (Time × Option Offset) :=
  let (clock, offset) := splitBefore isOffsetMark cs
  match time? clock, offset with
  | some t, [] => some (t, none)
  | some t, ['Z'] | some t, ['z'] => some (t, some .universal)
  | some t, '+' :: rest => (offsetMinutes? rest).map fun n => (t, some (.minutes n))
  | some t, '-' :: rest => (offsetMinutes? rest).map fun n => (t, some (.minutes (-n)))
  | _, _ => none

/-- A date, a time of day, or both with a letter or a blank between them. -/
def moment? (cs : List Char) : Option Moment :=
  match date? (cs.take 10), cs.drop 10 with
  | some d, [] => some ⟨some d, none, none⟩
  | some d, mark :: rest =>
      if mark = 'T' || mark = 't' || mark = ' ' then
        (timeAndOffset? rest).map fun (t, offset) => ⟨some d, some t, offset⟩
      else none
  | none, _ => (time? cs).map fun t => ⟨none, some t, none⟩

def bareScalar? (cs : List Char) : Option Scalar :=
  match cs with
  | ['t', 'r', 'u', 'e'] => some (.boolean true)
  | ['f', 'a', 'l', 's', 'e'] => some (.boolean false)
  | _ =>
      match moment? cs with
      | some m => some (.moment m)
      | none =>
          match integer? cs with
          | some n => some (.integer n)
          | none => (float? cs).map .float

/-- The spelling of a bare scalar at the front, and what follows it.  A time after a
date and a blank belongs to it. -/
def bareSpelling (cs : List Char) : Raw × List Char :=
  let word := cs.takeWhile isBareChar
  let rest := cs.dropWhile isBareChar
  match (date? word).isSome, rest with
  | true, ' ' :: c :: tail =>
      if c.isDigit then
        (word ++ ' ' :: (c :: tail).takeWhile isBareChar, (c :: tail).dropWhile isBareChar)
      else (word, rest)
  | _, _ => (word, rest)

end HubKeeper.Toml
