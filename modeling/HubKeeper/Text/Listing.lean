import HubKeeper.Text.Ascii
import HubKeeper.Text.Unprintable

/-!
Texts in diagnostic listings: between quotes, with every character that has no
visible form of its own written by its code point.
-/

namespace HubKeeper.Text

def hexChars (n : Nat) : List Char :=
  Nat.toDigits 16 n

def listedChar (c : Char) : List Char :=
  if c = '"' then ['\\', '"']
  else if c = '\\' then ['\\', '\\']
  else if c = '\n' then ['\\', 'n']
  else if c = '\r' then ['\\', 'r']
  else if c = '\t' then ['\\', 't']
  else if c.toNat = 0 then ['\\', '0']
  else if isUnprintable c then '\\' :: 'u' :: '\x7b' :: hexChars c.toNat ++ ['\x7d']
  else [c]

def listed (s : String) : String :=
  .ofList ('"' :: s.toList.flatMap listedChar ++ ['"'])

def braced (entries : List String) : String :=
  "\x7b" ++ ", ".intercalate entries ++ "\x7d"

def bracketed (entries : List String) : String :=
  "[" ++ ", ".intercalate entries ++ "]"

end HubKeeper.Text
