/-!
Blank characters and trimming.

The blank characters are those with the Unicode property White_Space.  Trimming
works on lists of characters; the functions on strings are wrappers around it.
-/

namespace HubKeeper.Text

/-- The characters with the property White_Space. -/
def isBlank (c : Char) : Bool :=
  let n := c.toNat
  (9 ≤ n && n ≤ 13) || n == 0x20 || n == 0x85 || n == 0xa0 || n == 0x1680 ||
    (0x2000 ≤ n && n ≤ 0x200a) || n == 0x2028 || n == 0x2029 || n == 0x202f ||
    n == 0x205f || n == 0x3000

/-- Drops the longest run of characters with `p` at the end. -/
def dropEndWhile (p : Char → Bool) (cs : List Char) : List Char :=
  (cs.reverse.dropWhile p).reverse

def trimStartChars (cs : List Char) : List Char :=
  cs.dropWhile isBlank

def trimEndChars (cs : List Char) : List Char :=
  dropEndWhile isBlank cs

def trimChars (cs : List Char) : List Char :=
  trimEndChars (trimStartChars cs)

def trimStart (s : String) : String :=
  .ofList (trimStartChars s.toList)

def trimEnd (s : String) : String :=
  .ofList (trimEndChars s.toList)

def trim (s : String) : String :=
  .ofList (trimChars s.toList)

def trimEndOf (c : Char) (s : String) : String :=
  .ofList (dropEndWhile (· == c) s.toList)

end HubKeeper.Text
