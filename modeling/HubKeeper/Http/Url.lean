import HubKeeper.Text.Ascii
import HubKeeper.Text.Fields

/-!
Addresses of requests.

An address is written as text and brought into the form in which it is sent: tabs
and line breaks are dropped, segments that are points are resolved, and characters
that cannot be sent are replaced by their bytes after percent signs.  Parameters of
a query are encoded more strictly, with a plus sign for a blank.
-/

namespace HubKeeper.Http

def percentByte (b : UInt8) : List Char :=
  ['%', Text.upperHexDigit (b.toNat / 16), Text.upperHexDigit (b.toNat % 16)]

def percentChars (c : Char) : List Char :=
  (String.utf8EncodeChar c).flatMap percentByte

/-- Replaces the characters of a class. -/
def escape (needed : Char → Bool) (cs : List Char) : List Char :=
  cs.flatMap fun c => if needed c then percentChars c else [c]

/-- Characters that are sent nowhere as they are. -/
def neverSent (c : Char) : Bool :=
  c.toNat ≤ 0x20 || 0x7e < c.toNat || c == '"' || c == '<' || c == '>'

def escapedInPath (c : Char) : Bool :=
  neverSent c || c == '#' || c == '?' || c == '\x60' || c == '\x7b' || c == '\x7d'

def escapedInQuery (c : Char) : Bool :=
  neverSent c || c == '#' || c == '\''

def escapedInFragment (c : Char) : Bool :=
  neverSent c || c == '\x60'

/-- Characters that the parameters of a query keep. -/
def isFormChar (c : Char) : Bool :=
  c.isAlphanum || c == '*' || c == '-' || c == '.' || c == '_'

def formChars (cs : List Char) : List Char :=
  cs.flatMap fun c =>
    if isFormChar c then [c] else if c = ' ' then ['+'] else percentChars c

def formText (parameters : List (String × String)) : List Char :=
  List.intercalate ['&'] (parameters.map fun (name, value) =>
    formChars name.toList ++ '=' :: formChars value.toList)

/-- A segment in which escaped points are points. -/
def plainPoints : List Char → List Char
  | '%' :: '2' :: 'e' :: rest => '.' :: plainPoints rest
  | '%' :: '2' :: 'E' :: rest => '.' :: plainPoints rest
  | c :: rest => c :: plainPoints rest
  | [] => []

/-- Resolves segments that are one or two points. -/
def resolveSegments (done : List (List Char)) : List (List Char) → List (List Char)
  | [] => done
  | segment :: rest =>
      let up := plainPoints segment = ['.', '.']
      let here := plainPoints segment = ['.']
      let kept := if up then done.dropLast else done
      if up || here then resolveSegments (if rest = [] then kept ++ [[]] else kept) rest
      else resolveSegments (done ++ [segment]) rest

structure Url where
  origin : String
  path : List Char
  query : Option (List Char)
  fragment : Option (List Char)
deriving DecidableEq, Inhabited

namespace Url

/-- What stands before the first of some characters, and what follows it from there. -/
def cutBefore (stop : Char → Bool) (cs : List Char) : List Char × List Char :=
  (cs.takeWhile (!stop ·), cs.dropWhile (!stop ·))

/-- A part that follows its mark, if there is one. -/
def afterMark (escaped : Char → Bool) : List Char → Option (List Char)
  | [] => none
  | _ :: rest => some (escape escaped rest)

/-- The path of an address; a backslash counts as a slash. -/
def pathOf (cs : List Char) : List Char :=
  let slashed := cs.map fun c => if c = '\\' then '/' else c
  let segments := Text.fields '/' (slashed.drop 1)
  '/' :: List.intercalate ['/'] ((resolveSegments [] segments).map (escape escapedInPath))

/-- The address that a text writes: an origin such as `http://server`, and a path with
an optional query and fragment. -/
def ofText (text : String) : Url :=
  let cs := text.toList.filter fun c => c != '\t' && c != '\n' && c != '\r'
  let (scheme, rest) := cutBefore (· == '/') cs
  let (host, rest) := cutBefore (fun c => c == '/' || c == '\\' || c == '?' || c == '#') (rest.drop 2)
  let (path, rest) := cutBefore (fun c => c == '?' || c == '#') rest
  let (query, fragment) := cutBefore (· == '#') rest
  ⟨.ofList (scheme ++ '/' :: '/' :: host), pathOf path, afterMark escapedInQuery query,
    afterMark escapedInFragment fragment⟩

def withParameters (url : Url) (parameters : List (String × String)) : Url :=
  if parameters.isEmpty then url
  else
    match url.query with
    | none | some [] => { url with query := some (formText parameters) }
    | some query => { url with query := some (query ++ '&' :: formText parameters) }

/-- Path and query as they are sent. -/
def target (url : Url) : String :=
  .ofList (url.path ++ url.query.elim [] ('?' :: ·))

def text (url : Url) : String :=
  url.origin ++ url.target ++ .ofList (url.fragment.elim [] ('#' :: ·))

end Url

end HubKeeper.Http
