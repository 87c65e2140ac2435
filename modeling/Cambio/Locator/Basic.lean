import Cambio.Hostname.Basic
import Cambio.Locator.Escape
import Cambio.Text.Address
import Cambio.Text.Lower

/-!
# Locators

Where a request goes, in the form in which it is sent: the host in basic small letters, the number
of its channel unless it goes without saying, the path without steps that lead nowhere, and escapes
for all that may not stand as it is.

## Main definitions

- `Locator` — the parts of a locator
- `Locator.Flaw` — why a text is no locator
- `Locator.ofText` — the locator of a text, without its query
- `Locator.target` — where a request with a locator goes
- `Locator.text` — the text of a locator
-/

namespace Cambio

/-- The parts of a locator, each with its escapes. Without a host it is only a path. -/
structure Locator where
  scheme : List Char
  user : List Char
  host : List Char
  number : Option Int
  path : List Char
  fragment : Option (List Char)
  deriving DecidableEq, Repr

namespace Locator

/-- Why a text is no locator. -/
inductive Flaw where
  | tooLong
  /-- A control character, after so many characters. -/
  | control (c : Char) (position : Nat)
  /-- A part has a character without bytes. -/
  | unwritable (u : Text.Unwritable)
  /-- The host has the form of a short numeric address and is none. -/
  | shortNumeric (host : List Char)
  /-- The host stands in brackets and is no long numeric address. -/
  | longNumeric (host : List Char)
  /-- The host is no host name. -/
  | name (host : List Char)
  | number (text : List Char)
  /-- A part is too long with its escapes. -/
  | partTooLong (part : String)
  deriving DecidableEq, Repr

/-- The wording of a flaw. -/
def Flaw.message : Flaw → String
  | .tooLong => "URL too long"
  | .control c position =>
    let shown := String.ofList (Text.quoted [c])
    s!"Invalid non-printable ASCII character in URL, {shown} at position {position}."
  | .unwritable u => u.message
  | .shortNumeric host => s!"Invalid IPv4 address: {String.ofList (Text.quoted host)}"
  | .longNumeric host => s!"Invalid IPv6 address: {String.ofList (Text.quoted host)}"
  | .name host => s!"Invalid IDNA hostname: {String.ofList (Text.quoted host)}"
  | .number text => s!"Invalid port: {String.ofList (Text.quoted text)}"
  | .partTooLong part => s!"URL component '{part}' too long"

/-- The most characters of a locator, and of a part of it with its escapes. -/
def lengthLimit : Nat := 65536

/-- The text of a part with its escapes. -/
def written (part : Part) (s : List Char) : Except Flaw (List Char) :=
  (escape part s).mapError .unwritable

/-! ## Hosts -/

/-- Where four groups of digits can go on after a character. A place is the count of groups before
    it, and whether the group under way has a digit; what parts two groups may be any character,
    even a digit. -/
def nextPlaces (c : Char) : Nat × Bool → List (Nat × Bool)
  | (groups, hasDigit) =>
    (if Decimal.isBasicDigit c then [(groups, true)] else []) ++
      if hasDigit && groups < 3 then [(groups + 1, false)] else []

/-- The form of a short numeric address, with whatever between its four numbers. -/
def looksShortNumeric (host : List Char) : Bool :=
  let places :=
    host.foldl (fun places c => (places.flatMap (nextPlaces c)).eraseDups) [(0, false)]
  places.contains (3, true)

/-- The text between brackets. -/
def bracketed? (host : List Char) : Option (List Char) :=
  if host.length ≥ 2 ∧ host.head? = some '[' ∧ host.getLast? = some ']' then
    some (host.drop 1).dropLast
  else none

/-- A host as it is sent. Brackets are taken off. -/
def hostText (host : List Char) : Except Flaw (List Char) :=
  if host = [] then .ok []
  else if looksShortNumeric host then
    if Address.isShortNumeric host then .ok host else .error (.shortNumeric host)
  else
    match bracketed? host with
    | some inner => if Address.isLongNumeric inner then .ok inner else .error (.longNumeric host)
    | none =>
      if host.all Text.Punycode.isBasic then
        (written .host (host.map Char.toLower)).map (·.map Char.toLower)
      else
        match Hostname.basic? (Text.lower host) with
        | some name => .ok name
        | none => .error (.name host)

/-! ## Numbers -/

/-- The most digits of a number. -/
def digitLimit : Nat := 4300

/-- The number of digits of any script, with single underscores between digits. -/
def magnitude? (s : List Char) : Option Nat :=
  let groups := Text.splitBy (· = '_') s
  if [] ∈ groups then none
  else do
    let digits ← groups.flatten.mapM Text.digitValue?
    if digits.length ≤ digitLimit then some (digits.foldl (fun n d => n * 10 + d) 0) else none

/-- A number with or without a sign, perhaps between blanks. -/
def number? (s : List Char) : Option Int :=
  let (negative, digits) := Decimal.splitSign (Text.trim s)
  (magnitude? digits).map fun n => if negative then -(n : Int) else n

/-- The number of a channel that goes without saying for a scheme. -/
def usualNumber? (scheme : List Char) : Option Int :=
  if scheme = "https".toList then some 443
  else if scheme = "http".toList then some 80
  else none

/-- The number behind a host, unless there is none or it goes without saying. -/
def numberOf (scheme s : List Char) : Except Flaw (Option Int) :=
  if s = [] then .ok none
  else
    match number? s with
    | some n => .ok (if some n = usualNumber? scheme then none else some n)
    | none => .error (.number s)

/-! ## Paths -/

/-- Walks the steps of a path: one point stays, two points go back, but not beyond the start. The
    steps so far are given backwards. -/
def walk (taken : List (List Char)) : List (List Char) → List (List Char)
  | [] => taken.reverse
  | ['.'] :: rest => walk taken rest
  | ['.', '.'] :: rest => walk (if taken = [[]] then taken else taken.drop 1) rest
  | step :: rest => walk (step :: taken) rest

/-- A path without steps that lead nowhere. -/
def straight (path : List Char) : List Char :=
  List.intercalate ['/'] (walk [] (Text.splitBy (· = '/') path))

/-! ## Reading and writing -/

/-- The host and the text of the number. Brackets belong to the host, up to the last one, and a
    colon between host and number to neither. -/
def splitSite (site : List Char) : List Char × List Char :=
  let inBrackets := (site.reverse.dropWhile (· ≠ ']')).reverse
  let host :=
    if site.head? = some '[' ∧ inBrackets ≠ [] then inBrackets
    else site.takeWhile (· ≠ ':')
  let rest := site.drop host.length
  (host, if rest.head? = some ':' then rest.drop 1 else rest)

/-- A control character. -/
def isControl (c : Char) : Bool :=
  c.toNat < 0x20 || c.toNat = 0x7F

/-- The locator of a text. Its query is looked at and dropped. -/
def ofText (s : List Char) : Except Flaw Locator := do
  if lengthLimit < s.length then throw .tooLong
  match s.dropWhile (!isControl ·) with
  | c :: _ => throw (.control c (s.takeWhile (!isControl ·)).length)
  | [] => pure ()
  let (scheme, rest) := Address.splitScheme s
  let authority := Address.hostPart rest
  let rest := if "//".toList.isPrefixOf rest then rest.drop (2 + authority.length) else rest
  let path := rest.takeWhile fun c => c ≠ '?' && c ≠ '#'
  let rest := rest.drop path.length
  let query := if rest.head? = some '?' then rest.takeWhile (· ≠ '#') else []
  let rest := rest.drop query.length
  let site := Address.afterAt authority
  let user ← written .user (authority.take (authority.length - site.length - 1))
  let (host, number) := splitSite site
  let host ← hostText host
  let number ← numberOf scheme number
  let path ← written .path (straight path)
  let _ ← written .query query
  let fragment ← if rest = [] then pure none else some <$> written .fragment (rest.drop 1)
  return ⟨scheme, user, host, number, path, fragment⟩

/-- The user, the host and the number; a long numeric address stands in brackets. -/
def authority (l : Locator) : List Char :=
  (if l.user = [] then [] else l.user ++ ['@']) ++
    (if ':' ∈ l.host then '[' :: l.host ++ [']'] else l.host) ++
    match l.number with
    | some n => ':' :: (toString n).toList
    | none => []

/-- The text of a locator. -/
def text (l : Locator) : List Char :=
  (if l.scheme = [] then [] else l.scheme ++ [':']) ++
    (if l.authority = [] then [] else '/' :: '/' :: l.authority) ++ l.path ++
    match l.fragment with
    | some fragment => '#' :: fragment
    | none => []

/-- Where a request with a locator goes. Without a host only the path is left. -/
def target (l : Locator) : Locator :=
  if l.host = [] then ⟨[], [], [], none, '/' :: l.path.dropWhile (· = '/'), none⟩ else l

/-- A locator whose parts are not too long. -/
def checked (l : Locator) : Except Flaw Locator :=
  if lengthLimit < l.authority.length then .error (.partTooLong "authority")
  else if lengthLimit < l.path.length then .error (.partTooLong "path")
  else if (l.fragment.getD []).length > lengthLimit then .error (.partTooLong "fragment")
  else .ok l

end Locator

end Cambio
