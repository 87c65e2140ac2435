import Cambio.Decimal.Reader
import Cambio.Text.Blank
import Cambio.Text.Encoding

/-!
# Addresses

The scheme and the host part of the address of a service. Control characters and spaces before an
address, and tabs and line ends anywhere in it, do not count. A host in brackets has to be a
numeric address of the longer kind.

## Main definitions

- `Address` — the scheme and the host part
- `Address.split?` — the parts of a text, or why it has none
- `Address.isLongNumeric` — the form of a numeric address of eight groups
-/

namespace Cambio

/-- The scheme, in small letters, and the host part of an address; either may be empty. -/
structure Address where
  scheme : List Char
  host : List Char
  deriving DecidableEq, Repr

namespace Address

/-- Why a text has no parts. -/
inductive Flaw where
  | openBracket
  | futureVersion
  | noNumericAddress (host : List Char)
  | shortInBrackets
  /-- The host part has a character that stands for a separator among others. -/
  | disguisedSeparator (host : List Char)
  deriving DecidableEq, Repr

/-- The wording of a flaw. -/
def Flaw.message : Flaw → String
  | .openBracket => "Invalid IPv6 URL"
  | .futureVersion => "IPvFuture address is invalid"
  | .noNumericAddress host =>
    s!"{String.ofList (Text.quoted host)} does not appear to be an IPv4 or IPv6 address"
  | .shortInBrackets => "An IPv4 address cannot be in brackets"
  | .disguisedSeparator host =>
    s!"netloc '{String.ofList host}' contains invalid characters under NFKC normalization"

/-! ## Numeric addresses -/

/-- A basic digit of base sixteen. -/
def isHexDigit (c : Char) : Bool :=
  (Text.hexValue? c).isSome

/-- A number from 0 to 255 without leading zeros. -/
def isOctet (s : List Char) : Bool :=
  s ≠ [] && s.all Decimal.isBasicDigit && s.length ≤ 3 && (s = ['0'] || s.head? ≠ some '0') &&
    Decimal.digitsValue 0 s ≤ 255

/-- Four octets with points between them. -/
def isShortNumeric (s : List Char) : Bool :=
  let octets := Text.splitBy (· = '.') s
  octets.length = 4 && octets.all isOctet

/-- One to four digits of base sixteen. -/
def isGroup (s : List Char) : Bool :=
  s ≠ [] && s.length ≤ 4 && s.all isHexDigit

/-- The last two groups may be written as a short address. -/
def withPlainTail? (parts : List (List Char)) : Option (List (List Char)) :=
  match parts.getLast? with
  | some last =>
    if '.' ∈ last then
      if isShortNumeric last then some (parts.dropLast ++ [['0'], ['0']]) else none
    else some parts
  | none => some parts

/-- The groups on one side of a gap; next to the gap an end of the text leaves one empty part. -/
def sideOfGap (parts : List (List Char)) : List (List Char) :=
  if parts = [[]] then [] else parts

/-- Eight groups, or fewer with one gap. -/
def areGroups (parts : List (List Char)) : Bool :=
  let inner := parts.drop 1 |>.dropLast
  match inner.findIdx? (· = []) with
  | none => parts.length = 8 && parts.all isGroup
  | some i =>
    let before := sideOfGap (parts.take (i + 1))
    let after := sideOfGap (parts.drop (i + 2))
    inner.count [] = 1 && before.length + after.length ≤ 7 && before.all isGroup &&
      after.all isGroup

/-- The form of a numeric address of eight groups, perhaps with a zone after a percent sign. -/
def isLongNumeric (s : List Char) : Bool :=
  let groups := s.takeWhile (· ≠ '%')
  let zoneGood :=
    match s.dropWhile (· ≠ '%') with
    | [] => true
    | _ :: zone => zone ≠ [] && '%' ∉ zone
  let parts := Text.splitBy (· = ':') groups
  '/' ∉ s && zoneGood && 3 ≤ parts.length &&
    (withPlainTail? parts).any fun parts => parts.length ≤ 9 && areGroups parts

/-- The form reserved for later versions: a version in base sixteen, a point and something. -/
def isFutureVersion (s : List Char) : Bool :=
  let rest := s.drop 1
  let version := rest.takeWhile isHexDigit
  version ≠ [] &&
    match rest.dropWhile isHexDigit with
    | '.' :: _ :: _ => true
    | _ => false

/-- What is wrong with a host in brackets. -/
def bracketFlaw? (host : List Char) : Option Flaw :=
  if host.head? = some 'v' then
    if isFutureVersion host then none else some .futureVersion
  else if isShortNumeric host then some .shortInBrackets
  else if isLongNumeric host then none
  else some (.noNumericAddress host)

/-! ## The parts of an address -/

/-- Characters that do not count at the start of an address. -/
def isLeading (c : Char) : Bool :=
  c.toNat ≤ 0x20

/-- Characters that do not count anywhere. -/
def isIgnored (c : Char) : Bool :=
  c = '\t' || c = '\r' || c = '\n'

/-- A basic letter. -/
def isLetter (c : Char) : Bool :=
  ('a' ≤ c && c ≤ 'z') || ('A' ≤ c && c ≤ 'Z')

/-- A character of a scheme. -/
def isSchemeChar (c : Char) : Bool :=
  isLetter c || Decimal.isBasicDigit c || c = '+' || c = '-' || c = '.'

/-- The scheme before the first colon, in small letters, and the rest. -/
def splitScheme (s : List Char) : List Char × List Char :=
  let scheme := s.takeWhile (· ≠ ':')
  match s.dropWhile (· ≠ ':') with
  | ':' :: rest =>
    if scheme.head?.any isLetter && scheme.all isSchemeChar then
      (scheme.map Char.toLower, rest)
    else ([], s)
  | _ => ([], s)

/-- The host part after two slashes. -/
def hostPart : List Char → List Char
  | '/' :: '/' :: rest => rest.takeWhile fun c => c ≠ '/' && c ≠ '?' && c ≠ '#'
  | _ => []

/-- The characters outside the basic ones that stand for a text with a separator of addresses. -/
def separatorsInDisguise : List Nat := [
  0x2047, 0x2048, 0x2049, 0x2100, 0x2101, 0x2105, 0x2106, 0x2A74, 0xFE13, 0xFE16, 0xFE55, 0xFE56,
  0xFE5F, 0xFE6B, 0xFF03, 0xFF0F, 0xFF1A, 0xFF1F, 0xFF20]

/-- What follows the last at sign. -/
def afterAt (s : List Char) : List Char :=
  (s.reverse.takeWhile (· ≠ '@')).reverse

/-- What is wrong with a host part that has brackets of both kinds. Only a host stands in brackets,
    with nothing before it and nothing but a number of a channel after a colon behind it. -/
def bracketedFlaw? (host : List Char) : Option Flaw :=
  let site := afterAt host
  match site.dropWhile (· ≠ '[') with
  | _ :: rest =>
    if site.head? ≠ some '[' then some .openBracket
    else
      match rest.dropWhile (· ≠ ']') with
      | _ :: c :: _ => if c = ':' then bracketFlaw? (rest.takeWhile (· ≠ ']')) else some .openBracket
      | _ => bracketFlaw? (rest.takeWhile (· ≠ ']'))
  | [] => bracketFlaw? (site.takeWhile (· ≠ ':'))

/-- What is wrong with a host part. -/
def hostFlaw? (host : List Char) : Option Flaw :=
  let opened := '[' ∈ host
  let closed := ']' ∈ host
  let bracket :=
    if opened ∧ closed then bracketedFlaw? host
    else if opened ∨ closed then some .openBracket
    else none
  bracket.or <|
    if host.any fun c => c.toNat ∈ separatorsInDisguise then some (.disguisedSeparator host)
    else none

/-- The parts of a text. -/
def split? (s : List Char) : Except Flaw Address :=
  let (scheme, rest) := splitScheme ((s.dropWhile isLeading).filter (!isIgnored ·))
  let host := hostPart rest
  match hostFlaw? host with
  | some flaw => .error flaw
  | none => .ok ⟨scheme, host⟩

end Address

end Cambio
