import Cambio.Hostname.Label
import Cambio.Text.Punycode

/-!
# Host names

A host name in any script and its form in basic characters. A label with other characters is
marked as such and written as punycode; a label that is marked already has to stand for a proper
one.

## Main definitions

- `Hostname.basic?` — the basic form of a host name
-/

namespace Cambio.Hostname

/-- The points that part the labels of a name: the basic one, and three of East Asian scripts. -/
def isPoint (c : Char) : Bool :=
  c = '.' || c.toNat = 0x3002 || c.toNat = 0xFF0E || c.toNat = 0xFF61

/-- What a label starts with that is written as punycode. -/
def mark : List Char := "xn--".toList

/-- The most characters of a label in its basic form. -/
def labelLimit : Nat := 63

/-- The most characters of a name in its basic form. -/
def nameLimit : Nat := 253

/-- The label that a basic one stands for is proper. -/
def standsForLabel (s : List Char) : Bool :=
  if mark.isPrefixOf s then
    let code := s.drop mark.length
    code ≠ [] && code.getLast? ≠ some '-' && (Text.Punycode.decode? code).any isLabel
  else isLabel s

/-- The basic form of a label. -/
def basicLabel? (s : List Char) : Option (List Char) :=
  let basic := if s.all Text.Punycode.isBasic then s else mark ++ Text.Punycode.encode s
  let isProper := if s.all Text.Punycode.isBasic then standsForLabel s else isLabel s
  if isProper ∧ basic.length ≤ labelLimit then some basic else none

/-- The basic form of a host name in small letters. A point at the end is kept. -/
def basic? (s : List Char) : Option (List Char) := do
  let pieces := Text.splitBy isPoint s
  let isClosed := pieces.getLast? = some []
  let limit := if isClosed then nameLimit + 1 else nameLimit
  guard (s.length ≤ nameLimit + 1)
  let labels ← (if isClosed then pieces.dropLast else pieces).mapM basicLabel?
  guard (labels ≠ [])
  let name := List.intercalate ['.'] (labels ++ if isClosed then [[]] else [])
  guard (name.length ≤ limit)
  return name

end Cambio.Hostname
