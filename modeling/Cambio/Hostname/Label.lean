import Cambio.Hostname.Composed
import Cambio.Hostname.Letter

/-!
# Labels

A host name is made of labels. A label is composed of letters, digits, marks and single hyphens. A
few more characters may stand where their neighbours ask for them, and a label that is written
leftward keeps to one direction.

## Main definitions

- `fits` — the characters that need certain neighbours
- `isOneWay` — the rule on directions
- `isLabel` — the labels
-/

namespace Cambio.Hostname

/-! ## Neighbours -/

/-- The class of the signs that silence a vowel. -/
def silencerClass : Nat := 9

/-- A sign that silences a vowel stands right before. -/
def afterSilencer (before : List Char) : Bool :=
  before.head?.any fun c => Text.combiningClass c = silencerClass

/-- The next letter to join, past those that are joined across. -/
def nextJoining (s : List Char) : Joining :=
  (((s.map joining).dropWhile (· = .transparent)).head?).getD .none

/-- The letters on both sides would join across this place. -/
def betweenJoined (before rest : List Char) : Bool :=
  (nextJoining before = .dual || nextJoining before = .after) &&
    (nextJoining rest = .dual || nextJoining rest = .before)

/-- A digit of the Arabic letters. -/
def isArabicDigit (c : Char) : Bool :=
  0x660 ≤ c.toNat && c.toNat ≤ 0x669

/-- A digit of the Arabic letters in its eastern form. -/
def isEasternDigit (c : Char) : Bool :=
  0x6F0 ≤ c.toNat && c.toNat ≤ 0x6F9

/-- A character that needs certain neighbours has them. What stands before it is given backwards. -/
def fits (before : List Char) (c : Char) (rest : List Char) : Bool :=
  let others := before ++ rest
  match c.toNat with
  -- the two signs that part and join letters
  | 0x200C => afterSilencer before || betweenJoined before rest
  | 0x200D => afterSilencer before
  -- the point of the Catalan double l
  | 0xB7 => before.head? = some 'l' && rest.head? = some 'l'
  -- the sign before Greek numerals
  | 0x375 => rest.head?.any isGreek
  -- the two signs after Hebrew numerals
  | 0x5F3 => before.head?.any isHebrew
  | 0x5F4 => before.head?.any isHebrew
  -- the point between Japanese words
  | 0x30FB => others.any isKanaOrHan
  | _ =>
    if isArabicDigit c then !others.any isEasternDigit
    else isEasternDigit c && !others.any isArabicDigit

/-- Every character may stand where it stands. -/
def allFit (before : List Char) : List Char → Bool
  | [] => true
  | c :: rest => (isPermitted c || fits before c rest) && allFit (c :: before) rest

/-! ## Directions -/

/-- The direction at the end of a label, before the marks there. -/
def lastDirection? (ds : List Direction) : Option Direction :=
  (ds.reverse.dropWhile (· = .mark)).head?

/-- A label that holds something written leftward starts with a letter, keeps to the direction of
    that letter, and ends with a letter or a digit; digits of two kinds do not mix. -/
def isOneWay (ds : List Direction) : Bool :=
  let leftward := .leftward ∈ ds || .arabicNumber ∈ ds
  if !leftward then true
  else
    match ds.head? with
    | some .leftward =>
      .rightward ∉ ds && !(.number ∈ ds && .arabicNumber ∈ ds) &&
        (lastDirection? ds).any fun d => d = .leftward || d = .number || d = .arabicNumber
    | _ => false

/-! ## Labels -/

/-- Hyphens stand neither at the ends nor as the third and fourth character. -/
def hyphensFit (s : List Char) : Bool :=
  s.head? ≠ some '-' && s.getLast? ≠ some '-' && (s.drop 2).take 2 ≠ ['-', '-']

/-- The rules on a label. -/
def isLabel (s : List Char) : Bool :=
  s ≠ [] && allFit [] s && hyphensFit s && !s.head?.any Text.isMark && isComposed s &&
    isOneWay (s.map direction)

end Cambio.Hostname
