import Cambio.Text.Bytes

/-!
# Escapes in locators

Each part of a locator has characters of its own that stand as they are. The bytes of any other
character are written as escapes, a percent sign and two digits of base sixteen.

## Main definitions

- `Locator.Part` — the parts that differ in this
- `Locator.escape` — the text of a part with its escapes
- `Locator.formText` — named values as a query
-/

namespace Cambio.Locator

/-- The parts of a locator that differ in what stands as it is. -/
inductive Part where
  | user
  | host
  | path
  | query
  | fragment
  deriving DecidableEq, Repr

namespace Part

/-- The visible basic characters that may not stand as they are. -/
def reserved : Part → String
  | .user => "\"#<>?`\x7b\x7d/;=@[\\]^|"
  | .host => "#/:<>?@[]^"
  | .path => "\"#<>?`\x7b\x7d"
  | .query => "\"#<>"
  | .fragment => "\"<>`"

/-- A character stands as it is. -/
def admits (part : Part) (c : Char) : Bool :=
  0x20 < c.toNat && c.toNat < 0x7F && !part.reserved.toList.contains c

end Part

/-- A byte as an escape. -/
def escapeByte (b : UInt8) : List Char :=
  '%' :: (Text.hexDigits 2 b.toNat).map Char.toUpper

/-- A character in a part. -/
def escapeChar (part : Part) (c : Char) : Except Text.Unwritable (List Char) :=
  if part.admits c then .ok [c] else (Text.bytes? [c]).map (·.flatMap escapeByte)

/-- The text of a part with its escapes. -/
def escape (part : Part) (s : List Char) : Except Text.Unwritable (List Char) :=
  (s.mapM (escapeChar part)).map List.flatten

/-! ## Named values -/

/-- A basic letter or digit, or one of four signs, stands as it is in a value. -/
def isFormPlain (c : Char) : Bool :=
  c.isAlphanum || "_.-~".toList.contains c

/-- A name or a value in a query; a space is a plus sign. -/
def formEscape (s : String) : List Char :=
  s.toList.flatMap fun c =>
    if c = ' ' then ['+']
    else if isFormPlain c then [c]
    else (Text.encodeUtf8Char c).flatMap escapeByte

/-- Named values as a query. -/
def formText (values : List (String × String)) : List Char :=
  List.intercalate ['&'] <|
    values.map fun (name, value) => formEscape name ++ '=' :: formEscape value

end Cambio.Locator
