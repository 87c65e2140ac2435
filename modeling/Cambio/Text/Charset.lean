import Cambio.Text.Blank
import Cambio.Text.Encoding

/-!
# Encodings by name

An encoding of a file is given by one of its names, in any case and with any signs between its
words. Some encodings let a byte order mark at the start tell the order of bytes.

## Main definitions

- `NamedCharset` — an encoding as its name gives it
- `NamedCharset.ofName?` — the encoding of a name
- `NamedCharset.decode?` — the strict reading of bytes
-/

namespace Cambio.Text

/-- An encoding as its name gives it. -/
inductive NamedCharset where
  /-- Just this encoding. -/
  | exactly (charset : Charset)
  /-- Bytes of a mark at the start are dropped. -/
  | afterMark
  /-- A mark at the start tells the order of bytes of UTF-16. -/
  | markedUtf16
  /-- A mark at the start tells the order of bytes of UTF-32. -/
  | markedUtf32
  deriving DecidableEq, Repr

namespace NamedCharset

/-- The names of encodings, words with underscores between them. -/
def names : List (NamedCharset × List String) := [
  (.exactly .utf8, ["utf_8", "u8", "utf", "utf8", "utf8_ucs2", "utf8_ucs4", "cp65001"]),
  (.afterMark, ["utf_8_sig"]),
  (.markedUtf16, ["utf_16", "u16", "utf16"]),
  (.exactly (.utf16 false), ["utf_16_le", "utf_16le", "unicodelittleunmarked"]),
  (.exactly (.utf16 true), ["utf_16_be", "utf_16be", "unicodebigunmarked"]),
  (.markedUtf32, ["utf_32", "u32", "utf32"]),
  (.exactly (.utf32 false), ["utf_32_le", "utf_32le"]),
  (.exactly (.utf32 true), ["utf_32_be", "utf_32be"]),
  (.exactly .basic, ["ascii", "646", "ansi_x3.4_1968", "ansi_x3_4_1968", "ansi_x3.4_1986", "cp367",
    "csascii", "ibm367", "iso646_us", "iso_646.irv_1991", "iso_ir_6", "us", "us_ascii"]),
  (.exactly .latin, ["latin_1", "8859", "cp819", "csisolatin1", "ibm819", "iso8859", "iso8859_1",
    "iso_8859_1", "iso_8859_1_1987", "iso_ir_100", "l1", "latin", "latin1"])]

/-- A sign between the words of a name. -/
def isBetween (c : Char) : Bool :=
  !(c.isAlphanum || c = '.')

/-- The words of a name in small letters, with underscores between them. -/
def wordsOf (name : String) : String :=
  let words := (splitBy isBetween (name.toList.map Char.toLower)).filter (· ≠ [])
  String.ofList (List.intercalate ['_'] words)

/-- The encoding of a name. -/
def ofName? (name : String) : Option NamedCharset :=
  (names.find? fun (_, spellings) => spellings.contains (wordsOf name)).map Prod.fst

/-- The strict reading of bytes. Without a mark the lower byte comes first. -/
def decode? (n : NamedCharset) (bytes : List UInt8) : Except Flaw (List Char) :=
  let (charset, mark) : Charset × Nat :=
    match n, bytes with
    | .exactly charset, _ => (charset, 0)
    | .afterMark, 0xEF :: 0xBB :: 0xBF :: _ => (.utf8, 3)
    | .afterMark, _ => (.utf8, 0)
    | .markedUtf16, 0xFE :: 0xFF :: _ => (.utf16 true, 2)
    | .markedUtf16, 0xFF :: 0xFE :: _ => (.utf16 false, 2)
    | .markedUtf16, _ => (.utf16 false, 0)
    | .markedUtf32, 0 :: 0 :: 0xFE :: 0xFF :: _ => (.utf32 true, 4)
    | .markedUtf32, 0xFF :: 0xFE :: 0 :: 0 :: _ => (.utf32 false, 4)
    | .markedUtf32, _ => (.utf32 false, 0)
  Text.decode? charset false mark (bytes.drop mark)

end NamedCharset

end Cambio.Text
