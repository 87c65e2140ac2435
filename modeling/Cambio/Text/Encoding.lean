import Cambio.Text.Quoted

/-!
# Byte encodings of text

Reading bytes as UTF-8, UTF-16 or UTF-32 and writing text as UTF-8. A reading is a sequence of
chunks: a chunk is a character with the bytes it took, or a flaw that covers the bytes that
cannot start or continue a character. A strict reading stops at the first flaw; a lenient one
puts the replacement character in its place.

## Main definitions

- `Charset` — the encodings, and `Charset.detect`, which tells them apart by the leading bytes
- `Flaw` — where and why bytes are no text, with its wording in `Flaw.message`
- `decode?` — the strict reading
- `decodeUtf8Lenient` — the lenient reading of UTF-8
- `encodeUtf8` — the bytes of a text
-/

namespace Cambio.Text

/-- Why a stretch of bytes is no character. -/
inductive FlawReason where
  | startByte
  | continuationByte
  | endOfData
  | truncated
  | outOfRange
  /-- Half of a surrogate pair alone. -/
  | loneHalf
  /-- A byte that is no basic character. -/
  | notBasic
  deriving DecidableEq, Repr

/-- The wording of a reason. -/
def FlawReason.message : FlawReason → String
  | .startByte => "invalid start byte"
  | .continuationByte => "invalid continuation byte"
  | .endOfData => "unexpected end of data"
  | .truncated => "truncated data"
  | .outOfRange => "code point not in range(0x110000)"
  | .loneHalf => "illegal UTF-16 surrogate"
  | .notBasic => "ordinal not in range(128)"

/-- The encodings a text may arrive in. -/
inductive Charset where
  | utf8
  | utf16 (bigEndian : Bool)
  | utf32 (bigEndian : Bool)
  /-- The basic characters alone, one byte for each. -/
  | basic
  /-- The first 256 characters, one byte for each. -/
  | latin
  deriving DecidableEq, Repr

/-- The name of an encoding. -/
def Charset.name : Charset → String
  | .utf8 => "utf-8"
  | .utf16 false => "utf-16-le"
  | .utf16 true => "utf-16-be"
  | .utf32 false => "utf-32-le"
  | .utf32 true => "utf-32-be"
  | .basic => "ascii"
  | .latin => "latin-1"

/-- A stretch of bytes that is no character. -/
structure Flaw where
  charset : Charset
  position : Nat
  bytes : List UInt8
  reason : FlawReason
  deriving DecidableEq, Repr

/-- The wording of a flaw names one byte by its value and several by their positions. -/
def Flaw.message (flaw : Flaw) : String :=
  let place :=
    match flaw.bytes with
    | [b] =>
      s!"byte 0x{String.ofList (hexDigits 2 b.toNat)} in position {flaw.position}"
    | bytes => s!"bytes in position {flaw.position}-{flaw.position + bytes.length - 1}"
  s!"'{flaw.charset.name}' codec can't decode {place}: {flaw.reason.message}"

/-- One step of a reading: what the leading bytes are, and how many of them it took. -/
structure Chunk where
  content : Except FlawReason Char
  length : Nat

/-- A byte that continues a multi-byte character. -/
def isContinuation (b : UInt8) : Bool :=
  0x80 ≤ b && b ≤ 0xBF

/-- The second byte that may follow the lead byte of a multi-byte character: no overlong form,
    no code point above the last, and surrogates only where they are let through. -/
def admitsSecond (surrogates : Bool) (lead second : UInt8) : Bool :=
  isContinuation second &&
    (if lead = 0xE0 then 0xA0 ≤ second
     else if lead = 0xED then surrogates || second ≤ 0x9F
     else if lead = 0xF0 then 0x90 ≤ second
     else if lead = 0xF4 then second ≤ 0x8F
     else true)

/-- The count of bytes of a character by its lead byte. -/
def utf8Width? (lead : UInt8) : Option Nat :=
  if lead < 0x80 then some 1
  else if 0xC2 ≤ lead && lead ≤ 0xDF then some 2
  else if 0xE0 ≤ lead && lead ≤ 0xEF then some 3
  else if 0xF0 ≤ lead && lead ≤ 0xF4 then some 4
  else none

/-- The first chunk of UTF-8 bytes; a surrogate passes only when all its bytes are there. -/
def utf8Chunk (surrogates : Bool) (lead : UInt8) (rest : List UInt8) : Chunk :=
  match utf8Width? lead with
  | none => ⟨.error .startByte, 1⟩
  | some 1 => ⟨.ok (charOfPoint lead.toNat), 1⟩
  | some width =>
    let whole := surrogates && (rest.drop 1).head?.any isContinuation
    let follow :=
      match rest with
      | [] => []
      | second :: more =>
        if admitsSecond whole lead second then
          second :: (more.take (width - 2)).takeWhile isContinuation
        else []
    let taken := follow.length + 1
    if taken = width then
      let start := lead.toNat % Nat.pow 2 (7 - width)
      ⟨.ok (charOfPoint (follow.foldl (fun n b => n * 64 + b.toNat % 64) start)), width⟩
    else if taken = rest.length + 1 then
      ⟨.error .endOfData, taken⟩
    else ⟨.error .continuationByte, taken⟩

/-- The value of a code unit. -/
def unitValue (bigEndian : Bool) (bytes : List UInt8) : Nat :=
  (if bigEndian then bytes else bytes.reverse).foldl (fun n b => n * 256 + b.toNat) 0

/-- The chunk of a code point that may be half of a surrogate pair. -/
def pointChunk (surrogates : Bool) (n length : Nat) : Chunk :=
  if !surrogates && firstHalf ≤ n && n ≤ lastHalf then ⟨.error .loneHalf, length⟩
  else ⟨.ok (charOfPoint n), length⟩

/-- The first chunk of UTF-16 bytes. -/
def utf16Chunk (surrogates bigEndian : Bool) (bytes : List UInt8) : Chunk :=
  match bytes with
  | a :: b :: rest =>
    let high := unitValue bigEndian [a, b]
    match rest with
    | c :: d :: _ =>
      let low := unitValue bigEndian [c, d]
      if 0xD800 ≤ high && high ≤ 0xDBFF && 0xDC00 ≤ low && low ≤ 0xDFFF then
        ⟨.ok (charOfPoint (0x10000 + (high - 0xD800) * 0x400 + (low - 0xDC00))), 4⟩
      else pointChunk surrogates high 2
    | _ => pointChunk surrogates high 2
  | _ => ⟨.error .truncated, bytes.length⟩

/-- The first chunk of UTF-32 bytes. -/
def utf32Chunk (surrogates bigEndian : Bool) (bytes : List UInt8) : Chunk :=
  if bytes.length < 4 then ⟨.error .truncated, bytes.length⟩
  else
    let n := unitValue bigEndian (bytes.take 4)
    if n < 0x110000 then pointChunk surrogates n 4 else ⟨.error .outOfRange, 4⟩

/-- The first chunk of bytes that are basic characters. -/
def basicChunk (lead : UInt8) : Chunk :=
  if lead < 0x80 then ⟨.ok (charOfPoint lead.toNat), 1⟩ else ⟨.error .notBasic, 1⟩

/-- The first chunk of some bytes. Surrogates pass where `surrogates` says so. -/
def Charset.chunk (charset : Charset) (surrogates : Bool) (lead : UInt8)
    (rest : List UInt8) : Chunk :=
  match charset with
  | .utf8 => utf8Chunk surrogates lead rest
  | .utf16 bigEndian => utf16Chunk surrogates bigEndian (lead :: rest)
  | .utf32 bigEndian => utf32Chunk surrogates bigEndian (lead :: rest)
  | .basic => basicChunk lead
  | .latin => ⟨.ok (charOfPoint lead.toNat), 1⟩

/-- Reads chunk after chunk from a position on, each of at least one byte; `fuel` bounds their
    number. A flaw becomes what `onFlaw` makes of it. -/
def readChunks (charset : Charset) (surrogates : Bool)
    (onFlaw : Flaw → Except Flaw Char) :
    Nat → Nat → List UInt8 → Except Flaw (List Char)
  | _, _, [] => .ok []
  | 0, _, _ => .ok []
  | fuel + 1, position, lead :: rest =>
    let chunk := charset.chunk surrogates lead rest
    let here : Except Flaw Char :=
      match chunk.content with
      | .ok c => .ok c
      | .error reason => onFlaw ⟨charset, position, (lead :: rest).take chunk.length, reason⟩
    match here with
    | .error flaw => .error flaw
    | .ok c =>
      match readChunks charset surrogates onFlaw fuel (position + max 1 chunk.length)
          ((lead :: rest).drop (max 1 chunk.length)) with
      | .error flaw => .error flaw
      | .ok cs => .ok (c :: cs)

/-- The strict reading of some bytes, counted from `position`. -/
def decode? (charset : Charset) (surrogates : Bool) (position : Nat) (bytes : List UInt8) :
    Except Flaw (List Char) :=
  readChunks charset surrogates .error bytes.length position bytes

/-- The strict reading of UTF-8. -/
def decodeUtf8? (bytes : List UInt8) : Except Flaw (List Char) :=
  decode? .utf8 false 0 bytes

/-- The reading of UTF-8 with a replacement character for every flaw. -/
def decodeUtf8Lenient (bytes : List UInt8) : List Char :=
  match readChunks .utf8 false (fun _ => .ok '\uFFFD') bytes.length 0 bytes with
  | .ok cs => cs
  | .error _ => []

/-- The UTF-8 bytes of a character. -/
def encodeUtf8Char (c : Char) : List UInt8 :=
  let n := c.toNat
  if n < 0x80 then [n.toUInt8]
  else if n < 0x800 then [(0xC0 + n / 64).toUInt8, (0x80 + n % 64).toUInt8]
  else if n < 0x10000 then
    [(0xE0 + n / 4096).toUInt8, (0x80 + n / 64 % 64).toUInt8, (0x80 + n % 64).toUInt8]
  else
    [(0xF0 + n / 262144).toUInt8, (0x80 + n / 4096 % 64).toUInt8, (0x80 + n / 64 % 64).toUInt8,
      (0x80 + n % 64).toUInt8]

/-- The UTF-8 bytes of a text. -/
def encodeUtf8 (s : List Char) : List UInt8 :=
  s.flatMap encodeUtf8Char

/-- The encoding of a text that starts with a basic Latin character, told by where the zero
    bytes are, with the count of bytes of a byte order mark. A UTF-8 mark is reported apart,
    since positions are then counted after it. -/
def Charset.detect (bytes : List UInt8) : Charset × Nat :=
  match bytes with
  | 0 :: 0 :: 0xFE :: 0xFF :: _ => (.utf32 true, 4)
  | 0xFF :: 0xFE :: 0 :: 0 :: _ => (.utf32 false, 4)
  | 0xFE :: 0xFF :: _ => (.utf16 true, 2)
  | 0xFF :: 0xFE :: _ => (.utf16 false, 2)
  | 0xEF :: 0xBB :: 0xBF :: _ => (.utf8, 3)
  | 0 :: 0 :: _ :: _ :: _ => (.utf32 true, 0)
  | 0 :: _ :: _ :: _ :: _ => (.utf16 true, 0)
  | _ :: 0 :: 0 :: 0 :: _ => (.utf32 false, 0)
  | _ :: 0 :: _ :: _ :: _ => (.utf16 false, 0)
  | [0, _] => (.utf16 true, 0)
  | [_, 0] => (.utf16 false, 0)
  | _ => (.utf8, 0)

/-- The reading of bytes in the encoding that their first few suggest. -/
def decodeDetected? (bytes : List UInt8) : Except Flaw (List Char) :=
  let (charset, mark) := Charset.detect bytes
  let position := if charset = .utf8 then 0 else mark
  decode? charset true position (bytes.drop mark)

/-- The value of a hexadecimal digit. -/
def hexValue? (c : Char) : Option Nat :=
  if '0' ≤ c ∧ c ≤ '9' then some (c.toNat - 0x30)
  else if 'a' ≤ c ∧ c ≤ 'f' then some (c.toNat - 0x57)
  else if 'A' ≤ c ∧ c ≤ 'F' then some (c.toNat - 0x37)
  else none

/-- The bytes of pairs of hexadecimal digits, up to where there is no such pair. -/
def bytesOfHex : List Char → List UInt8
  | a :: b :: rest =>
    match hexValue? a, hexValue? b with
    | some x, some y => UInt8.ofNat (16 * x + y) :: bytesOfHex rest
    | _, _ => []
  | _ => []

end Cambio.Text
