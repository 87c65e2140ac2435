import Cambio.Text.Run
import Cambio.Text.Mark
import Cambio.Text.Upper

/-!
# Lower case

The lower case of a text. A letter moves by a distance that many letters share. A capital sigma is
the one letter that looks around: at the end of a word it becomes the final small sigma.

## Main definitions

- `lowerChar` — the lower case of one character
- `isCased`, `isCaseIgnorable` — what is part of a word and what may stand inside one
- `lower` — the lower case of a text
-/

namespace Cambio.Text

/-- Distances to the lower case, each with the letters beyond the basic ones that move by it. -/
def lowerShifts : List (Int × List Run) :=
  lowerTable.map fun (distance, rows) => (distance, Run.ofRows rows)
where
  lowerTable : List (Int × List String) := [
  (32, ["C0-D6 D8-DE 391-3A1 3A3-3AB 410-42F FF21-FF3A 118A0-118BF 16E40-16E5F"]),
  (1, [
    "100-12E/2 132-136/2 139-147/2 14A-176/2 179-17D/2 182-184/2 187 18B 191 198 1A0-1A4/2",
    "1A7 1AC 1AF 1B3-1B5/2 1B8 1BC 1C5 1C8 1CB-1DB/2 1DE-1EE/2 1F2-1F4/2 1F8-21E/2",
    "222-232/2 23B 241 246-24E/2 370-372/2 376 3D8-3EE/2 3F7 3FA 460-480/2 48A-4BE/2",
    "4C1-4CD/2 4D0-52E/2 1E00-1E94/2 1EA0-1EFE/2 2183 2C60 2C67-2C6B/2 2C72 2C75",
    "2C80-2CE2/2 2CEB-2CED/2 2CF2 A640-A66C/2 A680-A69A/2 A722-A72E/2 A732-A76E/2",
    "A779-A77B/2 A77E-A786/2 A78B A790-A792/2 A796-A7A8/2 A7B4-A7C2/2 A7C7-A7C9/2 A7D0",
    "A7D6-A7D8/2 A7F5"]),
  (-121, ["178"]),
  (210, ["181"]),
  (206, ["186"]),
  (205, ["189-18A 193"]),
  (79, ["18E"]),
  (202, ["18F"]),
  (203, ["190"]),
  (207, ["194"]),
  (211, ["196 19C"]),
  (209, ["197"]),
  (213, ["19D"]),
  (214, ["19F"]),
  (218, ["1A6 1A9 1AE"]),
  (217, ["1B1-1B2"]),
  (219, ["1B7"]),
  (2, ["1C4 1C7 1CA 1F1"]),
  (-97, ["1F6"]),
  (-56, ["1F7"]),
  (-130, ["220 3FD-3FF"]),
  (10795, ["23A"]),
  (-163, ["23D"]),
  (10792, ["23E"]),
  (-195, ["243"]),
  (69, ["244"]),
  (71, ["245"]),
  (116, ["37F"]),
  (38, ["386"]),
  (37, ["388-38A"]),
  (64, ["38C 10C80-10CB2"]),
  (63, ["38E-38F"]),
  (8, ["3CF 13F0-13F5"]),
  (-60, ["3F4"]),
  (-7, ["3F9 1FEC"]),
  (80, ["400-40F"]),
  (15, ["4C0"]),
  (48, ["531-556 2C00-2C2F"]),
  (7264, ["10A0-10C5 10C7 10CD"]),
  (38864, ["13A0-13EF"]),
  (-3008, ["1C90-1CBA 1CBD-1CBF"]),
  (-7615, ["1E9E"]),
  (-8, [
    "1F08-1F0F 1F18-1F1D 1F28-1F2F 1F38-1F3F 1F48-1F4D 1F59-1F5F/2 1F68-1F6F 1F88-1F8F",
    "1F98-1F9F 1FA8-1FAF 1FB8-1FB9 1FD8-1FD9 1FE8-1FE9"]),
  (-74, ["1FBA-1FBB"]),
  (-9, ["1FBC 1FCC 1FFC"]),
  (-86, ["1FC8-1FCB"]),
  (-100, ["1FDA-1FDB"]),
  (-112, ["1FEA-1FEB"]),
  (-128, ["1FF8-1FF9"]),
  (-126, ["1FFA-1FFB"]),
  (-7517, ["2126"]),
  (-8383, ["212A"]),
  (-8262, ["212B"]),
  (28, ["2132"]),
  (16, ["2160-216F"]),
  (26, ["24B6-24CF"]),
  (-10743, ["2C62"]),
  (-3814, ["2C63"]),
  (-10727, ["2C64"]),
  (-10780, ["2C6D"]),
  (-10749, ["2C6E"]),
  (-10783, ["2C6F"]),
  (-10782, ["2C70"]),
  (-10815, ["2C7E-2C7F"]),
  (-35332, ["A77D"]),
  (-42280, ["A78D"]),
  (-42308, ["A7AA A7AE"]),
  (-42319, ["A7AB"]),
  (-42315, ["A7AC"]),
  (-42305, ["A7AD"]),
  (-42258, ["A7B0"]),
  (-42282, ["A7B1"]),
  (-42261, ["A7B2"]),
  (928, ["A7B3"]),
  (-48, ["A7C4"]),
  (-42307, ["A7C5"]),
  (-35384, ["A7C6"]),
  (40, ["10400-10427 104B0-104D3"]),
  (39, ["10570-1057A 1057C-1058A 1058C-10592 10594-10595"]),
  (34, ["1E900-1E921"])]

/-- The lower case of a character; the dotted capital letter I becomes two characters. -/
def lowerChar (c : Char) : List Char :=
  let n := c.toNat
  if n < 0x80 then [c.toLower]
  else if n = 0x130 then ['i', Char.ofNat 0x307]
  else
    match lowerShifts.find? fun shift => Run.anyHolds shift.2 n with
    | some shift => [Char.ofNat (n + shift.1).toNat]
    | none => [c]

/-- Letters with a case that neither moves to another one. -/
def fixedCase : List Run := Run.ofRows [
  "138 18D 19B 1AA-1AB 1BA 1BE 221 234-239 255 258-25A/2 25D-25F 262-264/2 267 26D-26E 270",
  "273-274 276-27C 27E-27F 281 284-286 28D-291 293-295/2 296-29C 29F-2AF 3FC 560 588",
  "1D00-1D2B 1D6B-1D77 1D7A-1D7C 1D7E-1D8D 1D8F-1D9A 1E9C-1E9D 1E9F 2C71 2C74 2C77-2C7B 2CE4",
  "A730-A731 A771-A778 A78E A795 A7AF A7D3-A7D5/2 A7FA AB30-AB52 AB54-AB5A AB60-AB68",
  "1DF00-1DF09 1DF0B-1DF1E"]

/-- A letter of a script that has capital and small letters. -/
def isCased (c : Char) : Bool :=
  lowerChar c ≠ [c] || upperChar c ≠ [c] || Run.anyHolds fixedCase c.toNat

/-- Characters besides the nonspacing marks that may stand inside a word. -/
def insideWords : List Run := Run.ofRows [
  "2E B7 2B9-2C1 2C6-2D1 2EC-2EE/2 375 559 5F4 6E5-6E6 7F4-7F5 81A 824 828 8C9 971 E46 EC6",
  "17D7 1843 1AA7 1C78-1C7D 1D2F 1D3B 1D4E 200C-200D 2E2F 3005 309D-309E 30FC-30FE A015",
  "A4F8-A4FD A60C A67F A717-A71F A788 A9CF A9E6 AA70 AADD AAF3-AAF4 FF0E 10780 16B40-16B43",
  "16F93-16F9F 16FE0-16FE1 16FE3 1AFF0-1AFF3 1AFF5-1AFFB 1AFFD-1AFFE 1E137-1E13D 1E94B"]

/-- A character that does not count when a word is looked for. -/
def isCaseIgnorable (c : Char) : Bool :=
  isNonspacing c || Run.anyHolds insideWords c.toNat

/-- The capital sigma. -/
def capitalSigma : Char := Char.ofNat 0x3A3

/-- The small sigma inside a word. -/
def smallSigma : Char := Char.ofNat 0x3C3

/-- The small sigma at the end of a word. -/
def finalSigma : Char := Char.ofNat 0x3C2

/-- A cased letter comes next, perhaps after characters that do not count. -/
def meetsCased (s : List Char) : Bool :=
  (s.dropWhile isCaseIgnorable).head?.any isCased

/-- The lower case of a text that follows another one, given backwards. -/
def lowerAfter (before : List Char) : List Char → List Char
  | [] => []
  | c :: rest =>
    let letters :=
      if c = capitalSigma then
        [if meetsCased before && !meetsCased rest then finalSigma else smallSigma]
      else lowerChar c
    letters ++ lowerAfter (c :: before) rest

/-- The lower case of a text. -/
def lower (s : List Char) : List Char :=
  lowerAfter [] s

end Cambio.Text
