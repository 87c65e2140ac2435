import Cambio.Text.Mark

/-!
# The letters of host names

Which characters a host name may hold, and what the rules on labels ask about them: the direction
in which they are written, how they join their neighbours, and the script some of them belong to.

## Main definitions

- `isPermitted` — the characters that may stand anywhere
- `Direction`, `direction` — the direction in which a character is written
- `Joining`, `joining` — how a letter joins its neighbours
- `isGreek`, `isHebrew`, `isKanaOrHan` — scripts that some characters need nearby
-/

namespace Cambio.Hostname

open Text (Run)

/-- The code points that may stand anywhere in a name. -/
def permitted : List Run := Run.ofRows [
  "2D 30-39 61-7A DF-F6 F8-FF 101-131/2 135-137/2 138-13E/2 142-148/2 14B-177/2 17A-180/2",
  "183-185/2 188 18C-18D 192 195 199-19B 19E 1A1-1A5/2 1A8-1AA/2 1AB-1AD/2 1B0 1B4-1B6/2",
  "1B9-1BB 1BD-1C3 1CE-1DC/2 1DD-1EF/2 1F0 1F5 1F9-233/2 234-239 23C 23F-240 242 247-24F/2",
  "250-2AF 2B9-2C1 2C6-2D1 2EC-2EE/2 300-33F 342 346-34E 350-36F 371-373/2 377 37B-37D 390",
  "3AC-3CE 3D7-3EF/2 3F3 3F8 3FB-3FC 430-45F 461-483/2 484-487 48B-4BF/2 4C2-4CE/2 4CF-52F/2",
  "559 560-586 588 591-5BD 5BF-5C1/2 5C2-5C4/2 5C5-5C7/2 5D0-5EA 5EF-5F2 610-61A 620-63F",
  "641-65F 66E-674 679-6D3 6D5-6DC 6DF-6E8 6EA-6EF 6FA-6FF 710-74A 74D-7B1 7C0-7F5 7FD",
  "800-82D 840-85B 860-86A 870-887 889-88E 898-8E1 8E3-957 960-963 966-96F 971-983 985-98C",
  "98F-990 993-9A8 9AA-9B0 9B2 9B6-9B9 9BC-9C4 9C7-9C8 9CB-9CE 9D7 9E0-9E3 9E6-9F1 9FC-9FE/2",
  "A01-A03 A05-A0A A0F-A10 A13-A28 A2A-A30 A32 A35 A38-A39 A3C-A3E/2 A3F-A42 A47-A48 A4B-A4D",
  "A51 A5C A66-A75 A81-A83 A85-A8D A8F-A91 A93-AA8 AAA-AB0 AB2-AB3 AB5-AB9 ABC-AC5 AC7-AC9",
  "ACB-ACD AD0 AE0-AE3 AE6-AEF AF9-AFF B01-B03 B05-B0C B0F-B10 B13-B28 B2A-B30 B32-B33",
  "B35-B39 B3C-B44 B47-B48 B4B-B4D B55-B57 B5F-B63 B66-B6F B71 B82-B83 B85-B8A B8E-B90",
  "B92-B95 B99-B9A B9C-B9E/2 B9F BA3-BA4 BA8-BAA BAE-BB9 BBE-BC2 BC6-BC8 BCA-BCD BD0 BD7",
  "BE6-BEF C00-C0C C0E-C10 C12-C28 C2A-C39 C3C-C44 C46-C48 C4A-C4D C55-C56 C58-C5A C5D",
  "C60-C63 C66-C6F C80-C83 C85-C8C C8E-C90 C92-CA8 CAA-CB3 CB5-CB9 CBC-CC4 CC6-CC8 CCA-CCD",
  "CD5-CD6 CDD-CDE CE0-CE3 CE6-CEF CF1-CF2 D00-D0C D0E-D10 D12-D44 D46-D48 D4A-D4E D54-D57",
  "D5F-D63 D66-D6F D7A-D7F D81-D83 D85-D96 D9A-DB1 DB3-DBB DBD DC0-DC6 DCA DCF-DD4 DD6-DD8/2",
  "DD9-DDF DE6-DEF DF2-DF3 E01-E32 E34-E3A E40-E4E E50-E59 E81-E82 E84-E86/2 E87-E8A E8C-EA3",
  "EA5-EA7/2 EA8-EB2 EB4-EBD EC0-EC4 EC6-EC8/2 EC9-ECD ED0-ED9 EDE-EDF F00 F0B F18-F19",
  "F20-F29 F35-F39/2 F3E-F42 F44-F47 F49-F4C F4E-F51 F53-F56 F58-F5B F5D-F68 F6A-F6C F71-F72",
  "F74 F7A-F80 F82-F84 F86-F92 F94-F97 F99-F9C F9E-FA1 FA3-FA6 FA8-FAB FAD-FB8 FBA-FBC FC6",
  "1000-1049 1050-109D 10D0-10FA 10FD-10FF 1200-1248 124A-124D 1250-1256 1258-125A/2",
  "125B-125D 1260-1288 128A-128D 1290-12B0 12B2-12B5 12B8-12BE 12C0-12C2/2 12C3-12C5",
  "12C8-12D6 12D8-1310 1312-1315 1318-135A 135D-135F 1380-138F 13A0-13F5 1401-166C 166F-167F",
  "1681-169A 16A0-16EA 16F1-16F8 1700-1715 171F-1734 1740-1753 1760-176C 176E-1770 1772-1773",
  "1780-17B3 17B6-17D3 17D7 17DC-17DD 17E0-17E9 1810-1819 1820-1878 1880-18AA 18B0-18F5",
  "1900-191E 1920-192B 1930-193B 1946-196D 1970-1974 1980-19AB 19B0-19C9 19D0-19D9 1A00-1A1B",
  "1A20-1A5E 1A60-1A7C 1A7F-1A89 1A90-1A99 1AA7 1AB0-1ABD 1ABF-1ACE 1B00-1B4C 1B50-1B59",
  "1B6B-1B73 1B80-1BF3 1C00-1C37 1C40-1C49 1C4D-1C7D 1CD0-1CD2 1CD4-1CFA 1D00-1D2B 1D2F 1D3B",
  "1D4E 1D6B-1D77 1D79-1D9A 1DC0-1DFF 1E01-1E95/2 1E96-1E99 1E9C-1E9D 1E9F-1EFF/2 1F00-1F07",
  "1F10-1F15 1F20-1F27 1F30-1F37 1F40-1F45 1F50-1F57 1F60-1F67 1F70-1F7C/2 1FB0-1FB1 1FB6",
  "1FC6 1FD0-1FD2 1FD6-1FD7 1FE0-1FE2 1FE4-1FE7 1FF6 214E 2184 2C30-2C5F 2C61 2C65-2C66",
  "2C68-2C6C/2 2C71-2C73/2 2C74-2C76/2 2C77-2C7B 2C81-2CE3/2 2CE4 2CEC-2CEE/2 2CEF-2CF1 2CF3",
  "2D00-2D25 2D27 2D2D 2D30-2D67 2D7F-2D96 2DA0-2DA6 2DA8-2DAE 2DB0-2DB6 2DB8-2DBE 2DC0-2DC6",
  "2DC8-2DCE 2DD0-2DD6 2DD8-2DDE 2DE0-2DFF 2E2F 3005-3007 302A-302D 303C 3041-3096 3099-309A",
  "309D-309E 30A1-30FA 30FC-30FE 3105-312F 31A0-31BF 31F0-31FF 3400-4DBF 4E00-A48C A4D0-A4FD",
  "A500-A60C A610-A62B A641-A66D/2 A66E-A66F A674-A67D A67F-A69B/2 A69E-A6E5 A6F0-A6F1",
  "A717-A71F A723-A72F/2 A730-A731 A733-A771/2 A772-A778 A77A-A77C/2 A77F-A787/2 A788",
  "A78C-A78E/2 A78F-A793/2 A794-A795 A797-A7A9/2 A7AF A7B5-A7C3/2 A7C8-A7CA/2 A7D1-A7D9/2",
  "A7F6-A7F7 A7FA-A827 A82C A840-A873 A880-A8C5 A8D0-A8D9 A8E0-A8F7 A8FB-A8FD/2 A8FE-A92D",
  "A930-A953 A980-A9C0 A9CF-A9D9 A9E0-A9FE AA00-AA36 AA40-AA4D AA50-AA59 AA60-AA76 AA7A-AAC2",
  "AADB-AADD AAE0-AAEF AAF2-AAF6 AB01-AB06 AB09-AB0E AB11-AB16 AB20-AB26 AB28-AB2E AB30-AB5A",
  "AB60-AB68 ABC0-ABEA ABEC-ABED ABF0-ABF9 AC00-D7A3 FA0E-FA0F FA11-FA13/2 FA14 FA1F-FA23/2",
  "FA24 FA27-FA29 FB1E FE20-FE2F FE73 10000-1000B 1000D-10026 10028-1003A 1003C-1003D",
  "1003F-1004D 10050-1005D 10080-100FA 101FD 10280-1029C 102A0-102D0 102E0 10300-1031F",
  "1032D-10340 10342-10349 10350-1037A 10380-1039D 103A0-103C3 103C8-103CF 10428-1049D",
  "104A0-104A9 104D8-104FB 10500-10527 10530-10563 10597-105A1 105A3-105B1 105B3-105B9",
  "105BB-105BC 10600-10736 10740-10755 10760-10767 10780 10800-10805 10808-1080A/2",
  "1080B-10835 10837-10838 1083C 1083F-10855 10860-10876 10880-1089E 108E0-108F2 108F4-108F5",
  "10900-10915 10920-10939 10980-109B7 109BE-109BF 10A00-10A03 10A05-10A06 10A0C-10A13",
  "10A15-10A17 10A19-10A35 10A38-10A3A 10A3F 10A60-10A7C 10A80-10A9C 10AC0-10AC7 10AC9-10AE6",
  "10B00-10B35 10B40-10B55 10B60-10B72 10B80-10B91 10C00-10C48 10CC0-10CF2 10D00-10D27",
  "10D30-10D39 10E80-10EA9 10EAB-10EAC 10EB0-10EB1 10F00-10F1C 10F27 10F30-10F50 10F70-10F85",
  "10FB0-10FC4 10FE0-10FF6 11000-11046 11066-11075 1107F-110BA 110C2 110D0-110E8 110F0-110F9",
  "11100-11134 11136-1113F 11144-11147 11150-11173 11176 11180-111C4 111C9-111CC 111CE-111DA",
  "111DC 11200-11211 11213-11237 1123E 11280-11286 11288-1128A/2 1128B-1128D 1128F-1129D",
  "1129F-112A8 112B0-112EA 112F0-112F9 11300-11303 11305-1130C 1130F-11310 11313-11328",
  "1132A-11330 11332-11333 11335-11339 1133B-11344 11347-11348 1134B-1134D 11350 11357",
  "1135D-11363 11366-1136C 11370-11374 11400-1144A 11450-11459 1145E-11461 11480-114C5 114C7",
  "114D0-114D9 11580-115B5 115B8-115C0 115D8-115DD 11600-11640 11644 11650-11659 11680-116B8",
  "116C0-116C9 11700-1171A 1171D-1172B 11730-11739 11740-11746 11800-1183A 118C0-118E9",
  "118FF-11906 11909 1190C-11913 11915-11916 11918-11935 11937-11938 1193B-11943 11950-11959",
  "119A0-119A7 119AA-119D7 119DA-119E1 119E3-119E4 11A00-11A3E 11A47 11A50-11A99 11A9D",
  "11AB0-11AF8 11C00-11C08 11C0A-11C36 11C38-11C40 11C50-11C59 11C72-11C8F 11C92-11CA7",
  "11CA9-11CB6 11D00-11D06 11D08-11D09 11D0B-11D36 11D3A-11D3C/2 11D3D-11D3F/2 11D40-11D47",
  "11D50-11D59 11D60-11D65 11D67-11D68 11D6A-11D8E 11D90-11D91 11D93-11D98 11DA0-11DA9",
  "11EE0-11EF6 11FB0 12000-12399 12480-12543 12F90-12FF0 13000-1342E 14400-14646 16800-16A38",
  "16A40-16A5E 16A60-16A69 16A70-16ABE 16AC0-16AC9 16AD0-16AED 16AF0-16AF4 16B00-16B36",
  "16B40-16B43 16B50-16B59 16B63-16B77 16B7D-16B8F 16E60-16E7F 16F00-16F4A 16F4F-16F87",
  "16F8F-16F9F 16FE0-16FE1 16FE3-16FE4 16FF0-16FF1 17000-187F7 18800-18CD5 18D00-18D08",
  "1AFF0-1AFF3 1AFF5-1AFFB 1AFFD-1AFFE 1B000-1B122 1B150-1B152 1B164-1B167 1B170-1B2FB",
  "1BC00-1BC6A 1BC70-1BC7C 1BC80-1BC88 1BC90-1BC99 1BC9D-1BC9E 1CF00-1CF2D 1CF30-1CF46",
  "1DA00-1DA36 1DA3B-1DA6C 1DA75 1DA84 1DA9B-1DA9F 1DAA1-1DAAF 1DF00-1DF1E 1E000-1E006",
  "1E008-1E018 1E01B-1E021 1E023-1E024 1E026-1E02A 1E100-1E12C 1E130-1E13D 1E140-1E149 1E14E",
  "1E290-1E2AE 1E2C0-1E2F9 1E7E0-1E7E6 1E7E8-1E7EB 1E7ED-1E7EE 1E7F0-1E7FE 1E800-1E8C4",
  "1E8D0-1E8D6 1E922-1E94B 1E950-1E959 20000-2A6DF 2A700-2B738 2B740-2B81D 2B820-2CEA1",
  "2CEB0-2EBE0 30000-3134A"]

/-- A character that may stand anywhere in a name. -/
def isPermitted (c : Char) : Bool :=
  Run.anyHolds permitted c.toNat

/-! ## Directions -/

/-- The direction in which a character is written. -/
inductive Direction where
  | leftward
  | rightward
  /-- A digit of the basic kind. -/
  | number
  /-- A digit used between letters that are written leftward. -/
  | arabicNumber
  /-- A mark is written as what it stands on. -/
  | mark
  | neutral
  deriving DecidableEq, Repr

/-- Letters that are written from the right to the left. -/
def leftwardLetters : List Run := Run.ofRows [
  "5D0-5EA 5EF-5F4 620-63F 641-64A 66E-66F 671-674 679-6D3 6D5 6E5-6E6 6EE-6EF 6FA-6FF",
  "710-712/2 713-72F 74D-7A5 7B1 7C0-7EA 7F4-7F5 800-815 81A 824 828 840-858 860-86A 870-887",
  "889-88E 8A0-8C9 FE73 10800-10805 10808-1080A/2 1080B-10835 10837-10838 1083C 1083F-10855",
  "10860-10876 10880-1089E 108E0-108F2 108F4-108F5 10900-10915 10920-10939 10980-109B7",
  "109BE-109BF 10A00 10A10-10A13 10A15-10A17 10A19-10A35 10A60-10A7C 10A80-10A9C 10AC0-10AC7",
  "10AC9-10AE4 10B00-10B35 10B40-10B55 10B60-10B72 10B80-10B91 10C00-10C48 10CC0-10CF2",
  "10D00-10D23 10E80-10EA9 10EB0-10EB1 10F00-10F1C 10F27 10F30-10F45 10F70-10F81 10FB0-10FC4",
  "10FE0-10FF6 1E800-1E8C4 1E922-1E943 1E94B 1E950-1E959"]

/-- Characters that are written as their neighbours are. -/
def neutralLetters : List Run := Run.ofRows [
  "2D B7 2B9-2BA 2C6-2CF 2EC 375 200C-200D 2E2F 30FB A67F A717-A71F A788"]

/-- Nonspacing marks that are written as letters from the left to the right. -/
def rightwardMarks : List Run := Run.ofRows [
  "CBF CC6 11A07-11A08 11C3F"]

/-- The direction in which a character of a name is written. -/
def direction (c : Char) : Direction :=
  let n := c.toNat
  if Run.anyHolds leftwardLetters n then .leftward
  else if Run.anyHolds neutralLetters n then .neutral
  else if 0x30 ≤ n && n ≤ 0x39 || 0x6F0 ≤ n && n ≤ 0x6F9 then .number
  else if 0x660 ≤ n && n ≤ 0x669 || 0x10D30 ≤ n && n ≤ 0x10D39 then .arabicNumber
  else if Text.isNonspacing c && !Run.anyHolds rightwardMarks n then .mark
  else .rightward

/-! ## Joining -/

/-- How a letter joins its neighbours. -/
inductive Joining where
  /-- On both sides. -/
  | dual
  /-- Only with the letter before it. -/
  | before
  /-- Only with the letter after it. -/
  | after
  /-- Letters join across it. -/
  | transparent
  | none
  deriving DecidableEq, Repr

/-- Letters that join on both sides. -/
def dualLetters : List Run := Run.ofRows [
  "620 626-62A/2 62B-62E 633-63F 641-647 649-64A 66E-66F 679-687 69A-6BF 6C1-6C2 6CC-6D0/2",
  "6D1 6FA-6FC 6FF 712-714 71A-71D 71F-727 729-72D/2 72E 74E-758 75C-76A 76D-770 772 775-777",
  "77A-77F 7CA-7EA 841-845 848-84A/2 84B-853 855 860-862/2 863-865 868 886 889-88D 8A0-8A9",
  "8AF-8B0 8B3-8B8 8BA-8C8 1820-1878 1887-18A8 18AA A840-A871 10AC0-10AC4 10AD3-10AD6",
  "10AD8-10ADC 10ADE-10AE0 10B80-10B82/2 10B86-10B88 10B8A-10B8B 10B8D 10B90 10D01-10D21",
  "10D23 10F30-10F32 10F34-10F44 10F70-10F73 10F76-10F81 10FB0-10FB2/2 10FB3 10FB8",
  "10FBB-10FBC 10FBE-10FBF 10FC1 10FC4 1E922-1E943"]

/-- Letters that join only with the letter before them. -/
def beforeLetters : List Run := Run.ofRows [
  "622-625 627-629/2 62F-632 648 671-673 688-699 6C0 6C3-6CB 6CD-6CF/2 6D2-6D3 6D5 6EE-6EF",
  "710 715-719 71E 728-72C/2 72F 74D 759-75B 76B-76C 771-773/2 774 778-779 840 846-847 849",
  "854-856/2 857-858 867-869/2 86A 870-882 88E 8AA-8AC 8AE 8B1-8B2 8B9 10AC5-10AC9/2 10ACA",
  "10ACE-10AD2 10ADD 10AE1 10AE4 10B81-10B83/2 10B84-10B85 10B89 10B8C-10B8E/2 10B8F-10B91/2",
  "10D22 10F33 10F74-10F75 10FB4-10FB6 10FB9-10FBA 10FBD 10FC2-10FC3"]

/-- Letters that join only with the letter after them. -/
def afterLetters : List Run := Run.ofRows [
  "A872 10ACD 10AD7 10D00"]

/-- How a letter of a name joins its neighbours. Nonspacing marks are transparent, but for one. -/
def joining (c : Char) : Joining :=
  let n := c.toNat
  if Run.anyHolds dualLetters n then .dual
  else if Run.anyHolds beforeLetters n then .before
  else if Run.anyHolds afterLetters n then .after
  else if n = 0x1E94B || Text.isNonspacing c && n ≠ 0x1171E then .transparent
  else .none

/-! ## Scripts -/

/-- Letters of the Greek script. -/
def greekLetters : List Run := Run.ofRows [
  "371-377/2 37B-37D 390 3AC-3CE 3D7-3E1/2 3F3 3F8 3FB-3FC 1D26-1D2A 1F00-1F07 1F10-1F15",
  "1F20-1F27 1F30-1F37 1F40-1F45 1F50-1F57 1F60-1F67 1F70-1F7C/2 1FB0-1FB1 1FB6 1FC6",
  "1FD0-1FD2 1FD6-1FD7 1FE0-1FE2 1FE4-1FE7 1FF6 AB65"]

/-- Letters of the Hebrew script. -/
def hebrewLetters : List Run := Run.ofRows [
  "591-5BD 5BF-5C1/2 5C2-5C4/2 5C5-5C7/2 5D0-5EA 5EF-5F4 FB1E"]

/-- Letters of the two Japanese syllabaries and Han characters. -/
def kanaAndHan : List Run := Run.ofRows [
  "3005-3007/2 3041-3096 309D-309E 30A1-30FA 30FD-30FE 31F0-31FF 3400-4DBF 4E00-9FFF",
  "FA0E-FA0F FA11-FA13/2 FA14 FA1F-FA23/2 FA24 FA27-FA29 16FE3 16FF0-16FF1 1AFF0-1AFF3",
  "1AFF5-1AFFB 1AFFD-1AFFE 1B000-1B122 1B150-1B152 1B164-1B167 20000-2A6DF 2A700-2B738",
  "2B740-2B81D 2B820-2CEA1 2CEB0-2EBE0 30000-3134A"]

/-- A letter of the Greek script. -/
def isGreek (c : Char) : Bool :=
  Run.anyHolds greekLetters c.toNat

/-- A letter of the Hebrew script. -/
def isHebrew (c : Char) : Bool :=
  Run.anyHolds hebrewLetters c.toNat

/-- A letter of a Japanese syllabary or a Han character. -/
def isKanaOrHan (c : Char) : Bool :=
  Run.anyHolds kanaAndHan c.toNat

end Cambio.Hostname
