import Cambio.Proofs.Settings.Stable

/-!
# Lists of currency codes

Codes of currencies are given as a list or as one text with commas between them. Each item stands
for the code that it is in capital letters and without blanks around it. The list is accepted
exactly if it has items and all of them stand for currencies, and then it comes to these codes, of
which the first stays where one is repeated.

## Main definitions

- `Rule.usualCode` — the usual form of a code
- `Rule.NamesCurrency` — the texts that stand for currencies
- `Rule.IsItem` — the texts that can stand between commas
- `Rule.ListRules` — what becomes of a list of texts

## Main statements

- `Text.splitBy_intercalate` — texts with commas between them are taken apart again
- `Rule.codesOf_eq_accepted_iff` — the lists of texts that are accepted
- `Rule.foldl_addCode` — of repeated codes the first stays
- `Rule.listRules` — lists of texts, and the same with commas between them
-/

namespace Cambio

/-! ## Cutting a text -/

namespace Text

theorem splitBy_eq_splitOnP (p : Char → Bool) (s : List Char) : splitBy p s = s.splitOnP p := by
  induction s with
  | nil => rw [splitBy, List.splitOnP_nil]
  | cons c rest ih =>
    obtain ⟨piece, pieces, hpieces⟩ := List.exists_cons_of_ne_nil (List.splitOnP_ne_nil p rest)
    rw [splitBy, ih, List.splitOnP_cons_eq_if_modifyHead, hpieces]
    rfl

theorem splitBy_intercalate {c : Char} {pieces : List (List Char)} (h : ∀ piece ∈ pieces, c ∉ piece)
    (hsome : pieces ≠ []) : splitBy (· = c) ([c].intercalate pieces) = pieces := by
  rw [splitBy_eq_splitOnP]
  exact List.splitOn_intercalate c h hsome

end Text

namespace Rule

/-! ## Single codes -/

/-- A text in the usual form of a code: in capital letters and without blanks around it. -/
def usualCode (s : String) : String :=
  String.ofList (Text.trim (Text.upper s.toList))

/-- A text stands for a currency: in its usual form it has three letters from A to Z, and it is none
    of the reserved codes. -/
structure NamesCurrency (s : String) : Prop where
  length : (usualCode s).toList.length = 3
  letters : ∀ c ∈ (usualCode s).toList, 'A' ≤ c ∧ c ≤ 'Z'
  free : usualCode s ∉ reservedCodes

theorem isCode_iff {letters : List Char} :
    Currency.isCode letters = true ↔ letters.length = 3 ∧ ∀ c ∈ letters, 'A' ≤ c ∧ c ≤ 'Z' := by
  simp [Currency.isCode, Currency.isCapital]

theorem namesCurrency_iff {s : String} :
    NamesCurrency s ↔ Currency.isCode (usualCode s).toList = true ∧ usualCode s ∉ reservedCodes := by
  rw [isCode_iff]
  exact ⟨fun h => ⟨⟨h.length, h.letters⟩, h.free⟩, fun h => ⟨h.1.1, h.1.2, h.2⟩⟩

instance : DecidablePred NamesCurrency :=
  fun _ => decidable_of_iff' _ namesCurrency_iff

/-- The rule for codes accepts the texts that stand for currencies, in their usual form. -/
theorem code_eq_ok_iff {s a : String} : code s = .ok a ↔ NamesCurrency s ∧ usualCode s = a := by
  rw [namesCurrency_iff, usualCode, String.toList_ofList, code]
  dsimp only
  split_ifs with hempty hcode hreserved
  · -- the empty text has no letters, so the rule for codes need not look at it by itself
    rw [hempty]
    refine iff_of_false (fun hok => by cases hok) fun h => ?_
    have hletters : Currency.isCode [] = true := h.1.1
    cases hletters
  · refine iff_of_false (fun hok => by cases hok) fun h => ?_
    simp [h.1.1] at hcode
  · exact iff_of_false (fun hok => by cases hok) fun h => h.1.2 hreserved
  · have haccepted : Currency.isCode (Text.trim (Text.upper s.toList)) = true := by
      simpa using hcode
    rw [Except.ok.injEq]
    exact ⟨fun h => ⟨⟨haccepted, hreserved⟩, h⟩, fun h => h.2⟩

/-! ## Lists of codes -/

/-- A list of texts comes to the codes of its items, one after another. -/
theorem codesOf_eq_accepted_iff {found items codes : List String} :
    codesOf found (items.map .text) = .accepted codes ↔
      (∀ item ∈ items, NamesCurrency item) ∧ (items.map usualCode).foldl addCode found = codes ∧
        codes ≠ [] := by
  induction items generalizing found with
  | nil =>
    rw [List.map_nil, codesOf, List.map_nil, List.foldl_nil]
    split_ifs with hnone
    · refine iff_of_false (fun hok => by cases hok) fun h => ?_
      rw [← h.2.1] at h
      exact h.2.2 (List.isEmpty_iff.mp hnone)
    · rw [Outcome.accepted.injEq]
      refine ⟨fun h => ⟨List.forall_mem_nil _, h, ?_⟩, fun h => h.2.1⟩
      rw [← h]
      simpa using hnone
  | cons item rest ih =>
    have hitem : codeOf (.text item) = Outcome.ofExcept (code item) := rfl
    rw [List.map_cons, codesOf, hitem, List.map_cons, List.foldl_cons, List.forall_mem_cons]
    cases hcode : code item with
    | error r =>
      refine iff_of_false (fun hok => by cases hok) fun h => ?_
      have haccepted := code_eq_ok_iff.mpr ⟨h.1.1, rfl⟩
      rw [hcode] at haccepted
      cases haccepted
    | ok a =>
      obtain ⟨hnames, rfl⟩ := code_eq_ok_iff.mp hcode
      dsimp only [Outcome.ofExcept]
      rw [ih]
      exact ⟨fun h => ⟨⟨hnames, h.1⟩, h.2⟩, fun h => ⟨h.1.2, h.2⟩⟩

/-- Codes that are added one after another: of those that were not there before, the first stays
    where one is repeated. -/
theorem foldl_addCode (codes found : List String) :
    codes.foldl addCode found = found ++ (codes.removeAll found).eraseDups := by
  induction codes generalizing found with
  | nil => simp
  | cons a rest ih =>
    rw [List.foldl_cons, ih, List.cons_removeAll, addCode]
    by_cases hmem : a ∈ found
    · simp [hmem]
    · -- what comes later and is the same code is left out, as are the codes found before
      have hlater : rest.removeAll (found ++ [a]) = (rest.removeAll found).filter (!· == a) := by
        rw [List.removeAll, List.removeAll, List.filter_filter]
        refine List.filter_congr fun b _ => ?_
        by_cases hb : b = a <;> simp [hb]
      rw [if_neg hmem, if_pos (by simpa using hmem), List.eraseDups_cons, hlater]
      simp

theorem eraseDups_eq_nil_iff {codes : List String} : codes.eraseDups = [] ↔ codes = [] := by
  cases codes <;> simp [List.eraseDups_cons]

/-! ## Texts with commas -/

/-- A text can stand between commas: it has none of its own and is not blank. -/
structure IsItem (s : String) : Prop where
  lacksComma : ',' ∉ s.toList
  hasMark : ∃ c ∈ s.toList, Text.isBlank c = false

/-- The items between the commas of a text are found again. -/
theorem codeItems?_intercalate {items : List String} (h : ∀ item ∈ items, IsItem item) :
    codeItems? (.text (String.intercalate "," items)) = some (items.map .text) := by
  rw [codeItems?, String.toList_intercalate]
  cases hitems : items with
  | nil => rfl
  | cons first rest =>
    rw [← hitems]
    have hpieces : ∀ piece ∈ items.map String.toList, ',' ∉ piece := by
      intro piece hpiece
      obtain ⟨item, hitem, rfl⟩ := List.mem_map.mp hpiece
      exact (h item hitem).lacksComma
    have hsome : items.map String.toList ≠ [] := by simp [hitems]
    have hkept : (items.map String.toList).filter (fun piece => !piece.all Text.isBlank) =
        items.map String.toList := by
      refine List.filter_eq_self.mpr fun piece hpiece => ?_
      obtain ⟨item, hitem, rfl⟩ := List.mem_map.mp hpiece
      simpa using (h item hitem).hasMark
    rw [show ",".toList = [','] from rfl, Text.splitBy_intercalate hpieces hsome, hkept,
      List.map_map]
    simp

/-- A code in capital letters can stand between commas. -/
theorem isItem_of_code {a : String} (h : code a = .ok a) : IsItem a := by
  have hcapital := Currency.isCapital_of_isCode (isCode_of_code h)
  refine ⟨fun hcomma => absurd (hcapital ',' hcomma) (by decide), ?_⟩
  have hlength := (isCode_iff.mp (isCode_of_code h)).1
  obtain ⟨c, hc⟩ := List.exists_mem_of_length_pos (by omega : 0 < a.toList.length)
  exact ⟨c, hc, Text.isBlank_of_isCapital (hcapital c hc)⟩

/-! ## Both ways to give a list -/

/-- What becomes of a list of texts that is to be a list of codes. -/
structure ListRules (items : List String) : Prop where
  /-- The text of the items with commas between them comes to the same as the list. -/
  joined : codes (.text (String.intercalate "," items)) = codes (Settings.codesJson items)
  /-- Accepted are the lists that have items, all of which stand for currencies. -/
  accepted : (∃ found, codes (Settings.codesJson items) = .accepted found) ↔
    items ≠ [] ∧ ∀ item ∈ items, NamesCurrency item
  /-- The codes are those of the items, and of repeated ones the first stays. -/
  found : ∀ found, codes (Settings.codesJson items) = .accepted found →
    found = (items.map usualCode).eraseDups
  /-- The codes are accepted again as they are, as a list and with commas between them. -/
  again : ∀ found, codes (Settings.codesJson items) = .accepted found →
    codes (Settings.codesJson found) = .accepted found ∧
      codes (.text (String.intercalate "," found)) = .accepted found

theorem codes_codesJson_eq_accepted_iff {items found : List String} :
    codes (Settings.codesJson items) = .accepted found ↔
      (∀ item ∈ items, NamesCurrency item) ∧ (items.map usualCode).eraseDups = found ∧
        found ≠ [] := by
  change codesOf [] (items.map .text) = .accepted found ↔ _
  rw [codesOf_eq_accepted_iff, foldl_addCode, List.removeAll_nil, List.nil_append]

theorem codes_intercalate {items : List String} (h : ∀ item ∈ items, IsItem item) :
    codes (.text (String.intercalate "," items)) = codes (Settings.codesJson items) := by
  rw [codes, codeItems?_intercalate h]
  rfl

theorem listRules {items : List String} (h : ∀ item ∈ items, IsItem item) : ListRules items where
  joined := codes_intercalate h
  accepted := by
    simp only [codes_codesJson_eq_accepted_iff]
    constructor
    · rintro ⟨found, hnames, rfl, hsome⟩
      refine ⟨?_, hnames⟩
      rintro rfl
      exact hsome rfl
    · rintro ⟨hitems, hnames⟩
      refine ⟨_, hnames, rfl, fun hnone => hitems ?_⟩
      simpa using eraseDups_eq_nil_iff.mp hnone
  found := fun found hfound => (codes_codesJson_eq_accepted_iff.mp hfound).2.1.symm
  again := by
    intro found hfound
    have hagain := codes_codes hfound
    obtain ⟨hcodes, -⟩ := areCodes_of_codes hfound
    refine ⟨hagain, ?_⟩
    rw [codes_intercalate fun a ha => isItem_of_code (hcodes.code a ha)]
    exact hagain

/-- Dollars in two spellings and euros. -/
theorem listRules_dollars :
    (∀ item ∈ [" usd", "EUR", "Usd\t"], IsItem item) ∧ ListRules [" usd", "EUR", "Usd\t"] ∧
      codes (.text " usd,EUR,Usd\t") = .accepted ["USD", "EUR"] := by
  have hitems : ∀ item ∈ [" usd", "EUR", "Usd\t"], IsItem item := by
    have hone (item : String) (hcomma : ',' ∉ item.toList)
        (hmark : ∃ c ∈ item.toList, Text.isBlank c = false) : IsItem item := ⟨hcomma, hmark⟩
    simp only [List.forall_mem_cons]
    exact ⟨hone _ (by decide +kernel) ⟨'u', by decide +kernel, rfl⟩,
      hone _ (by decide +kernel) ⟨'E', by decide +kernel, rfl⟩,
      hone _ (by decide +kernel) ⟨'U', by decide +kernel, rfl⟩, List.forall_mem_nil _⟩
  refine ⟨hitems, listRules hitems, ?_⟩
  rw [show " usd,EUR,Usd\t" = String.intercalate "," [" usd", "EUR", "Usd\t"] by decide +kernel,
    (listRules hitems).joined, codes_codesJson_eq_accepted_iff]
  exact ⟨by decide +kernel, by decide +kernel, by decide +kernel⟩

end Rule

end Cambio
