import Cambio.Proofs.Conversion.Status
import Cambio.Proofs.Rates.Loading
import Cambio.Proofs.Rates.Written

/-!
# Rates, as they are written

The rates of an answer and of a rate file are the numbers that stand in the document, digit for
digit: whatever a table holds is the number of a figure in the text, or of a text that is a figure,
under a name in capital letters. A name that comes more than once counts once, at its first place
and with its last value; of several names that are the same in capital letters, the last one counts.
One entry that is not such a figure above zero refuses the document.

## Main definitions

- `RateAnswer.ExactRules`, `RateFile.ExactRules`, `DecodingRules` — what a text brings and holds

## Main statements

- `Json.Form.readFrom_answer_iff`, `Json.Form.readFrom_file_iff` — which forms are read
- `decodingRules_text` — every text
- `not_prices_last_of_repeated` — a repeated name keeps its first place
-/

namespace Cambio

/-! ## Answers -/

namespace Json.Form

variable {f : Form} {entries bases : Entries Form} {table : RateTable} {depth : Nat}

/-- The tables that bases list, under their names. -/
def TablesOf (book : List (String × List (String × Decimal))) (bases : Entries Form) : Prop :=
  List.Forall₂ (fun table base => table.1 = base.1 ∧
    ∃ entries, base.2.HasEntries entries ∧ RatesOf table.2 entries) book bases

theorem exists_tablesOf_iff : (∃ book, TablesOf book bases) ↔ ∀ base ∈ bases, base.2.IsTable := by
  have htable (g : Form) : g.IsTable ↔ ∃ rates entries, g.HasEntries entries ∧
      RatesOf rates entries := by
    simp only [IsTable, ← exists_ratesOf_iff, exists_comm (α := List _), exists_and_left]
  simp only [htable]
  exact Entries.exists_forall₂_iff (r := fun (g : Form) rates =>
    ∃ entries, g.HasEntries entries ∧ RatesOf rates entries)

/-- Which forms are read as an answer. -/
theorem readFrom_answer_iff (hfits : f.Fits depth) :
    RateAnswer.ReadFrom f.value table ↔
      ∃ entries rates, f.Answers entries ∧ RatesOf rates entries ∧ rates ≠ [] ∧
        table = RateTable.capitalized rates := by
  constructor
  · rintro ⟨ms, data, rates, hvalue, hdata, hlists, hnil, htable⟩
    obtain ⟨members, rfl⟩ := exists_members_of_value hvalue
    rw [Form.value] at hvalue
    cases hvalue
    rw [Form.Fits] at hfits
    obtain ⟨x, hx, rfl⟩ := get?_memberValues_iff.mp hdata
    obtain ⟨entries, hentries, hrates⟩ :=
      (lists_value_iff (fits_of_lastWhere hfits.2 hx)).mp hlists
    exact ⟨entries, rates, ⟨members, x, rfl, hx, hentries⟩, hrates, hnil, htable⟩
  · rintro ⟨entries, rates, ⟨members, x, rfl, hx, hentries⟩, hrates, hnil, htable⟩
    rw [Form.Fits] at hfits
    refine ⟨_, x.value, rates, by rw [Form.value], get?_memberValues_iff.mpr ⟨x, hx, rfl⟩, ?_, hnil,
      htable⟩
    exact (lists_value_iff (fits_of_lastWhere hfits.2 hx)).mpr ⟨entries, hentries, hrates⟩

/-- Which forms are read as the tables of a rate file. -/
theorem readFrom_book_iff (hfits : f.Fits depth) {book : RateBook} :
    RateBook.ReadFrom (some f.value) book ↔
      ∃ bases tables, f.HasEntries bases ∧ TablesOf tables bases ∧
        book = RateBook.capitalized tables := by
  have hvalue (tables : List (String × List (String × Decimal))) :
      (∃ ms, f.value = .object ms ∧
        List.Forall₂ (fun table m => table.1 = m.1 ∧ m.2.Lists table.2) tables ms) ↔
        ∃ bases, f.HasEntries bases ∧ TablesOf tables bases :=
    forall₂_value_iff (r := fun v rates => v.Lists rates) hfits fun _ hg _ => lists_value_iff hg
  constructor
  · intro h
    generalize hv : f.value = v at h
    cases h with
    | listed h =>
      obtain ⟨bases, hbases, htables⟩ := (hvalue _).mp ⟨_, hv, h⟩
      exact ⟨bases, _, hbases, htables, rfl⟩
  · rintro ⟨bases, tables, hbases, htables, rfl⟩
    obtain ⟨ms, hms, hall⟩ := (hvalue tables).mpr ⟨bases, hbases, htables⟩
    rw [hms]
    exact .listed hall

/-- Which forms are read as a rate file. -/
theorem readFrom_file_iff (hfits : f.Fits depth) {document : RateDocument} :
    RateDocument.ReadFrom f.value document ↔
      ∃ bases book, f.Files document.timestamp bases ∧ TablesOf book bases ∧
        document.rates = RateBook.capitalized book := by
  constructor
  · rintro ⟨ms, hvalue, htime, hbook⟩
    obtain ⟨members, rfl⟩ := exists_members_of_value hvalue
    rw [Form.value] at hvalue
    cases hvalue
    rw [Form.Fits] at hfits
    obtain ⟨time, htime, htext⟩ := get?_memberValues_iff.mp htime
    obtain rfl := eq_text_of_value htext
    cases hrates : Entries.get? "rates" (Entries.ofPairs (memberValues members)) with
    | none =>
      rw [hrates] at hbook
      have hnames := get?_memberValues_eq_none_iff.mp hrates
      refine ⟨[], [], ⟨members, rfl, htime, .inl ⟨hnames, rfl⟩⟩, .nil, ?_⟩
      generalize document.rates = book at hbook ⊢
      cases hbook
      rfl
    | some v =>
      obtain ⟨rates, hlast, rfl⟩ := get?_memberValues_iff.mp hrates
      rw [hrates] at hbook
      obtain ⟨bases, tables, hbases, htables, heq⟩ :=
        (readFrom_book_iff (fits_of_lastWhere hfits.2 hlast)).mp hbook
      exact ⟨bases, tables, ⟨members, rfl, htime, .inr ⟨rates, hlast, hbases⟩⟩, htables, heq⟩
  · rintro ⟨bases, tables, ⟨members, rfl, htime, hbases⟩, htables, heq⟩
    rw [Form.Fits] at hfits
    refine ⟨_, by rw [Form.value], get?_memberValues_iff.mpr ⟨_, htime, by rw [Form.value]⟩, ?_⟩
    rcases hbases with ⟨hnames, rfl⟩ | ⟨rates, hlast, hbases⟩
    · rw [get?_memberValues_eq_none_iff.mpr hnames, heq, List.forall₂_nil_right_iff.mp htables]
      exact .absent
    · rw [get?_memberValues_iff.mpr ⟨rates, hlast, rfl⟩,
        readFrom_book_iff (fits_of_lastWhere hfits.2 hlast)]
      exact ⟨bases, tables, hbases, htables, heq⟩

theorem Files.unique {timestamp timestamp' : String} {others : Entries Form}
    (h : f.Files timestamp bases) (hothers : f.Files timestamp' others) :
    timestamp' = timestamp ∧ others = bases := by
  obtain ⟨members, rfl, htime, hbases⟩ := h
  obtain ⟨_, ⟨⟩, htime', hbases'⟩ := hothers
  have htext := htime.unique htime'
  cases htext
  refine ⟨rfl, ?_⟩
  rcases hbases with ⟨hnames, rfl⟩ | ⟨rates, hlast, hbases⟩
  · rcases hbases' with ⟨-, rfl⟩ | ⟨rates', hlast', -⟩
    · rfl
    · exact absurd hlast'.mem_names hnames
  · rcases hbases' with ⟨hnames', -⟩ | ⟨rates', hlast', hbases'⟩
    · exact absurd hlast.mem_names hnames'
    · obtain rfl := hlast.unique hlast'
      exact hbases.unique hbases'

end Json.Form

theorem RateBook.isExact_capitalized {tables : List (String × List (String × Decimal))}
    {bases : Entries Json.Form} (h : Json.Form.TablesOf tables bases) :
    RateBook.IsExact bases (RateBook.capitalized tables) :=
  Entries.capitalizes_ofPairs (g := RateTable.capitalized) (h.imp fun _ _ hr =>
    ⟨hr.1, hr.2.imp fun _ htable => ⟨htable.1, RateTable.isExact_capitalized htable.2⟩⟩)

open Json (IsDocument)

/-- What a body of the rate service with the characters of a text brings. -/
structure RateAnswer.ExactRules (s : List Char) (body : List UInt8) : Prop where
  /-- An answer with this body ends a request with the table that the body brings. -/
  client : ∀ (c : Client) base targets ch last table,
    (c.exchanges base targets ch).getLast? = some last → last.answer = .status 200 body →
      ((c.rates base targets ch).1 = .done table ↔ Client.Brings body table)
  /-- Only a document that is an answer brings a table. -/
  form : ∀ table, Client.Brings body table →
    ∃ f entries, IsDocument f s ∧ f.Answers entries
  /-- An answer brings a table exactly if it has entries, every single one of which is a rate. -/
  accepts : ∀ f entries, IsDocument f s → f.Answers entries →
    ((∃ table, Client.Brings body table) ↔
      f.Fits Json.depthLimit ∧ entries ≠ [] ∧ ∀ entry ∈ entries, entry.2.IsRate)
  /-- The table has the rates as they are written. -/
  exact : ∀ f entries table, IsDocument f s → f.Answers entries → Client.Brings body table →
    table ≠ [] ∧ RateTable.IsExact entries table

theorem Client.brings_iff {s : List Char} {body : List UInt8} {f : Json.Form} {table : RateTable}
    (hbody : Text.decodeDetected? body = .ok s) (hf : IsDocument f s) :
    Client.Brings body table ↔ f.Fits Json.depthLimit ∧ RateAnswer.ReadFrom f.value table := by
  unfold Client.Brings
  simp only [Json.readBytes_eq_ok_iff hbody, Json.readDocument_eq_ok_iff hf,
    RateAnswer.ofJson_eq_ok_iff]
  constructor
  · rintro ⟨members, ⟨hfits, hvalue⟩, hread⟩
    exact ⟨hfits, hvalue ▸ hread⟩
  · rintro ⟨hfits, hread⟩
    obtain ⟨members, -, -, hvalue, -⟩ := id hread
    exact ⟨members, ⟨hfits, hvalue.symm⟩, hvalue ▸ hread⟩

theorem RateAnswer.exactRules {s : List Char} {body : List UInt8}
    (hbody : Text.decodeDetected? body = .ok s) : RateAnswer.ExactRules s body where
  client := by
    intro c base targets ch last table hlast hanswer
    rw [Client.rates_eq_done_iff]
    constructor
    · rintro ⟨last', number, body', hlast', hanswer', -, hbrings⟩
      cases hlast.symm.trans hlast'
      cases hanswer.symm.trans hanswer'
      exact hbrings
    · exact fun hbrings => ⟨last, 200, body, hlast, hanswer, by decide, hbrings⟩
  form := by
    intro table h
    obtain ⟨members, hread, -⟩ := id h
    rw [Json.readBytes_eq_ok_iff hbody] at hread
    obtain ⟨f, hf⟩ := Json.exists_form_of_readDocument hread
    obtain ⟨hfits, hanswer⟩ := (Client.brings_iff hbody hf).mp h
    obtain ⟨entries, -, hentries, -⟩ := (Json.Form.readFrom_answer_iff hfits).mp hanswer
    exact ⟨f, entries, hf, hentries⟩
  accepts := by
    intro f entries hf hentries
    simp only [Client.brings_iff hbody hf, exists_and_left]
    refine and_congr_right fun hfits => ?_
    simp only [Json.Form.readFrom_answer_iff hfits]
    constructor
    · rintro ⟨table, entries', rates, hentries', hrates, hnil, -⟩
      obtain rfl := hentries.unique hentries'
      refine ⟨?_, Json.Form.exists_ratesOf_iff.mp ⟨rates, hrates⟩⟩
      rintro rfl
      exact hnil (List.forall₂_nil_right_iff.mp hrates)
    · rintro ⟨hnil, hall⟩
      obtain ⟨rates, hrates⟩ := Json.Form.exists_ratesOf_iff.mpr hall
      refine ⟨_, entries, rates, hentries, hrates, ?_, rfl⟩
      rintro rfl
      exact hnil (List.forall₂_nil_left_iff.mp hrates)
  exact := by
    intro f entries table hf hentries h
    obtain ⟨hfits, hanswer⟩ := (Client.brings_iff hbody hf).mp h
    obtain ⟨entries', rates, hentries', hrates, hnil, rfl⟩ :=
      (Json.Form.readFrom_answer_iff hfits).mp hanswer
    obtain rfl := hentries.unique hentries'
    have hexact := RateTable.isExact_capitalized hrates
    refine ⟨hexact.ne_nil ?_, hexact⟩
    rintro rfl
    exact hnil (List.forall₂_nil_right_iff.mp hrates)

/-- What a rate file with the characters of a text holds. -/
structure RateFile.ExactRules (s : List Char) : Prop where
  /-- Only a document that is a rate file holds tables. -/
  form : ∀ document, RateFile.ofContents (Text.encodeUtf8 s) = .ok (some document) →
    ∃ f bases, IsDocument f s ∧ f.Files document.timestamp bases
  /-- A rate file holds tables exactly if every single entry of each of its bases is a rate. -/
  accepts : ∀ f timestamp bases, IsDocument f s → f.Files timestamp bases →
    ((∃ document, RateFile.ofContents (Text.encodeUtf8 s) = .ok (some document)) ↔
      f.Fits Json.depthLimit ∧ ∀ base ∈ bases, base.2.IsTable)
  /-- The tables have the rates as they are written. -/
  exact : ∀ f timestamp bases document, IsDocument f s → f.Files timestamp bases →
    RateFile.ofContents (Text.encodeUtf8 s) = .ok (some document) →
      document.timestamp = timestamp ∧ RateBook.IsExact bases document.rates

theorem RateFile.ofContents_encodeUtf8_iff {s : List Char} {document : RateDocument} :
    RateFile.ofContents (Text.encodeUtf8 s) = .ok (some document) ↔
      ∃ v, Json.read .exact s = .ok v ∧ RateDocument.ReadFrom v document := by
  rw [ofContents_eq_some_iff]
  constructor
  · rintro ⟨s', v, hs, hread⟩
    have hsame := (congrArg Text.decodeUtf8? hs).symm
    rw [Text.decodeUtf8?_encodeUtf8, Text.decodeUtf8?_encodeUtf8] at hsame
    cases hsame
    exact ⟨v, hread⟩
  · exact fun ⟨v, hread⟩ => ⟨s, v, rfl, hread⟩

theorem RateFile.ofContents_iff {s : List Char} {f : Json.Form} {document : RateDocument}
    (hf : IsDocument f s) :
    RateFile.ofContents (Text.encodeUtf8 s) = .ok (some document) ↔
      f.Fits Json.depthLimit ∧ RateDocument.ReadFrom f.value document := by
  rw [ofContents_encodeUtf8_iff]
  simp only [Json.read_eq_ok_iff hf]
  exact ⟨fun ⟨_, ⟨hfits, hvalue⟩, hread⟩ => ⟨hfits, hvalue ▸ hread⟩,
    fun ⟨hfits, hread⟩ => ⟨_, ⟨hfits, rfl⟩, hread⟩⟩

theorem RateFile.exactRules (s : List Char) : RateFile.ExactRules s where
  form := by
    intro document h
    obtain ⟨v, hread, -⟩ := ofContents_encodeUtf8_iff.mp h
    obtain ⟨f, hf⟩ := Json.exists_form_of_read hread
    obtain ⟨hfits, hdocument⟩ := (ofContents_iff hf).mp h
    obtain ⟨bases, -, hbases, -⟩ := (Json.Form.readFrom_file_iff hfits).mp hdocument
    exact ⟨f, bases, hf, hbases⟩
  accepts := by
    intro f timestamp bases hf hbases
    simp only [ofContents_iff hf, exists_and_left]
    refine and_congr_right fun hfits => ?_
    simp only [Json.Form.readFrom_file_iff hfits]
    constructor
    · rintro ⟨document, bases', tables, hbases', htables, -⟩
      obtain ⟨-, rfl⟩ := hbases.unique hbases'
      exact Json.Form.exists_tablesOf_iff.mp ⟨tables, htables⟩
    · intro hall
      obtain ⟨tables, htables⟩ := Json.Form.exists_tablesOf_iff.mpr hall
      exact ⟨⟨timestamp, RateBook.capitalized tables⟩, bases, tables, hbases, htables, rfl⟩
  exact := by
    intro f timestamp bases document hf hbases h
    obtain ⟨hfits, hread⟩ := (ofContents_iff hf).mp h
    obtain ⟨bases', tables, hbases', htables, hrates⟩ :=
      (Json.Form.readFrom_file_iff hfits).mp hread
    obtain ⟨htime, rfl⟩ := hbases.unique hbases'
    exact ⟨htime, hrates ▸ RateBook.isExact_capitalized htables⟩

/-! ## Every text -/

/-- What a text brings as an answer of the rate service, and what it holds as a rate file. -/
structure DecodingRules (s : List Char) : Prop where
  answer : ∀ body, Text.decodeDetected? body = .ok s → RateAnswer.ExactRules s body
  file : RateFile.ExactRules s

/-- **Exact rates**: every text is an answer and a rate file of exactly the rates that are written
in it, or of none. -/
theorem decodingRules_text (s : List Char) : DecodingRules s :=
  ⟨fun _ hbody => RateAnswer.exactRules hbody, RateFile.exactRules s⟩

/-! ## Names that are repeated -/

/-- An answer in which a code comes in small letters, in capital letters and in small letters
    again. -/
def repeatedText : List Char :=
  "\x7b\"data\":\x7b\"usd\":1,\"USD\":2,\"usd\":3\x7d\x7d".toList

theorem isBasicDigit_of_mem_single {c : Char} (h : Decimal.isBasicDigit c = true) :
    ∀ d ∈ [c] ++ (none : Option (List Char)).getD [], Decimal.isBasicDigit d = true :=
  fun _ hmem => List.mem_singleton.mp hmem ▸ h

theorem single_ne_nil (c : Char) : [c] ++ (none : Option (List Char)).getD [] ≠ [] :=
  List.cons_ne_nil c []

/-- A digit as a figure. -/
def digitFigure (c : Char) (h : Decimal.isBasicDigit c = true) : Decimal.Figure where
  sign := .absent
  whole := [c]
  fraction := none
  power := none
  isBasicDigit_of_mem := isBasicDigit_of_mem_single h
  digits_ne_nil := single_ne_nil c

/-- The members of its data. -/
def repeatedMembers : List (String × Json.Form) :=
  [("usd", .number (digitFigure '1' (by decide))), ("USD", .number (digitFigure '2' (by decide))),
    ("usd", .number (digitFigure '3' (by decide)))]

theorem isDocument_repeatedText :
    IsDocument (.object [("data", .object repeatedMembers)]) repeatedText := by
  have hnone : Json.IsSpaces [] := nofun
  have hname (s : String) (h : ∀ c ∈ s.toList, c ≠ '"' ∧ c ≠ '\\' ∧ 0x20 ≤ c.toNat)
      (hjoin : s = String.ofList (Json.joinUnits (s.toList.map Char.toNat))) :
      Json.SpellsText s.toList s := ⟨_, Json.spells_of_plain h, hjoin⟩
  have hdigit (c : Char) (h : Decimal.isBasicDigit c = true) :
      Json.IsLiteral (digitFigure c h) :=
    ⟨nofun, nofun, fun hzero => by cases hzero; rfl, nofun⟩
  have husd := hname "usd" (by simp) (by decide)
  have hUSD := hname "USD" (by simp) (by decide)
  have hdata := hname "data" (by simp) (by decide)
  have hmembers : Json.Writes (.members repeatedMembers)
      "\"usd\":1,\"USD\":2,\"usd\":3\x7d".toList :=
    .member husd hnone hnone (.number (hdigit '1' rfl)) hnone <| .nextMember hnone <|
      .member hUSD hnone hnone (.number (hdigit '2' rfl)) hnone <| .nextMember hnone <|
        .member husd hnone hnone (.number (hdigit '3' rfl)) hnone .endMembers
  have hanswer := Json.Writes.object hnone
    (.member hdata hnone hnone (.object hnone hmembers) hnone .endMembers)
  exact ⟨[], _, [], hnone, hanswer, hnone, rfl⟩

theorem brings_repeatedText :
    Client.Brings (Text.encodeUtf8 repeatedText) [("USD", .ofInt 2)] := by
  have hbody : Text.decodeDetected? (Text.encodeUtf8 repeatedText) = .ok repeatedText := by
    decide +kernel
  rw [Client.brings_iff hbody isDocument_repeatedText]
  refine ⟨?_, ?_⟩
  · simp [Json.Form.Fits, Json.MembersFit, repeatedMembers, Json.FitsNumber, Json.IsWhole,
      digitFigure]
    decide
  · have hvalue : (Json.Form.object [("data", .object repeatedMembers)]).value =
        .object [("data", .object [("usd", .whole 3), ("USD", .whole 2)])] := by
      rfl
    refine ⟨_, .object [("usd", .whole 3), ("USD", .whole 2)],
      [("usd", .ofInt 3), ("USD", .ofInt 2)], hvalue, rfl, ⟨_, rfl, ?_⟩, List.cons_ne_nil _ _, ?_⟩
    · exact .cons ⟨rfl, rfl, .whole 3⟩ (.cons ⟨rfl, rfl, .whole 2⟩ .nil)
    · decide

/-- A repeated name keeps its first place, so the rate of a code need not be that of the last member
    whose name becomes it. -/
theorem not_prices_last_of_repeated :
    ¬ ∀ body s data table, Text.decodeDetected? body = .ok s →
      IsDocument (.object [("data", .object data)]) s → Client.Brings body table →
        ∀ code rate, (code, rate) ∈ table → ∃ x,
          Entries.LastWhere (fun name => Text.upperString name = code) x data ∧ x.Prices rate := by
  intro h
  have hbody : Text.decodeDetected? (Text.encodeUtf8 repeatedText) = .ok repeatedText := by
    decide +kernel
  obtain ⟨x, hlast, hprices⟩ := h _ _ _ _ hbody isDocument_repeatedText brings_repeatedText "USD"
    (.ofInt 2) List.mem_cons_self
  -- the last member is the third one, whatever stands before it
  have hthree : x = .number (digitFigure '3' rfl) := by
    rcases Entries.lastWhere_cons.mp hlast with hlast | ⟨-, -, hnone⟩
    · rcases Entries.lastWhere_cons.mp hlast with hlast | ⟨-, -, hnone⟩
      · rcases Entries.lastWhere_cons.mp hlast with hlast | ⟨hx, -⟩
        · exact absurd hlast Entries.not_lastWhere_nil
        · exact hx.symm
      · exact absurd (by decide) (hnone "usd" List.mem_cons_self)
    · exact absurd (by decide) (hnone "USD" List.mem_cons_self)
  subst hthree
  obtain ⟨_, ⟨⟩, -, -, hvalue⟩ := hprices
  have hdecimal : (digitFigure '3' rfl).decimal = .finite false 3 0 := rfl
  rw [← Decimal.Figure.value_decimal, hdecimal] at hvalue
  simp [Decimal.value, Decimal.magnitude, Decimal.ofInt] at hvalue

end Cambio
