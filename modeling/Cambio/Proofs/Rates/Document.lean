import Cambio.Proofs.Decimal.Numeral
import Cambio.Proofs.Json.Document
import Cambio.Proofs.Rates.Reading
import Cambio.Proofs.Rates.Supply

/-!
# Documents of rates, read back

A book of usable rates under codes in capital letters makes a document, and the document is read
back from its bytes with the same codes in the same order and rates of the same value: every digit
is written, and so are the zeros up to the units.

## Main definitions

- `RateTable.IsTidy`, `RateBook.IsTidy` — usable rates under different codes in capital letters
- `RateBook.expanded` — a book as it is read back
- `RateBook.SameRates` — the same codes in the same order, with rates of the same value

## Main statements

- `RateDocument.ofBook_of_isTidy` — a tidy book makes a document
- `RateDocument.ofJson_toJson` — a document, read back from its values
- `RateFile.ofContents_contents` — a document, read back from its bytes
-/

namespace Cambio

/-! ## Tidy books -/

/-- Usable rates under codes in capital letters, each once. -/
structure RateTable.IsTidy (table : RateTable) : Prop where
  names : (Entries.names table).Nodup
  capitals : ∀ entry ∈ table, Text.upperString entry.1 = entry.1
  joined : ∀ entry ∈ table, Json.IsJoined entry.1.toList
  usable : RateTable.IsUsable table
  held : ∀ entry ∈ table, entry.2.IsHeld

/-- Tidy tables under bases in capital letters, each once. -/
structure RateBook.IsTidy (book : RateBook) : Prop where
  names : (Entries.names book).Nodup
  capitals : ∀ entry ∈ book, Text.upperString entry.1 = entry.1
  joined : ∀ entry ∈ book, Json.IsJoined entry.1.toList
  tables : ∀ entry ∈ book, RateTable.IsTidy entry.2

instance (table : RateTable) : Decidable table.IsTidy :=
  decidable_of_iff ((Entries.names table).Nodup ∧
      (∀ entry ∈ table, Text.upperString entry.1 = entry.1) ∧
      (∀ entry ∈ table, Json.IsJoined entry.1.toList) ∧
      (∀ entry ∈ table, entry.2.isPositive = true) ∧ ∀ entry ∈ table, entry.2.IsHeld)
    ⟨fun h => ⟨h.1, h.2.1, h.2.2.1, h.2.2.2.1, h.2.2.2.2⟩,
      fun h => ⟨h.names, h.capitals, h.joined, h.usable, h.held⟩⟩

instance (book : RateBook) : Decidable book.IsTidy :=
  decidable_of_iff ((Entries.names book).Nodup ∧
      (∀ entry ∈ book, Text.upperString entry.1 = entry.1) ∧
      (∀ entry ∈ book, Json.IsJoined entry.1.toList) ∧ ∀ entry ∈ book, RateTable.IsTidy entry.2)
    ⟨fun h => ⟨h.1, h.2.1, h.2.2.1, h.2.2.2⟩, fun h => ⟨h.names, h.capitals, h.joined, h.tables⟩⟩

/-- The table as it is read back: with the zeros up to the units. -/
def RateTable.expanded (table : RateTable) : RateTable :=
  table.map fun entry => (entry.1, entry.2.expanded)

/-- The book as it is read back. -/
def RateBook.expanded (book : RateBook) : RateBook :=
  book.map fun entry => (entry.1, RateTable.expanded entry.2)

/-- The same codes in the same order, with rates of the same value. -/
def RateTable.SameRates (a b : RateTable) : Prop :=
  List.Forall₂ (fun x y => y.1 = x.1 ∧ y.2.isFinite = true ∧ y.2.value = x.2.value) a b

/-- The same bases in the same order, with tables of the same rates. -/
def RateBook.SameRates (a b : RateBook) : Prop :=
  List.Forall₂ (fun x y => y.1 = x.1 ∧ RateTable.SameRates x.2 y.2) a b

namespace Decimal

theorem isPositive_expanded (d : Decimal) : d.expanded.isPositive = d.isPositive := by
  cases d with
  | finite negative c e =>
    by_cases he : 0 < e
    · rw [expanded, if_pos he, isPositive, isPositive, Bool.eq_iff_iff]
      simp
    · rw [expanded, if_neg he]
  | infinite | nan => rfl

end Decimal

namespace RateTable

variable {table : RateTable}

theorem names_expanded (table : RateTable) :
    Entries.names (expanded table) = Entries.names table := by
  simp [Entries.names, expanded]

theorem IsTidy.expanded (h : table.IsTidy) : (expanded table).IsTidy := by
  constructor
  · rw [names_expanded]
    exact h.names
  all_goals
    intro entry hentry
    obtain ⟨first, hfirst, rfl⟩ := List.mem_map.mp hentry
  · exact h.capitals first hfirst
  · exact h.joined first hfirst
  · exact (Decimal.isPositive_expanded first.2).trans (h.usable first hfirst)
  · exact (h.held first hfirst).expanded

theorem sameRates_expanded (h : table.IsTidy) : SameRates table (RateTable.expanded table) := by
  rw [SameRates, RateTable.expanded, List.forall₂_map_right_iff]
  apply List.forall₂_same.mpr
  intro entry hentry
  exact ⟨rfl, Decimal.isFinite_of_isHeld (h.held entry hentry).expanded,
    Decimal.value_expanded entry.2⟩

/-- Codes in capital letters stay as they are. -/
theorem capitalized_eq_self (hnames : (Entries.names table).Nodup)
    (hcapitals : ∀ entry ∈ table, Text.upperString entry.1 = entry.1) :
    capitalized table = table := by
  have hsame : (table.map fun entry => (Text.upperString entry.1, entry.2)) = table := by
    conv_rhs => rw [← List.map_id table]
    apply List.map_congr_left
    intro entry hentry
    rw [hcapitals entry hentry]
    rfl
  rw [capitalized, hsame, Entries.ofPairs_of_nodup hnames]

theorem capitalized_of_isTidy (h : table.IsTidy) : capitalized table = table :=
  capitalized_eq_self h.names h.capitals

end RateTable

namespace RateBook

variable {book : RateBook}

theorem names_expanded (book : RateBook) : Entries.names (expanded book) = Entries.names book := by
  simp [Entries.names, expanded]

theorem IsTidy.expanded (h : book.IsTidy) : (expanded book).IsTidy := by
  constructor
  · rw [names_expanded]
    exact h.names
  all_goals
    intro entry hentry
    obtain ⟨first, hfirst, rfl⟩ := List.mem_map.mp hentry
  · exact h.capitals first hfirst
  · exact h.joined first hfirst
  · exact (h.tables first hfirst).expanded

theorem sameRates_expanded (h : book.IsTidy) : SameRates book (RateBook.expanded book) := by
  rw [SameRates, RateBook.expanded, List.forall₂_map_right_iff]
  apply List.forall₂_same.mpr
  intro entry hentry
  exact ⟨rfl, RateTable.sameRates_expanded (h.tables entry hentry)⟩

/-- So do bases, and the codes of every table. -/
theorem capitalized_eq_self (hnames : (Entries.names book).Nodup)
    (hcapitals : ∀ entry ∈ book, Text.upperString entry.1 = entry.1)
    (htables : ∀ entry ∈ book, RateTable.capitalized entry.2 = entry.2) :
    capitalized book = book := by
  have hsame : (book.map fun entry =>
      (Text.upperString entry.1, RateTable.capitalized entry.2)) = book := by
    conv_rhs => rw [← List.map_id book]
    apply List.map_congr_left
    intro entry hentry
    rw [hcapitals entry hentry, htables entry hentry]
    rfl
  rw [capitalized, hsame, Entries.ofPairs_of_nodup hnames]

theorem capitalized_of_isTidy (h : book.IsTidy) : capitalized book = book :=
  capitalized_eq_self h.names h.capitals fun entry hentry =>
    RateTable.capitalized_of_isTidy (h.tables entry hentry)

end RateBook

/-! ## Checks that pass -/

theorem RateBook.checked_of_isTidy {book : RateBook} (h : book.IsTidy) :
    RateBook.checked book = .valid book :=
  RateBook.checked_eq_valid_iff.mpr
    ⟨fun entry hentry => (h.tables entry hentry).usable, (RateBook.capitalized_of_isTidy h).symm⟩

namespace RateDocument

open Schema

variable {book : RateBook}

/-- A book of finite rates that stays as it is when it is checked makes a document. -/
theorem ofBook_of_checked (hfinite : ∀ entry ∈ book, ∀ rate ∈ entry.2, rate.2.isFinite = true)
    (hchecked : RateBook.checked book = .valid book) (timestamp : String) :
    ofBook timestamp book = .ok ⟨timestamp, book⟩ := by
  have hbook : Checked.entries (fun _ rates =>
      Checked.entries (fun _ rate => finiteDecimal (.ok rate)) rates) book = .valid book := by
    apply Checked.entries_self
    intro entry hentry
    apply Checked.entries_self
    intro rate hrate
    exact if_pos (hfinite entry hentry rate hrate)
  rw [ofBook, hbook]
  show ((RateBook.checked book).under "rates" |>.map _).toExcept title = _
  rw [hchecked]
  rfl

/-- A tidy book makes a document as it stands. -/
theorem ofBook_of_isTidy (h : book.IsTidy) (timestamp : String) :
    ofBook timestamp book = .ok ⟨timestamp, book⟩ :=
  ofBook_of_checked
    (fun entry hentry rate hrate =>
      Decimal.isFinite_of_isHeld ((h.tables entry hentry).held rate hrate))
    (RateBook.checked_of_isTidy h) timestamp

theorem decimal_fixedText {rate : Decimal} (h : rate.IsHeld) :
    decimal (.text rate.fixedText) = .valid rate.expanded := by
  rw [decimal, Decimal.fixedText, String.toList_ofList, Decimal.parse_fixed h, finiteDecimal,
    if_pos (Decimal.isFinite_of_isHeld h.expanded)]

/-- A table in a document. -/
def tableJson (rates : RateTable) : Json :=
  .object (rates.map fun entry => (entry.1, .text entry.2.fixedText))

/-- A book in a document. -/
def bookJson (book : RateBook) : Json :=
  .object (book.map fun entry => (entry.1, tableJson entry.2))

theorem toJson_eq (timestamp : String) (book : RateBook) :
    toJson ⟨timestamp, book⟩ =
      .object [("timestamp", .text timestamp), ("rates", bookJson book)] :=
  rfl

theorem table_tableJson {rates : RateTable} (h : rates.IsTidy) :
    table decimal (tableJson rates) = .valid rates.expanded := by
  show Checked.entries (fun _ v => decimal v)
    (rates.map fun entry => (entry.1, Json.text entry.2.fixedText)) = _
  apply Checked.entries_map (g := fun rate : Decimal => Json.text rate.fixedText)
  intro rate hrate
  exact decimal_fixedText (h.held rate hrate)

theorem table_bookJson (h : book.IsTidy) :
    table (table decimal) (bookJson book) = .valid book.expanded := by
  show Checked.entries (fun _ v => table decimal v)
    (book.map fun entry => (entry.1, tableJson entry.2)) = _
  apply Checked.entries_map (g := tableJson)
  intro entry hentry
  exact table_tableJson (h.tables entry hentry)

/-- A document of a tidy book, read back from its values. -/
theorem ofJson_toJson (h : book.IsTidy) (timestamp : String) :
    ofJson (toJson ⟨timestamp, book⟩) = .ok ⟨timestamp, book.expanded⟩ := by
  have hrates : (table (table decimal) (bookJson book)).andThen RateBook.checked =
      .valid book.expanded := by
    rw [table_bookJson h]
    exact RateBook.checked_of_isTidy h.expanded
  rw [toJson_eq, ofJson]
  show ((RateDocument.mk <$> Checked.under "timestamp" (.valid timestamp) <*>
    Checked.under "rates" ((table (table decimal) (bookJson book)).andThen
      RateBook.checked)).toExcept title) = _
  rw [hrates]
  rfl

/-! ## Documents as bytes -/

theorem isJoined_fixedText {rate : Decimal} (h : rate.IsHeld) :
    Json.IsJoined rate.fixedText.toList := by
  obtain ⟨negative, c, e, rfl⟩ := Decimal.eq_finite_of_isFinite (Decimal.isFinite_of_isHeld h)
  obtain ⟨n, htext, -⟩ := Decimal.exists_numeral_fixed negative c e
  rw [Decimal.fixedText, String.toList_ofList, ← htext]
  apply Json.isJoined_of_forall
  intro d hd
  obtain ⟨-, hlast⟩ := (n.isPlain_of_mem_text hd).toNat_mem
  unfold Text.halfDistance
  omega

theorem readsBack_tableJson {rates : RateTable} (h : rates.IsTidy) (level depth : Nat) :
    Json.ReadsBack Json.basic .exact level (depth + 1) (tableJson rates) := by
  apply Json.readsBack_object
  · rw [Entries.names, List.map_map]
    exact h.names
  · intro member hmember
    obtain ⟨entry, hentry, rfl⟩ := List.mem_map.mp hmember
    have htext := Json.readsText_basic (isJoined_fixedText (h.held entry hentry))
    exact ⟨Json.readsText_basic (h.joined entry hentry), Json.readsBack_text htext .exact _ _⟩

theorem readsBack_bookJson (h : book.IsTidy) (level depth : Nat) :
    Json.ReadsBack Json.basic .exact level (depth + 2) (bookJson book) := by
  apply Json.readsBack_object
  · rw [Entries.names, List.map_map]
    exact h.names
  · intro member hmember
    obtain ⟨entry, hentry, rfl⟩ := List.mem_map.mp hmember
    exact ⟨Json.readsText_basic (h.joined entry hentry),
      readsBack_tableJson (h.tables entry hentry) _ depth⟩

/-- A document of a tidy book, read back from what is written for it. -/
theorem readsBack_toJson (h : book.IsTidy) {timestamp : String}
    (htimestamp : Json.IsJoined timestamp.toList) :
    Json.ReadsBack Json.basic .exact 0 Json.depthLimit (toJson ⟨timestamp, book⟩) := by
  rw [toJson_eq]
  show Json.ReadsBack Json.basic .exact 0 (989 + 1) _
  apply Json.readsBack_object
  · show ["timestamp", "rates"].Nodup
    decide
  · intro member hmember
    rcases List.mem_cons.mp hmember with rfl | hmember
    · have hname := Json.readsText_basic (t := "timestamp") (by decide)
      exact ⟨hname, Json.readsBack_text (Json.readsText_basic htimestamp) .exact _ _⟩
    · rw [List.mem_singleton.mp hmember]
      have hname := Json.readsText_basic (t := "rates") (by decide)
      exact ⟨hname, readsBack_bookJson h _ 987⟩

end RateDocument

/-- A document of a tidy book, read back from its bytes. -/
theorem RateFile.ofContents_contents {book : RateBook} (h : book.IsTidy) {timestamp : String}
    (htimestamp : Json.IsJoined timestamp.toList) :
    RateFile.ofContents (RateFile.contents ⟨timestamp, book⟩) =
      .ok (some ⟨timestamp, book.expanded⟩) := by
  have hread := RateDocument.readsBack_toJson h htimestamp
  rw [RateDocument.toJson_eq] at hread
  rw [ofContents, contents, Text.decodeUtf8?_encodeUtf8, RateDocument.toJson_eq]
  dsimp only
  rw [Json.read_writeIndented hread, ← RateDocument.toJson_eq]
  dsimp only
  rw [RateDocument.ofJson_toJson h]
  rfl

end Cambio
