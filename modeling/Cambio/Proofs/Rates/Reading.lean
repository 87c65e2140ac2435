import Cambio.Proofs.Decimal.Rounding
import Cambio.Proofs.Except
import Cambio.Proofs.Rates.Usable
import Cambio.Rates.Store
import Mathlib.Data.List.Forall2

/-!
# Which values are documents of rates

A value is an answer or the contents of a rate file exactly if every member that has to be there is
there and every single rate in it is a finite decimal above zero, given as a number or as a text.
What is read off it then are these rates, with all codes in capital letters.

## Main definitions

- `Json.Gives`, `Json.Lists` — a value that is a decimal, and an object of usable rates
- `RateBook.ReadFrom` — the tables of a rate file
- `RateDocument.ReadFrom` — the contents of a rate file
- `RateAnswer.ReadFrom` — an answer of the rate service

## Main statements

- `RateBook.checked_eq_valid_iff` — which tables make a book
- `RateDocument.ofJson_eq_ok_iff` — which values are read as the contents of a rate file
- `RateAnswer.ofJson_eq_ok_iff` — which values are read as a table
-/

namespace Cambio

open Schema

/-! ## Values that list rates -/

namespace Json

/-- A value gives a decimal: a number, or a text that is one. -/
inductive Gives : Json → Decimal → Prop
  | decimal (d : Decimal) : Gives (.decimal d) d
  | whole (n : Int) : Gives (.whole n) (.ofInt n)
  /-- A floating-point number is taken by its digits. -/
  | binary {x : Binary64} {d : Decimal} (h : Decimal.parse (x.write Binary64.display) = .ok d) :
    Gives (.binary x) d
  | text {s : String} {d : Decimal} (h : Decimal.parse s.toList = .ok d) : Gives (.text s) d

/-- An object lists rates: each of its members gives a finite decimal above zero. -/
def Lists (v : Json) (rates : List (String × Decimal)) : Prop :=
  ∃ members, v = .object members ∧
    List.Forall₂ (fun rate member =>
      rate.2.isPositive = true ∧ rate.1 = member.1 ∧ member.2.Gives rate.2) rates members

end Json

/-- Every table with its codes and every base in capital letters; of two tables of one base the
    later counts. -/
def RateBook.capitalized (book : List (String × List (String × Decimal))) : RateBook :=
  Entries.ofPairs (book.map fun entry => (Text.upperString entry.1, RateTable.capitalized entry.2))

/-- The book of a rate file: an object of tables, or nothing at all. -/
inductive RateBook.ReadFrom : Option Json → RateBook → Prop
  | absent : ReadFrom none []
  | listed {members : List (String × Json)} {book : List (String × List (String × Decimal))}
    (h : List.Forall₂ (fun table member => table.1 = member.1 ∧ member.2.Lists table.2)
      book members) : ReadFrom (some (.object members)) (RateBook.capitalized book)

/-- A value has the contents of a rate file: any text for its time, and a book of rates. -/
def RateDocument.ReadFrom (v : Json) (document : RateDocument) : Prop :=
  ∃ members, v = .object members ∧
    Entries.get? "timestamp" members = some (.text document.timestamp) ∧
      RateBook.ReadFrom (Entries.get? "rates" members) document.rates

/-- A value is an answer of the rate service: its data lists at least one rate. -/
def RateAnswer.ReadFrom (v : Json) (table : RateTable) : Prop :=
  ∃ members data rates, v = .object members ∧ Entries.get? "data" members = some data ∧
    data.Lists rates ∧ rates ≠ [] ∧ table = RateTable.capitalized rates

/-! ## Checked decimals -/

theorem Schema.finiteDecimal_eq_valid_iff {result : Except Decimal.Signal Decimal} {d : Decimal} :
    finiteDecimal result = .valid d ↔ result = .ok d ∧ d.isFinite = true := by
  cases result with
  | error signal => exact ⟨nofun, fun h => by cases h.1⟩
  | ok e =>
    rw [finiteDecimal]
    split
    · next hfinite =>
      rw [Checked.valid.injEq, Except.ok.injEq]
      exact ⟨fun h => ⟨h, h ▸ hfinite⟩, And.left⟩
    · next hfinite =>
      refine iff_of_false nofun ?_
      rintro ⟨⟨⟩, hd⟩
      exact hfinite hd

theorem Schema.decimal_eq_valid_iff {v : Json} {d : Decimal} :
    decimal v = .valid d ↔ v.Gives d ∧ d.isFinite = true := by
  cases v with
  | decimal e =>
    rw [decimal, finiteDecimal_eq_valid_iff, Except.ok.injEq]
    exact ⟨fun ⟨h, hfinite⟩ => ⟨h ▸ .decimal e, hfinite⟩,
      fun ⟨h, hfinite⟩ => ⟨by cases h; rfl, hfinite⟩⟩
  | whole n =>
    rw [decimal, Checked.valid.injEq]
    exact ⟨fun h => h ▸ ⟨.whole n, rfl⟩, fun ⟨h, _⟩ => by cases h; rfl⟩
  | binary x =>
    rw [decimal, finiteDecimal_eq_valid_iff]
    exact ⟨fun ⟨h, hfinite⟩ => ⟨.binary h, hfinite⟩, fun ⟨.binary h, hfinite⟩ => ⟨h, hfinite⟩⟩
  | text s =>
    rw [decimal, finiteDecimal_eq_valid_iff]
    exact ⟨fun ⟨h, hfinite⟩ => ⟨.text h, hfinite⟩, fun ⟨.text h, hfinite⟩ => ⟨h, hfinite⟩⟩
  | null | bool | list | object => exact ⟨nofun, nofun⟩

theorem Schema.table_eq_valid_iff {α : Type} {check : Json → Checked α} {v : Json}
    {es : List (String × α)} :
    table check v = .valid es ↔ ∃ members, v = .object members ∧
      List.Forall₂ (fun e m => e.1 = m.1 ∧ check m.2 = .valid e.2) es members := by
  cases v with
  | object members =>
    rw [table, Checked.entries_eq_valid_iff]
    exact ⟨fun h => ⟨members, rfl, h⟩, fun ⟨_, hv, h⟩ => by cases hv; exact h⟩
  | null | bool | whole | decimal | binary | text | list => exact ⟨nofun, nofun⟩

/-! ## Tables and books -/

/-- A table is checked for the form of its rates first, and then for their sign. -/
theorem Json.lists_iff {v : Json} {rates : List (String × Decimal)} :
    v.Lists rates ↔ Schema.table Schema.decimal v = .valid rates ∧ RateTable.IsUsable rates := by
  constructor
  · rintro ⟨members, rfl, h⟩
    obtain ⟨husable, -⟩ := (List.forall₂_and_left rates members).mp h
    refine ⟨Schema.table_eq_valid_iff.mpr ⟨members, rfl, h.imp fun rate member hr => ?_⟩, husable⟩
    exact ⟨hr.2.1, Schema.decimal_eq_valid_iff.mpr ⟨hr.2.2, Decimal.isFinite_of_isPositive hr.1⟩⟩
  · rintro ⟨htable, husable⟩
    obtain ⟨members, rfl, h⟩ := Schema.table_eq_valid_iff.mp htable
    refine ⟨members, rfl, (List.forall₂_and_left rates members).mpr ⟨husable, ?_⟩⟩
    exact h.imp fun rate member hr => ⟨hr.1, (Schema.decimal_eq_valid_iff.mp hr.2).1⟩

/-- Both parts of the entries of a book stand in capital letters. -/
theorem RateBook.normalizeEntry_eq_ok_iff {entry : String × List (String × Decimal)}
    {table : String × RateTable} :
    (do return (Text.upperString entry.1, ← RateTable.normalize entry.2) :
      Except RateTable.BadRate (String × RateTable)) = .ok table ↔
      RateTable.IsUsable entry.2 ∧
        (Text.upperString entry.1, RateTable.capitalized entry.2) = table := by
  rw [Except.bind_eq_ok_iff]
  constructor
  · rintro ⟨normal, hnormal, hpair⟩
    obtain ⟨husable, rfl⟩ := RateTable.normalize_eq_ok_iff.mp hnormal
    exact ⟨husable, Except.ok.inj hpair⟩
  · rintro ⟨husable, rfl⟩
    exact ⟨_, RateTable.normalize_eq_ok_iff.mpr ⟨husable, rfl⟩, rfl⟩

theorem RateBook.normalize_eq_ok_iff {rates : List (String × List (String × Decimal))}
    {book : RateBook} :
    RateBook.normalize rates = .ok book ↔
      (∀ entry ∈ rates, RateTable.IsUsable entry.2) ∧ book = RateBook.capitalized rates := by
  have htables (tables : RateBook) :
      rates.mapM (fun (entry : String × List (String × Decimal)) =>
          (do return (Text.upperString entry.1, ← RateTable.normalize entry.2) :
            Except RateTable.BadRate (String × RateTable))) = .ok tables ↔
        (∀ entry ∈ rates, RateTable.IsUsable entry.2) ∧
          rates.map (fun entry => (Text.upperString entry.1, RateTable.capitalized entry.2)) =
            tables := by
    simp only [Except.mapM_eq_ok_iff, RateBook.normalizeEntry_eq_ok_iff, List.forall₂_and_left]
    rw [← List.forall₂_map_left_iff (R := (· = ·)), List.forall₂_eq_eq_eq]
  unfold RateBook.normalize
  rw [Except.bind_eq_ok_iff]
  constructor
  · rintro ⟨tables, hmap, hbook⟩
    obtain ⟨husable, rfl⟩ := (htables tables).mp hmap
    exact ⟨husable, (Except.ok.inj hbook).symm⟩
  · rintro ⟨husable, rfl⟩
    exact ⟨_, (htables _).mpr ⟨husable, rfl⟩, rfl⟩

theorem RateBook.checked_eq_valid_iff {rates : List (String × List (String × Decimal))}
    {book : RateBook} :
    RateBook.checked rates = .valid book ↔
      (∀ entry ∈ rates, RateTable.IsUsable entry.2) ∧ book = RateBook.capitalized rates := by
  rw [RateBook.checked, Checked.ofRule_eq_valid_iff, Except.mapError_eq_ok_iff,
    RateBook.normalize_eq_ok_iff]

/-! ## Answers -/

/-- **Answers**: which values are read as a table, and what is read off them. -/
theorem RateAnswer.ofJson_eq_ok_iff {v : Json} {table : RateTable} :
    RateAnswer.ofJson v = .ok table ↔ RateAnswer.ReadFrom v table := by
  unfold RateAnswer.ofJson RateAnswer.ReadFrom
  dsimp only
  rw [Checked.toExcept_eq_ok_iff, Checked.andThen_eq_valid_iff]
  simp only [members_eq_valid_iff, required_eq_valid_iff, Checked.andThen_eq_valid_iff]
  constructor
  · rintro ⟨members, rfl, data, hdata, rates, hrates, hchecked⟩
    split at hchecked
    · cases hchecked
    · next hnil =>
      obtain ⟨husable, rfl⟩ := RateTable.checked_eq_valid_iff.mp hchecked
      exact ⟨members, data, rates, rfl, hdata, Json.lists_iff.mpr ⟨hrates, husable⟩,
        fun h => hnil (List.isEmpty_iff.mpr h), rfl⟩
  · rintro ⟨members, data, rates, rfl, hdata, hlists, hnil, rfl⟩
    obtain ⟨hrates, husable⟩ := Json.lists_iff.mp hlists
    refine ⟨members, rfl, data, hdata, rates, hrates, ?_⟩
    rw [if_neg fun h => hnil (List.isEmpty_iff.mp h)]
    exact RateTable.checked_eq_valid_iff.mpr ⟨husable, rfl⟩

/-! ## Rate files -/

/-- An object of tables, each of which lists rates. -/
theorem RateBook.readFrom_some_iff {v : Json} {book : RateBook} :
    RateBook.ReadFrom (some v) book ↔
      (table (table decimal) v).andThen RateBook.checked = .valid book := by
  rw [Checked.andThen_eq_valid_iff]
  constructor
  · intro hread
    cases hread with
    | @listed members rates h =>
      have hlists := h.imp fun table member ht => And.intro (Json.lists_iff.mp ht.2).2
        (And.intro ht.1 (Json.lists_iff.mp ht.2).1)
      obtain ⟨husable, htables⟩ := (List.forall₂_and_left rates members).mp hlists
      exact ⟨rates, table_eq_valid_iff.mpr ⟨members, rfl, htables⟩,
        RateBook.checked_eq_valid_iff.mpr ⟨husable, rfl⟩⟩
  · rintro ⟨rates, htable, hchecked⟩
    obtain ⟨members, rfl, h⟩ := table_eq_valid_iff.mp htable
    obtain ⟨husable, rfl⟩ := RateBook.checked_eq_valid_iff.mp hchecked
    refine .listed ?_
    have hboth := (List.forall₂_and_left rates members).mpr ⟨husable, h⟩
    exact hboth.imp fun table member ht => ⟨ht.2.1, Json.lists_iff.mpr ⟨ht.2.2, ht.1⟩⟩

theorem RateBook.readFrom_iff {ms : List (String × Json)} {book : RateBook} :
    RateBook.ReadFrom (Entries.get? "rates" ms) book ↔
      Schema.optional ms "rates" [] (fun v => (table (table decimal) v).andThen RateBook.checked) =
        .valid book := by
  unfold Schema.optional
  cases Entries.get? "rates" ms with
  | none =>
    rw [Checked.valid.injEq]
    exact ⟨fun h => by cases h; rfl, fun h => h ▸ .absent⟩
  | some v =>
    dsimp only
    rw [Checked.under_eq_valid_iff, RateBook.readFrom_some_iff]

/-- **Contents of rate files**: which values are read, and what is read off them. -/
theorem RateDocument.ofJson_eq_ok_iff {v : Json} {document : RateDocument} :
    RateDocument.ofJson v = .ok document ↔ RateDocument.ReadFrom v document := by
  unfold RateDocument.ofJson RateDocument.ReadFrom
  dsimp only
  rw [Checked.toExcept_eq_ok_iff, Checked.andThen_eq_valid_iff]
  simp only [members_eq_valid_iff, Checked.map_apply_eq_valid_iff, required_eq_valid_iff,
    text_eq_valid_iff, RateBook.readFrom_iff]
  constructor
  · rintro ⟨ms, rfl, timestamp, book, ⟨_, htime, rfl⟩, hbook, rfl⟩
    exact ⟨ms, rfl, htime, hbook⟩
  · rintro ⟨ms, rfl, htime, hbook⟩
    exact ⟨ms, rfl, document.timestamp, document.rates, ⟨_, htime, rfl⟩, hbook, rfl⟩

end Cambio
