import Cambio.Proofs.Rates.Fetched
import Mathlib.Data.Finset.Card

/-!
# What a merge adds

A merge walks through the tables of a book and adds to the cache what is missing there. It counts
what it adds while the tables grow, and sets the rate of a base to itself only after the table is
walked through. What it leaves and what it counts are told here by the cache before it and the book
alone. From this it follows that a second merge of a book finds nothing to do, and that two books
that have no pair of currencies in common can be merged in either order.

## Main definitions

- `RateCache.held?`, `RateCache.fetched?` — the rates and the times of a cache, by names as they
  stand in it
- `RateCache.quotes`, `RateCache.pairs` — what a book is about
- `RateCache.FillsGaps` — what a merge makes of a cache
- `RateCache.SameTables` — caches that differ in the order of their entries and in counts only

## Main statements

- `RateCache.foldl_mergeTable_snd` — how many rates a merge adds
- `RateCache.held?_merge_self`, `RateCache.held?_merge` — the rates after a merge
- `RateCache.foldl_mergeTable_of_held` — a merge that finds nothing to do
- `RateCache.fillsGaps` — a merge adds exactly what is missing
-/

namespace Cambio.RateCache

variable {base code : String} {rate : Decimal} {book other : List (String × RateTable)}
  {now : Moment}

/-! ## What is there before and after -/

/-- The rate that a table has under a code. Reading of a cache puts both names in capital letters;
    here they are taken as they are. -/
def held? (slots : Entries Slot) (base code : String) : Option Decimal :=
  (Entries.get? base slots).bind fun slot => Entries.get? code slot.rates

/-- The time at which a table counts as fetched. -/
def fetched? (slots : Entries Slot) (base : String) : Option Moment :=
  (Entries.get? base slots).map Slot.fetchedAt

/-- Caches with the same tables of the same times, in whatever order these and their rates came. -/
structure SameTables (c d : RateCache) : Prop where
  rates : ∀ base code, held? c.slots base code = held? d.slots base code
  times : ∀ base, fetched? c.slots base = fetched? d.slots base

/-! ## What a book is about -/

/-- The rates of a book, each under its pair of currencies in capital letters. -/
def quotes (book : List (String × RateTable)) : List ((String × String) × Decimal) :=
  book.flatMap fun entry => entry.2.map fun rate =>
    ((Text.upperString entry.1, Text.upperString rate.1), rate.2)

/-- The pairs of currencies that a book has a rate for. -/
def pairs (book : List (String × RateTable)) : Finset (String × String) :=
  ((quotes book).map Prod.fst).toFinset

theorem mem_quotes :
    ((base, code), rate) ∈ quotes book ↔
      ∃ entry ∈ book, Text.upperString entry.1 = base ∧
        ∃ listed ∈ entry.2, Text.upperString listed.1 = code ∧ listed.2 = rate := by
  simp only [quotes, List.mem_flatMap, List.mem_map, Prod.mk.injEq]
  constructor
  · rintro ⟨entry, hentry, listed, hlisted, ⟨hbase, hcode⟩, hrate⟩
    exact ⟨entry, hentry, hbase, listed, hlisted, hcode, hrate⟩
  · rintro ⟨entry, hentry, hbase, listed, hlisted, hcode, hrate⟩
    exact ⟨entry, hentry, listed, hlisted, ⟨hbase, hcode⟩, hrate⟩

/-- Under names that differ also in capital letters, each finds the entry that has it. -/
theorem map_snd_find?_eq_some_iff {α : Type} {entries : List (String × α)} {name : String} {x : α}
    (h : (entries.map fun entry => Text.upperString entry.1).Nodup) :
    (entries.find? fun entry => Text.upperString entry.1 = name).map Prod.snd = some x ↔
      ∃ entry ∈ entries, Text.upperString entry.1 = name ∧ entry.2 = x := by
  rw [Option.map_eq_some_iff]
  constructor
  · rintro ⟨entry, hfound, hx⟩
    exact ⟨entry, List.mem_of_find?_eq_some hfound, by simpa using List.find?_some hfound, hx⟩
  · rintro ⟨entry, hentry, hname, hx⟩
    obtain ⟨found, hfound⟩ : ∃ found,
        entries.find? (fun entry => Text.upperString entry.1 = name) = some found :=
      Option.isSome_iff_exists.mp (List.find?_isSome.mpr ⟨entry, hentry, by simpa using hname⟩)
    have hsame : Text.upperString found.1 = name := by simpa using List.find?_some hfound
    have heq : found = entry :=
      List.inj_on_of_nodup_map h (List.mem_of_find?_eq_some hfound) hentry (hsame.trans hname.symm)
    exact ⟨found, hfound, heq ▸ hx⟩

/-- A tidy book has one rate for each of its pairs. -/
theorem quoted_iff (h : (Write.merge book now).IsTidy) :
    (tableOf? base book).bind (listed? code) = some rate ↔ ((base, code), rate) ∈ quotes book := by
  rw [mem_quotes, Option.bind_eq_some_iff]
  constructor
  · rintro ⟨table, htable, hlisted⟩
    obtain ⟨entry, hentry, hbase, rfl⟩ := (map_snd_find?_eq_some_iff h.1).mp htable
    exact ⟨entry, hentry, hbase, (map_snd_find?_eq_some_iff (h.2 entry hentry)).mp hlisted⟩
  · rintro ⟨entry, hentry, hbase, hlisted⟩
    exact ⟨entry.2, (map_snd_find?_eq_some_iff h.1).mpr ⟨entry, hentry, hbase, rfl⟩,
      (map_snd_find?_eq_some_iff (h.2 entry hentry)).mpr hlisted⟩

theorem mem_pairs : (base, code) ∈ pairs book ↔ ∃ rate, ((base, code), rate) ∈ quotes book := by
  simp [pairs]

/-- The pairs of a tidy book are counted by its rates. -/
theorem nodup_map_fst_quotes (h : (Write.merge book now).IsTidy) :
    ((quotes book).map Prod.fst).Nodup := by
  have hpairs : (quotes book).map Prod.fst = book.flatMap fun entry =>
      (entry.2.map fun rate => Text.upperString rate.1).map
        (Prod.mk (Text.upperString entry.1)) := by
    simp [quotes, List.map_flatMap, Function.comp_def]
  rw [hpairs, List.nodup_flatMap]
  refine ⟨fun entry hentry => (h.2 entry hentry).map (Prod.mk_right_injective _), ?_⟩
  refine (List.pairwise_map.mp h.1).imp @fun first second hbases => ?_
  rintro ⟨base, code⟩ hfirst hsecond
  have hfirst : Text.upperString first.1 = base := by
    obtain ⟨_, -, heq⟩ := List.mem_map.mp hfirst
    exact congrArg Prod.fst heq
  have hsecond : Text.upperString second.1 = base := by
    obtain ⟨_, -, heq⟩ := List.mem_map.mp hsecond
    exact congrArg Prod.fst heq
  exact hbases (hfirst.trans hsecond.symm)

/-! ## How many rates are added -/

/-- Different codes do not get in each other's way: each is added if it was missing before. -/
theorem foldl_addRate_snd {table : RateTable}
    (h : (table.map fun entry => Text.upperString entry.1).Nodup) (state : RateTable × Nat) :
    (table.foldl addRate state).2 =
      state.2 + table.countP fun entry => !Entries.has (Text.upperString entry.1) state.1 := by
  induction table generalizing state with
  | nil => rfl
  | cons entry table ih =>
    rw [List.map_cons, List.nodup_cons] at h
    obtain ⟨hnew, hrest⟩ := h
    obtain ⟨rates, added⟩ := state
    rw [List.foldl_cons, ih hrest, List.countP_cons]
    cases hhas : Entries.has (Text.upperString entry.1) rates with
    | true => simp [addRate, hhas]
    | false =>
      -- The code that is added is none of the later ones, so these are as missing as they were.
      have hlater : ∀ later ∈ table,
          Entries.has (Text.upperString later.1) (rates ++ [(Text.upperString entry.1, entry.2)]) =
            Entries.has (Text.upperString later.1) rates := by
        intro later hmem
        have hne : Text.upperString entry.1 ≠ Text.upperString later.1 := fun heq =>
          hnew (List.mem_map.mpr ⟨later, hmem, heq.symm⟩)
        simp [Entries.has, Entries.get?_append, Entries.get?, hne]
      have hcount : (table.countP fun later => !Entries.has (Text.upperString later.1)
            (rates ++ [(Text.upperString entry.1, entry.2)])) =
          table.countP fun later => !Entries.has (Text.upperString later.1) rates :=
        List.countP_congr fun later hmem => by rw [hlater later hmem]
      simp only [addRate, hhas, Bool.false_eq_true, if_false, hcount, Bool.not_false, if_true]
      omega

theorem mergeTable_snd (now : Moment) (state : Entries Slot × Nat) {entry : String × RateTable}
    (h : (entry.2.map fun rate => Text.upperString rate.1).Nodup) :
    (mergeTable now state entry).2 = state.2 + entry.2.countP fun rate =>
      (held? state.1 (Text.upperString entry.1) (Text.upperString rate.1)).isNone := by
  obtain ⟨slots, added⟩ := state
  have hheld (code : String) :
      (!Entries.has code ((Entries.get? (Text.upperString entry.1) slots).getD ⟨[], now⟩).rates) =
        (held? slots (Text.upperString entry.1) code).isNone := by
    unfold held? Entries.has
    cases Entries.get? (Text.upperString entry.1) slots <;> simp [Entries.get?]
  simp only [mergeTable]
  rw [foldl_addRate_snd h]
  simp only [hheld]

/-- A merge adds the rates of the pairs that were missing before it. The tables that it walks
    through first do not count for those that come later, since these have other bases. -/
theorem foldl_mergeTable_snd (h : (Write.merge book now).IsTidy) (state : Entries Slot × Nat) :
    (book.foldl (mergeTable now) state).2 = state.2 + (quotes book).countP fun quote =>
      (held? state.1 quote.1.1 quote.1.2).isNone := by
  induction book generalizing state with
  | nil => rfl
  | cons entry book ih =>
    obtain ⟨hbases, htables⟩ := h
    obtain ⟨hentry, hrest⟩ := List.nodup_cons.mp hbases
    obtain ⟨htable, htables⟩ := List.forall_mem_cons.mp htables
    -- The first table changes what its own base holds, and no later table has that base.
    have hlater : ∀ quote ∈ quotes book,
        held? (mergeTable now state entry).1 quote.1.1 quote.1.2 =
          held? state.1 quote.1.1 quote.1.2 := by
      rintro ⟨⟨base, code⟩, rate⟩ hquote
      obtain ⟨later, hmem, hbase, -⟩ := mem_quotes.mp hquote
      have hne : Text.upperString entry.1 ≠ base := fun heq =>
        hentry (List.mem_map.mpr ⟨later, hmem, hbase.trans heq.symm⟩)
      rw [held?, get?_mergeTable, if_neg hne, ← held?]
    have hcount : ((quotes book).countP fun quote =>
          (held? (mergeTable now state entry).1 quote.1.1 quote.1.2).isNone) =
        (quotes book).countP fun quote => (held? state.1 quote.1.1 quote.1.2).isNone :=
      List.countP_congr fun quote hquote => by rw [hlater quote hquote]
    have hquotes : quotes (entry :: book) = (entry.2.map fun rate =>
        ((Text.upperString entry.1, Text.upperString rate.1), rate.2)) ++ quotes book := rfl
    rw [List.foldl_cons, ih ⟨hrest, htables⟩, mergeTable_snd now state htable, hcount, hquotes,
      List.countP_append, List.countP_map, Nat.add_assoc]
    rfl

/-- The rates that are added are as many as the pairs of the book that had none. -/
theorem merge_fst (c : RateCache) (h : (Write.merge book now).IsTidy) :
    (c.merge book now).1 =
      ((pairs book).filter fun pair => held? c.slots pair.1 pair.2 = none).card := by
  have hcount : (c.merge book now).1 = (quotes book).countP fun quote =>
      (held? c.slots quote.1.1 quote.1.2).isNone :=
    (foldl_mergeTable_snd h (c.slots, 0)).trans (Nat.zero_add _)
  have hfilter : (pairs book).filter (fun pair => held? c.slots pair.1 pair.2 = none) =
      (((quotes book).map Prod.fst).filter fun pair =>
        (held? c.slots pair.1 pair.2).isNone).toFinset := by
    ext pair
    simp [pairs]
  rw [hcount, hfilter, List.toFinset_card_of_nodup ((nodup_map_fst_quotes h).filter _),
    ← List.countP_eq_length_filter, List.countP_map]
  rfl

/-! ## What is there after a merge -/

theorem held?_merge_self (c : RateCache) (h : (Write.merge book now).IsTidy)
    (hbase : base ∈ basesOf book) :
    held? (c.merge book now).2.slots base base = some RateTable.identityRate := by
  obtain ⟨table, htable⟩ := Option.isSome_iff_exists.mp (isSome_tableOf?_iff.mpr hbase)
  have hslot : Entries.get? base (c.merge book now).2.slots = _ :=
    get?_foldl_mergeTable now (c.slots, 0) h.1
  rw [held?, hslot, htable]
  exact get?_withIdentity_self _ _

/-- A rate that was there stays, and one that was missing is that of the book. -/
theorem held?_merge (c : RateCache) (h : (Write.merge book now).IsTidy)
    (hcode : base = code → base ∉ basesOf book) :
    held? (c.merge book now).2.slots base code =
      (held? c.slots base code).or ((tableOf? base book).bind (listed? code)) := by
  have hslot : Entries.get? base (c.merge book now).2.slots = _ :=
    get?_foldl_mergeTable now (c.slots, 0) h.1
  rw [held?, hslot]
  cases htable : tableOf? base book with
  | none => exact (Option.or_none).symm
  | some table =>
    have hne : code ≠ base := fun heq =>
      hcode heq.symm (isSome_tableOf?_iff.mp (by rw [htable]; rfl))
    simp only [Option.bind_some, filled, held?]
    rw [get?_withIdentity hne, get?_foldl_addRate]
    cases Entries.get? base c.slots <;> rfl

theorem held?_merge_base (c : RateCache) (h : (Write.merge book now).IsTidy) :
    held? (c.merge book now).2.slots base base =
      if base ∈ basesOf book then some RateTable.identityRate else held? c.slots base base := by
  split
  · next hbase => exact held?_merge_self c h hbase
  · next hbase =>
    rw [held?_merge c h fun _ => hbase, tableOf?_eq_none hbase]
    exact Option.or_none

theorem fetched?_merge (c : RateCache) (book : List (String × RateTable)) (now : Moment)
    (base : String) :
    fetched? (c.merge book now).2.slots base =
      (fetched? c.slots base).or (if base ∈ basesOf book then some now else none) := by
  simp only [← isSome_tableOf?_iff]
  exact map_fetchedAt_foldl_mergeTable now base book (c.slots, 0)

/-! ## Merging what is there -/

theorem foldl_addRate_of_has {rates table : RateTable} {added : Nat}
    (h : ∀ entry ∈ table, Entries.has (Text.upperString entry.1) rates = true) :
    table.foldl addRate (rates, added) = (rates, added) := by
  induction table with
  | nil => rfl
  | cons entry table ih =>
    obtain ⟨hentry, hrest⟩ := List.forall_mem_cons.mp h
    rw [List.foldl_cons, addRate, if_pos hentry, ih hrest]

/-- A merge leaves the tables as they are, down to their order, if they have all pairs of the book
    and the rates of its bases to themselves. -/
theorem foldl_mergeTable_of_held {slots : Entries Slot} {added : Nat}
    (hbases : ∀ base ∈ basesOf book, held? slots base base = some RateTable.identityRate)
    (hquotes : ∀ quote ∈ quotes book, (held? slots quote.1.1 quote.1.2).isSome = true) :
    book.foldl (mergeTable now) (slots, added) = (slots, added) := by
  induction book with
  | nil => rfl
  | cons entry book ih =>
    obtain ⟨hentry, hbases⟩ := List.forall_mem_cons.mp hbases
    obtain ⟨htable, hquotes⟩ := List.forall_mem_append.mp hquotes
    obtain ⟨slot, hslot, hself⟩ := Option.bind_eq_some_iff.mp hentry
    have hlisted : ∀ rate ∈ entry.2, Entries.has (Text.upperString rate.1) slot.rates = true := by
      intro rate hrate
      have hheld := htable _ (List.mem_map_of_mem hrate)
      rwa [held?, hslot] at hheld
    have hsame : mergeTable now (slots, added) entry = (slots, added) := by
      simp only [mergeTable, hslot, Option.getD_some]
      rw [foldl_addRate_of_has hlisted, withIdentity, Entries.put_of_get? hself,
        Entries.put_of_get? hslot]
    rw [List.foldl_cons, hsame, ih hbases hquotes]

theorem merge_merge (c : RateCache) (h : (Write.merge book now).IsTidy) (later : Moment) :
    ((c.merge book now).2.merge book later).1 = 0 ∧
      ((c.merge book now).2.merge book later).2.slots = (c.merge book now).2.slots := by
  have hquotes : ∀ quote ∈ quotes book,
      (held? (c.merge book now).2.slots quote.1.1 quote.1.2).isSome = true := by
    rintro ⟨⟨base, code⟩, rate⟩ hquote
    by_cases hself : base = code → base ∉ basesOf book
    · rw [held?_merge c h hself, (quoted_iff h).mpr hquote]
      simp
    · -- The identity is there whatever the book says of it.
      obtain ⟨rfl, hbase⟩ : base = code ∧ base ∈ basesOf book := by simpa using hself
      rw [held?_merge_self c h hbase]
      rfl
  have hsame : book.foldl (mergeTable later) ((c.merge book now).2.slots, 0) =
      ((c.merge book now).2.slots, 0) :=
    foldl_mergeTable_of_held (fun _ => held?_merge_self c h) hquotes
  have hmerge : (c.merge book now).2.merge book later =
      ((book.foldl (mergeTable later) ((c.merge book now).2.slots, 0)).2,
        { (c.merge book now).2 with
          slots := (book.foldl (mergeTable later) ((c.merge book now).2.slots, 0)).1
          merges := (c.merge book now).2.merges + 1 }) := rfl
  rw [hmerge, hsame]
  exact ⟨rfl, rfl⟩

/-! ## Merging two books -/

/-- Books without a common pair do not get in each other's way. -/
theorem sameTables_merge (c : RateCache) (hbook : (Write.merge book now).IsTidy)
    (hother : (Write.merge other now).IsTidy) (hdisjoint : Disjoint (pairs book) (pairs other)) :
    SameTables ((c.merge book now).2.merge other now).2
      ((c.merge other now).2.merge book now).2 where
  rates base code := by
    by_cases hcode : base = code
    · subst hcode
      simp only [held?_merge_base _ hbook, held?_merge_base _ hother]
      split_ifs <;> rfl
    · have hnot : ∀ book : List (String × RateTable), base = code → base ∉ basesOf book :=
        fun _ heq => absurd heq hcode
      rw [held?_merge _ hother (hnot other), held?_merge _ hbook (hnot book),
        held?_merge _ hbook (hnot book), held?_merge _ hother (hnot other), Option.or_assoc,
        Option.or_assoc]
      cases hfirst : (tableOf? base book).bind (listed? code) with
      | none => simp
      | some rate =>
        cases hsecond : (tableOf? base other).bind (listed? code) with
        | none => simp
        | some rate' =>
          -- Here the order would matter, but then the books have this pair in common.
          have hleft := mem_pairs.mpr ⟨rate, (quoted_iff hbook).mp hfirst⟩
          have hright := mem_pairs.mpr ⟨rate', (quoted_iff hother).mp hsecond⟩
          exact absurd hright (Finset.disjoint_left.mp hdisjoint hleft)
  times base := by
    simp only [fetched?_merge, Option.or_assoc]
    split_ifs <;> rfl

/-! ## All that a merge does -/

/-- What a merge makes of a cache. -/
structure FillsGaps (c : RateCache) (book : List (String × RateTable)) (now : Moment) : Prop where
  /-- The pairs of the book that had no rate are counted. -/
  added : (c.merge book now).1 =
    ((pairs book).filter fun pair => held? c.slots pair.1 pair.2 = none).card
  /-- A rate that was there stays, except that of a base of the book to itself. -/
  kept : ∀ base code rate, held? c.slots base code = some rate →
    (base = code → base ∉ basesOf book) →
    held? (c.merge book now).2.slots base code = some rate
  /-- A base of the book buys itself at one. -/
  identity : ∀ base ∈ basesOf book,
    held? (c.merge book now).2.slots base base = some RateTable.identityRate
  /-- Where there was no other rate, there is that of the book, and none if it has none. -/
  filled : ∀ base code rate, held? c.slots base code = none →
    (base = code → base ∉ basesOf book) →
    (held? (c.merge book now).2.slots base code = some rate ↔ ((base, code), rate) ∈ quotes book)
  /-- A table that was there keeps its time, one of a new base of the book has the given one, and
      there are no others. -/
  times : ∀ base, fetched? (c.merge book now).2.slots base =
    (fetched? c.slots base).or (if base ∈ basesOf book then some now else none)
  lastUpdated : (c.merge book now).2.lastUpdated = c.lastUpdated
  /-- The same book, at whatever time it is merged again, adds nothing. -/
  again : ∀ later, ((c.merge book now).2.merge book later).1 = 0 ∧
    ((c.merge book now).2.merge book later).2.slots = (c.merge book now).2.slots

/-- **A merge fills gaps**: it counts and adds what is missing and keeps what is there; and two
    books without a common pair of currencies leave the same tables in either order. -/
theorem fillsGaps (c : RateCache) (book : List (String × RateTable)) (now : Moment)
    (hbook : (Write.merge book now).IsTidy) :
    FillsGaps c book now ∧
      ∀ other, (Write.merge other now).IsTidy → Disjoint (pairs book) (pairs other) →
        SameTables ((c.merge book now).2.merge other now).2
          ((c.merge other now).2.merge book now).2 := by
  refine ⟨⟨merge_fst c hbook, ?_, fun _ => held?_merge_self c hbook, ?_, fetched?_merge c book now,
    rfl, merge_merge c hbook⟩, fun _ => sameTables_merge c hbook⟩
  · intro base code rate hheld hcode
    rw [held?_merge c hbook hcode, hheld, Option.some_or]
  · intro base code rate hheld hcode
    rw [held?_merge c hbook hcode, hheld, Option.none_or]
    exact quoted_iff hbook

/-- One of three rates is missing. The one that is there stays, and so does the identity that the
    book gets wrong; a table of no rates counts as fetched, and a book about its base alone can come
    before or after. -/
theorem fillsGaps_usd :
    let c := run [.seed "USD" [("EUR", RateTable.withPlaces 92 2)] .earliest]
    let book := [
      ("usd", [("eur", RateTable.withPlaces 93 2), ("GBP", RateTable.withPlaces 79 2),
        ("USD", RateTable.withPlaces 2 0)]),
      ("JPY", [])]
    let other := [("jpy", [("USD", RateTable.withPlaces 68 4)])]
    let after := (c.merge book .earliest).2
    (Write.merge book .earliest).IsTidy ∧ FillsGaps c book .earliest ∧
      (c.merge book .earliest).1 = 1 ∧
      held? after.slots "USD" "EUR" = some (RateTable.withPlaces 92 2) ∧
      held? after.slots "USD" "USD" = some RateTable.identityRate ∧
      SameTables (after.merge other .earliest).2
        ((c.merge other .earliest).2.merge book .earliest).2 := by
  intro c book other after
  have hbook : (Write.merge book .earliest).IsTidy := by decide +kernel
  have hother : (Write.merge other .earliest).IsTidy := by decide +kernel
  obtain ⟨hfills, hsame⟩ := fillsGaps c book .earliest hbook
  refine ⟨hbook, hfills, ?_, hfills.kept _ _ _ ?_ ?_, hfills.identity _ ?_, hsame other hother ?_⟩
  · rw [hfills.added]
    decide +kernel
  all_goals decide +kernel

end Cambio.RateCache
