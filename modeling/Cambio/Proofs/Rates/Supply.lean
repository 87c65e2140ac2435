import Cambio.Proofs.Entries
import Cambio.Rates.Cache
import Mathlib.Data.List.Induction

/-!
# Where cached rates come from

Three kinds of calls write to the cache, with different precedence: a seed replaces a table, a
refresh replaces it too but keeps what a short answer does not mention, and a merge fills gaps only.
Every cached rate is read off the calls that came before, without a look at the cache.

## Main definitions

- `RateCache.Write`, `RateCache.run` — the calls that write, and the cache after some of them
- `RateCache.basesOf` — the base currencies of a book
- `RateCache.since` — the calls from the last one that replaced a table on
- `RateCache.supplied?` — the rate that a history of calls supplies
- `RateCache.ReadsOff` — a cache of which every rate is read off its history

## Main statements

- `RateCache.Supplied.write`, `RateCache.supplied_run` — what one more call supplies, and a whole
  history
- `RateCache.readsOff_run` — the cache after any history
-/

namespace Cambio.RateCache

/-! ## Histories -/

/-- A call that writes to the cache, with the time at which its tables count as fetched. -/
inductive Write where
  | seed (base : String) (table : List (String × Decimal)) (now : Moment)
  | refresh (base : String) (table : List (String × Decimal)) (minEntries : Int) (now : Moment)
  | merge (book : List (String × RateTable)) (now : Moment)

/-- The cache after a call. -/
def write (c : RateCache) : Write → RateCache
  | .seed base table now => c.seed base table now
  | .refresh base table minEntries now => c.refresh base table minEntries now
  | .merge book now => (c.merge book now).2

/-- The cache after some calls, from one without tables on. -/
def run (ws : List Write) : RateCache :=
  ws.foldl write empty

/-- The rate that a table lists under a code, which is compared in capital letters. -/
def listed? (code : String) (table : List (String × Decimal)) : Option Decimal :=
  (table.find? fun entry => Text.upperString entry.1 = code).map Prod.snd

/-- The table that a book has for a base currency. -/
def tableOf? (base : String) (book : List (String × RateTable)) : Option RateTable :=
  (book.find? fun entry => Text.upperString entry.1 = base).map Prod.snd

/-- The base currencies of a book, those with empty tables too. -/
def basesOf (book : List (String × RateTable)) : List String :=
  book.map fun entry => Text.upperString entry.1

namespace Write

/-- A call is about a base currency. -/
def concerns (base : String) : Write → Bool
  | .seed b _ _ | .refresh b _ _ _ => Text.upperString b = base
  | .merge book _ => (tableOf? base book).isSome

/-- The rate that a seed or a refresh brings. -/
def stored? (base code : String) : Write → Option Decimal
  | .seed b table _ | .refresh b table _ _ =>
    if Text.upperString b = base then listed? code table else none
  | .merge _ _ => none

/-- The rate that a merge brings. -/
def merged? (base code : String) : Write → Option Decimal
  | .merge book _ => (tableOf? base book).bind (listed? code)
  | _ => none

/-- A call replaces the table of a base currency as a whole: a seed does, and a refresh that finds
    no table or brings enough rates. Calls that came before are listed with the latest first. -/
def replaces (base : String) (earlier : List Write) : Write → Bool
  | .seed b _ _ => Text.upperString b = base
  | .refresh b table minEntries _ =>
    Text.upperString b = base && (!earlier.any (concerns base) || minEntries ≤ table.length)
  | .merge _ _ => false

/-- No two codes of a table and no two bases of a book are the same in capital letters. -/
def IsTidy : Write → Prop
  | .seed _ table _ => (table.map fun entry => Text.upperString entry.1).Nodup
  | .refresh _ table _ _ => (table.map fun entry => Text.upperString entry.1).Nodup
  | .merge book _ =>
    (book.map fun entry => Text.upperString entry.1).Nodup ∧
      ∀ entry ∈ book, (entry.2.map fun rate => Text.upperString rate.1).Nodup

instance : DecidablePred IsTidy
  | .seed _ _ _ => List.nodupDecidable _
  | .refresh _ _ _ _ => List.nodupDecidable _
  | .merge _ _ => instDecidableAnd

end Write

/-- The calls of a history from the last one on that replaced the table of a base currency, or all
    of them if none did. The latest call comes first, here and in what is left. -/
def since (base : String) : List Write → List Write
  | [] => []
  | w :: earlier => if w.replaces base earlier then [w] else w :: since base earlier

/-- The rate that a history supplies, the latest call first: the latest one that a seed or a refresh
    brought since the table was replaced, and if there is none the first one that a merge
    brought. -/
def supplied? (base code : String) (history : List Write) : Option Decimal :=
  ((since base history).findSome? (Write.stored? base code)).or
    ((since base history).reverse.findSome? (Write.merged? base code))

/-! ## Listed rates -/

variable {base code : String} {table : List (String × Decimal)}

theorem listed?_cons (entry : String × Decimal) :
    listed? code (entry :: table) =
      if Text.upperString entry.1 = code then some entry.2 else listed? code table := by
  by_cases h : Text.upperString entry.1 = code <;> simp [listed?, h]

theorem tableOf?_cons (entry : String × RateTable) (book : List (String × RateTable)) :
    tableOf? base (entry :: book) =
      if Text.upperString entry.1 = base then some entry.2 else tableOf? base book := by
  by_cases h : Text.upperString entry.1 = base <;> simp [tableOf?, h]

theorem isSome_tableOf?_iff {book : List (String × RateTable)} :
    (tableOf? base book).isSome = true ↔ base ∈ basesOf book := by
  simp [tableOf?, basesOf]

/-- A book lists no base currency that none of its entries names. -/
theorem tableOf?_eq_none {book : List (String × RateTable)} (h : base ∉ basesOf book) :
    tableOf? base book = none :=
  Option.not_isSome_iff_eq_none.mp (mt isSome_tableOf?_iff.mp h)

/-- Codes that are all different stay as they are listed. -/
theorem capitalized_of_nodup (h : (table.map fun entry => Text.upperString entry.1).Nodup) :
    RateTable.capitalized table = table.map fun entry => (Text.upperString entry.1, entry.2) := by
  refine Entries.ofPairs_of_nodup ?_
  rwa [Entries.names, List.map_map]

theorem get?_capitalized (h : (table.map fun entry => Text.upperString entry.1).Nodup)
    (code : String) : Entries.get? code (RateTable.capitalized table) = listed? code table := by
  rw [capitalized_of_nodup h]
  clear h
  induction table with
  | nil => rfl
  | cons entry table ih =>
    rw [listed?_cons, List.map_cons, Entries.get?, ih]

theorem get?_withIdentity (hcode : code ≠ base) (rates : RateTable) :
    Entries.get? code (withIdentity base rates) = Entries.get? code rates := by
  rw [withIdentity, Entries.get?_put, if_neg (Ne.symm hcode)]

theorem get?_withIdentity_self (base : String) (rates : RateTable) :
    Entries.get? base (withIdentity base rates) = some RateTable.identityRate := by
  rw [withIdentity, Entries.get?_put, if_pos rfl]

/-! ## Merging -/

theorem get?_foldl_addRate (code : String) (state : RateTable × Nat) (table : RateTable) :
    Entries.get? code (table.foldl addRate state).1 =
      (Entries.get? code state.1).or (listed? code table) := by
  induction table generalizing state with
  | nil => simp [listed?]
  | cons entry table ih =>
    obtain ⟨rates, added⟩ := state
    rw [List.foldl_cons, ih, listed?_cons]
    cases hget : Entries.get? (Text.upperString entry.1) rates with
    | some rate =>
      by_cases hcode : Text.upperString entry.1 = code
      · subst hcode
        simp [addRate, Entries.has, hget]
      · simp [addRate, Entries.has, hget, hcode]
    | none =>
      by_cases hcode : Text.upperString entry.1 = code
      · subst hcode
        simp [addRate, Entries.has, hget, Entries.get?_append, Entries.get?]
      · simp [addRate, Entries.has, hget, Entries.get?_append, Entries.get?, hcode]

/-- The slot of a base currency after a merged table. -/
def filled (now : Moment) (base : String) (slot : Option Slot) (table : RateTable) : Slot :=
  let before := slot.getD ⟨[], now⟩
  { before with rates := withIdentity base (table.foldl addRate (before.rates, 0)).1 }

/-- How many rates were added before does not matter to the rates. -/
theorem foldl_addRate_fst (rates : RateTable) (m n : Nat) (table : RateTable) :
    (table.foldl addRate (rates, m)).1 = (table.foldl addRate (rates, n)).1 := by
  induction table generalizing rates m n with
  | nil => rfl
  | cons entry table ih =>
    rw [List.foldl_cons, List.foldl_cons]
    by_cases h : Entries.has (Text.upperString entry.1) rates = true
    · simp only [addRate, h, if_true]
      exact ih _ _ _
    · simp only [addRate, h]
      exact ih _ _ _

theorem get?_mergeTable (now : Moment) (state : Entries Slot × Nat) (entry : String × RateTable) :
    Entries.get? base (mergeTable now state entry).1 =
      if Text.upperString entry.1 = base then
        some (filled now base (Entries.get? base state.1) entry.2)
      else Entries.get? base state.1 := by
  obtain ⟨slots, added⟩ := state
  simp only [mergeTable, Entries.get?_put]
  split
  · next h =>
    subst h
    simp only [filled, foldl_addRate_fst _ added 0]
  · rfl

/-- A merge without a table for a base currency leaves its slot as it was. -/
theorem get?_foldl_mergeTable_of_none (now : Moment) (state : Entries Slot × Nat)
    {book : List (String × RateTable)} (h : tableOf? base book = none) :
    Entries.get? base (book.foldl (mergeTable now) state).1 = Entries.get? base state.1 := by
  induction book generalizing state with
  | nil => rfl
  | cons entry book ih =>
    rw [tableOf?_cons] at h
    split at h
    · cases h
    · next hbase => rw [List.foldl_cons, ih _ h, get?_mergeTable, if_neg hbase]

/-- A merge changes the slot of a base currency by the table that its book has for it. -/
theorem get?_foldl_mergeTable (now : Moment) (state : Entries Slot × Nat)
    {book : List (String × RateTable)}
    (h : (book.map fun entry => Text.upperString entry.1).Nodup) :
    Entries.get? base (book.foldl (mergeTable now) state).1 =
      match tableOf? base book with
      | some table => some (filled now base (Entries.get? base state.1) table)
      | none => Entries.get? base state.1 := by
  induction book generalizing state with
  | nil => rfl
  | cons entry book ih =>
    rw [List.map_cons, List.nodup_cons] at h
    rw [List.foldl_cons, tableOf?_cons]
    by_cases hbase : Text.upperString entry.1 = base
    · subst hbase
      rw [get?_foldl_mergeTable_of_none now _ (tableOf?_eq_none h.1), get?_mergeTable, if_pos rfl,
        if_pos rfl]
    · rw [ih _ h.2, get?_mergeTable, if_neg hbase, if_neg hbase]

/-! ## One more call -/

section Supplied

variable {w : Write} {history : List Write}

theorem supplied?_of_replaces (h : w.replaces base history = true) :
    supplied? base code (w :: history) = (w.stored? base code).or (w.merged? base code) := by
  simp only [supplied?, since, h, if_true, List.reverse_singleton, List.findSome?_singleton]

theorem supplied?_of_stored (h : w.replaces base history = false)
    (hmerged : w.merged? base code = none) :
    supplied? base code (w :: history) = (w.stored? base code).or (supplied? base code history) := by
  simp only [supplied?, since, h, Bool.false_eq_true, if_false, List.reverse_cons,
    List.findSome?_append, List.findSome?_singleton, hmerged, Option.or_none]
  rw [← Option.or_assoc]
  congr 1
  cases hstored : w.stored? base code <;> simp [hstored]

theorem supplied?_of_merged (h : w.replaces base history = false)
    (hstored : w.stored? base code = none) :
    supplied? base code (w :: history) = (supplied? base code history).or (w.merged? base code) := by
  simp only [supplied?, since, h, Bool.false_eq_true, if_false, List.reverse_cons,
    List.findSome?_append, List.findSome?_singleton, Option.or_assoc]
  congr 1
  simp [hstored]

/-- The slots of a cache hold what a history supplies, the latest call first. -/
structure Supplied (history : List Write) (c : RateCache) : Prop where
  known : ∀ base, (c.slots.get? base).isSome = history.any (Write.concerns base)
  identity : ∀ base slot, c.slots.get? base = some slot →
    Entries.get? base slot.rates = some RateTable.identityRate
  rates : ∀ base code, code ≠ base →
    ((c.slots.get? base).bind fun slot => Entries.get? code slot.rates) =
      supplied? base code history

namespace Supplied

variable {c : RateCache}

theorem empty : Supplied [] empty where
  known _ := rfl
  identity _ _ h := by cases h
  rates _ _ _ := rfl

/-- A call that is about one base currency puts a slot for it; what it has to put there. -/
theorem put (h : Supplied history c) {d : RateCache} {slot : Slot}
    (hslots : d.slots = c.slots.put base slot)
    (hconcerns : ∀ b, w.concerns b = decide (base = b))
    (hidentity : Entries.get? base slot.rates = some RateTable.identityRate)
    (hrates : ∀ code, code ≠ base →
      Entries.get? code slot.rates = supplied? base code (w :: history))
    (hother : ∀ b, base ≠ b → ∀ code,
      supplied? b code (w :: history) = supplied? b code history) :
    Supplied (w :: history) d := by
  refine ⟨fun b => ?_, fun b other hget => ?_, fun b code hcode => ?_⟩
  · rw [hslots, Entries.get?_put, List.any_cons, hconcerns, ← h.known b]
    by_cases hb : base = b <;> simp [hb]
  · rw [hslots, Entries.get?_put] at hget
    split at hget
    · next hb =>
      cases hget
      rw [← hb]
      exact hidentity
    · exact h.identity b other hget
  · rw [hslots, Entries.get?_put]
    by_cases hb : base = b
    · subst hb
      rw [if_pos rfl]
      exact hrates code hcode
    · rw [if_neg hb, h.rates b code hcode, hother b hb]

theorem seed (h : Supplied history c) (b : String) (now : Moment)
    (htable : (table.map fun entry => Text.upperString entry.1).Nodup) :
    Supplied (.seed b table now :: history) (c.seed b table now) := by
  refine h.put rfl (fun _ => rfl) (get?_withIdentity_self _ _) ?_ ?_
  · intro code hcode
    have hreplaces : (Write.seed b table now).replaces (Text.upperString b) history = true := by
      simp [Write.replaces]
    rw [get?_withIdentity hcode, get?_capitalized htable, supplied?_of_replaces hreplaces]
    simp [Write.stored?, Write.merged?]
  · intro other hother code
    rw [supplied?_of_stored (by simpa [Write.replaces] using hother) rfl]
    simp [Write.stored?, hother]

/-- The rates that a refresh leaves are those it brought, and if they are few also the ones that it
    does not mention. -/
theorem get?_missing_append (previous : RateTable)
    (htable : (table.map fun entry => Text.upperString entry.1).Nodup) (code : String) :
    Entries.get? code
        (missing previous (RateTable.capitalized table) ++ RateTable.capitalized table) =
      (listed? code table).or (Entries.get? code previous) := by
  rw [Entries.get?_append, missing,
    Entries.get?_filter code (fun n => !Entries.has n (RateTable.capitalized table)), Entries.has,
    get?_capitalized htable]
  cases listed? code table <;> simp

/-- A cached table is never without rates, since it has its own base. -/
theorem rates_ne_nil (h : Supplied history c) {slot : Slot} (hslot : c.slots.get? base = some slot) :
    slot.rates ≠ [] := by
  intro hnil
  have hidentity := h.identity base slot hslot
  rw [hnil] at hidentity
  cases hidentity

theorem refresh (h : Supplied history c) (b : String) (minEntries : Int) (now : Moment)
    (htable : (table.map fun entry => Text.upperString entry.1).Nodup) :
    Supplied (.refresh b table minEntries now :: history) (c.refresh b table minEntries now) := by
  refine h.put rfl (fun _ => rfl) (get?_withIdentity_self _ _) ?_ ?_
  · intro code hcode
    have hlength : (RateTable.capitalized table).length = table.length := by
      rw [capitalized_of_nodup htable, List.length_map]
    have hknown := h.known (Text.upperString b)
    have hcached := h.rates (Text.upperString b) code hcode
    rw [get?_withIdentity hcode, hlength]
    by_cases hreplaces :
        (Write.refresh b table minEntries now).replaces (Text.upperString b) history = true
    · -- nothing is kept: there was no table, or the new one is long enough
      rw [supplied?_of_replaces hreplaces, if_neg, get?_capitalized htable]
      · simp [Write.stored?, Write.merged?]
      · rcases Bool.or_eq_true_iff.mp (Bool.and_eq_true_iff.mp hreplaces).2 with hnew | hmany
        · rw [← hknown, Bool.not_eq_true', Option.isSome_eq_false_iff, Option.isNone_iff_eq_none]
            at hnew
          simp [hnew]
        · simp only [decide_eq_true_eq] at hmany
          simp only [Bool.and_eq_true, decide_eq_true_eq, not_and]
          omega
    · -- the answer is short, and what it does not mention is kept
      rw [Bool.not_eq_true] at hreplaces
      obtain ⟨hsome, hfew⟩ : history.any (Write.concerns (Text.upperString b)) = true ∧
          (table.length : Int) < minEntries := by
        simpa [Write.replaces] using hreplaces
      rw [← hknown] at hsome
      obtain ⟨slot, hslot⟩ := Option.isSome_iff_exists.mp hsome
      rw [hslot, Option.bind_some] at hcached
      rw [supplied?_of_stored hreplaces rfl, ← hcached, if_pos, hslot]
      · simp only [Option.map_some, Option.getD_some, Write.stored?, if_true]
        exact get?_missing_append slot.rates htable code
      · simpa [hslot, hfew] using h.rates_ne_nil hslot
  · intro other hother code
    rw [supplied?_of_stored (by simp [Write.replaces, hother]) rfl]
    simp [Write.stored?, hother]

theorem merge (h : Supplied history c) {book : List (String × RateTable)} (now : Moment)
    (hbook : (book.map fun entry => Text.upperString entry.1).Nodup) :
    Supplied (.merge book now :: history) (c.merge book now).2 := by
  have hslot (b : String) : (c.merge book now).2.slots.get? b =
      match tableOf? b book with
      | some table => some (filled now b (c.slots.get? b) table)
      | none => c.slots.get? b :=
    get?_foldl_mergeTable now (c.slots, 0) hbook
  refine ⟨fun b => ?_, fun b slot hget => ?_, fun b code hcode => ?_⟩
  · rw [hslot, List.any_cons, ← h.known b, Write.concerns]
    cases tableOf? b book <;> simp
  · rw [hslot] at hget
    split at hget
    · cases hget
      exact get?_withIdentity_self _ _
    · exact h.identity b slot hget
  · rw [hslot, supplied?_of_merged rfl rfl, ← h.rates b code hcode, Write.merged?]
    cases tableOf? b book with
    | none => simp
    | some table =>
      simp only [Option.bind_some, filled]
      rw [get?_withIdentity hcode, get?_foldl_addRate]
      cases c.slots.get? b <;> rfl

/-- What a cache holds after one more call is what that call and those before it supply. -/
theorem write (h : Supplied history c) (hw : w.IsTidy) : Supplied (w :: history) (c.write w) := by
  cases w with
  | seed b table now => exact h.seed b now hw
  | refresh b table minEntries now => exact h.refresh b minEntries now hw
  | merge book now => exact h.merge now hw.1

end Supplied

end Supplied

/-- A cache holds what its history supplies. -/
theorem supplied_run {ws : List Write} (h : ∀ w ∈ ws, w.IsTidy) :
    Supplied ws.reverse (run ws) := by
  induction ws using List.reverseRecOn with
  | nil => exact Supplied.empty
  | append_singleton ws w ih =>
    rw [run, List.foldl_append, ← run, List.reverse_append]
    exact (ih fun x hx => h x (List.mem_append_left _ hx)).write
      (h w (List.mem_append_right _ List.mem_cons_self))

/-! ## The cached rates -/

/-- A call that is not about a base currency leaves its slot as it was. -/
theorem slot?_write (c : RateCache) (w : Write) {base : String}
    (h : w.concerns (Text.upperString base) = false) : (c.write w).slot? base = c.slot? base := by
  cases w with
  | seed b table now =>
    have hb : ¬ Text.upperString b = Text.upperString base := by simpa [Write.concerns] using h
    exact (Entries.get?_put _).trans (if_neg hb)
  | refresh b table minEntries now =>
    have hb : ¬ Text.upperString b = Text.upperString base := by simpa [Write.concerns] using h
    exact (Entries.get?_put _).trans (if_neg hb)
  | merge book now =>
    exact get?_foldl_mergeTable_of_none now _ (by simpa [Write.concerns] using h)

/-- What a history of calls, in their order, makes of a cache. -/
structure ReadsOff (ws : List Write) (c : RateCache) : Prop where
  /-- A base currency has a table once a call was about it. -/
  known : ∀ base, c.hasTable base = ws.any (Write.concerns (Text.upperString base))
  /-- Every rate but those of a currency to itself is supplied by the history. -/
  supplied : ∀ base target, Text.upperString target ≠ Text.upperString base →
    c.rate? base target = supplied? (Text.upperString base) (Text.upperString target) ws.reverse
  /-- A currency buys itself at one. -/
  identity : ∀ base, c.hasTable base = true → c.rate? base base = some RateTable.identityRate
  /-- One more call about other base currencies changes neither the table nor its time. -/
  others : ∀ w base, Write.concerns (Text.upperString base) w = false →
    (c.write w).slot? base = c.slot? base

/-- **Where cached rates come from**: after any calls every cached rate is read off them. -/
theorem readsOff_run (ws : List Write) (h : ∀ w ∈ ws, w.IsTidy) : ReadsOff ws (run ws) where
  known base := by
    rw [hasTable, slot?, (supplied_run h).known, List.any_reverse]
  supplied base target hne := (supplied_run h).rates _ _ hne
  identity base htable := by
    obtain ⟨slot, hslot⟩ := Option.isSome_iff_exists.mp htable
    rw [rate?, hslot, Option.bind_some]
    exact (supplied_run h).identity _ _ hslot
  others w base := slot?_write (run ws) w

/-- A short refresh brings one rate anew, keeps one of the seed and keeps one of a merge, which
    itself did not touch the rate of the seed. -/
theorem readsOff_run_short :
    let ws : List Write := [
      .seed "usd" [("eur", RateTable.withPlaces 92 2), ("GBP", RateTable.withPlaces 79 2)] .earliest,
      .merge [("USD", [("Gbp", RateTable.withPlaces 80 2), ("JPY", RateTable.withPlaces 145 0)])]
        .earliest,
      .refresh "USD" [("EUR", RateTable.withPlaces 93 2)] 5 .earliest]
    (∀ w ∈ ws, w.IsTidy) ∧ ReadsOff ws (run ws) ∧
      (run ws).rate? "USD" "EUR" = some (RateTable.withPlaces 93 2) ∧
      (run ws).rate? "USD" "GBP" = some (RateTable.withPlaces 79 2) ∧
      (run ws).rate? "USD" "JPY" = some (RateTable.withPlaces 145 0) := by
  intro ws
  have htidy : ∀ w ∈ ws, w.IsTidy := by decide +kernel
  have hread : ReadsOff ws (run ws) := readsOff_run ws htidy
  refine ⟨htidy, hread, ?_, ?_, ?_⟩
  · rw [hread.supplied _ _ (by decide +kernel)]
    decide +kernel
  · rw [hread.supplied _ _ (by decide +kernel)]
    decide +kernel
  · rw [hread.supplied _ _ (by decide +kernel)]
    decide +kernel

end Cambio.RateCache
