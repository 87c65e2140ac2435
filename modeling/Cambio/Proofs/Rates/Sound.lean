import Cambio.Proofs.Conversion.Status
import Cambio.Proofs.Json.Numbers
import Cambio.Proofs.Rates.Document
import Cambio.Proofs.Rates.Loading
import Cambio.Proofs.Text.Upper

/-!
# Sound tables

A table is sound if its codes are in capital letters and all different and each of its rates is a
finite decimal above zero. The rate service and the rate file bring sound tables only, and a refresh
and a merge keep every table of the cache sound. So a book that is written to the rate file is read
back, unless one of its codes keeps both halves of a pair.

## Main definitions

- `Entries.HasCodes` — different names in capital letters
- `RateTable.Holds`, `RateCache.Holds` — rates of some kind under sound codes
- `RateTable.IsSound`, `RateBook.IsSound`, `RateCache.IsSound` — all rates and codes are sound

## Main statements

- `Client.isSound_of_rates`, `RateFile.isSound_of_load` — what is brought
- `RateCache.Holds.write`, `RateCache.IsSound.write` — what the calls that write keep
- `RateBook.IsSound.ofBook` — what makes a document
- `RateBook.IsSound.isTidy` — what is read back from the rate file
-/

namespace Cambio

/-! ## Codes -/

/-- Different names in capital letters. -/
structure Entries.HasCodes {α : Type} (es : Entries α) : Prop where
  names : (names es).Nodup
  capitals : ∀ entry ∈ es, Text.upperString entry.1 = entry.1

instance {α : Type} (es : Entries α) : Decidable es.HasCodes :=
  decidable_of_iff ((Entries.names es).Nodup ∧ ∀ entry ∈ es, Text.upperString entry.1 = entry.1)
    ⟨fun h => ⟨h.1, h.2⟩, fun h => ⟨h.names, h.capitals⟩⟩

namespace Entries.HasCodes

variable {α β : Type} {es fs : Entries α} {name : String}

theorem nil : HasCodes ([] : Entries α) :=
  ⟨List.nodup_nil, nofun⟩

theorem put (h : es.HasCodes) (hname : Text.upperString name = name) (value : α) :
    HasCodes (Entries.put name value es) := by
  refine ⟨nodup_names_put h.names name value, fun entry hentry => ?_⟩
  rcases mem_of_mem_put hentry with rfl | hbefore
  · exact hname
  · exact h.capitals entry hbefore

theorem map (h : es.HasCodes) (f : α → β) :
    HasCodes (α := β) (es.map fun entry => (entry.1, f entry.2)) := by
  constructor
  · rw [Entries.names, List.map_map]
    exact h.names
  · intro entry hentry
    obtain ⟨before, hbefore, rfl⟩ := List.mem_map.mp hentry
    exact h.capitals before hbefore

theorem append (h : es.HasCodes) (hf : fs.HasCodes)
    (hnew : ∀ entry ∈ es, entry.1 ∉ Entries.names fs) : HasCodes (α := α) (es ++ fs) := by
  constructor
  · rw [Entries.names, List.map_append]
    refine List.nodup_append.mpr ⟨h.names, hf.names, ?_⟩
    rintro name hname other hother rfl
    obtain ⟨entry, hentry, rfl⟩ := List.mem_map.mp hname
    exact hnew entry hentry hother
  · intro entry hentry
    rcases List.mem_append.mp hentry with hfirst | hsecond
    · exact h.capitals entry hfirst
    · exact hf.capitals entry hsecond

theorem filter (h : es.HasCodes) (p : String × α → Bool) : HasCodes (α := α) (es.filter p) :=
  ⟨h.names.sublist (List.filter_sublist.map _),
    fun entry hentry => h.capitals entry (List.mem_of_mem_filter hentry)⟩

end Entries.HasCodes

theorem Entries.hasCodes_ofPairs {α β : Type} (pairs : List (String × α)) (f : α → β) :
    HasCodes (ofPairs (pairs.map fun entry => (Text.upperString entry.1, f entry.2))) := by
  refine ⟨nodup_names_ofPairs _, fun entry hentry => ?_⟩
  obtain ⟨before, -, rfl⟩ := List.mem_map.mp (mem_of_mem_ofPairs hentry)
  exact Text.upperString_upperString before.1

/-! ## Tables, books and caches -/

/-- Rates of a kind under different codes in capital letters. -/
structure RateTable.Holds (p : Decimal → Prop) (table : RateTable) : Prop where
  codes : Entries.HasCodes table
  rates : ∀ entry ∈ table, p entry.2

/-- Tables with rates of a kind in the slots of different bases in capital letters. -/
structure RateCache.Holds (p : Decimal → Prop) (c : RateCache) : Prop where
  bases : Entries.HasCodes c.slots
  tables : ∀ entry ∈ c.slots, RateTable.Holds p entry.2.rates

/-- A decimal above zero, so one that is finite, and with a power of ten in range. -/
structure Decimal.IsRate (d : Decimal) : Prop where
  positive : d.isPositive = true
  held : d.IsHeld

instance : DecidablePred Decimal.IsRate :=
  fun d => decidable_of_iff (d.isPositive = true ∧ d.IsHeld)
    ⟨fun h => ⟨h.1, h.2⟩, fun h => ⟨h.positive, h.held⟩⟩

/-- Sound rates under different codes in capital letters. -/
structure RateTable.IsSound (table : RateTable) : Prop where
  codes : Entries.HasCodes table
  rates : ∀ entry ∈ table, entry.2.IsRate

instance (table : RateTable) : Decidable table.IsSound :=
  decidable_of_iff (Entries.HasCodes table ∧ ∀ entry ∈ table, Decimal.IsRate entry.2)
    ⟨fun h => ⟨h.1, h.2⟩, fun h => ⟨h.codes, h.rates⟩⟩

/-- Sound tables under different bases in capital letters. -/
structure RateBook.IsSound (book : RateBook) : Prop where
  bases : Entries.HasCodes book
  tables : ∀ entry ∈ book, RateTable.IsSound entry.2

/-- Sound tables in the slots of different bases in capital letters. -/
structure RateCache.IsSound (c : RateCache) : Prop where
  bases : Entries.HasCodes c.slots
  tables : ∀ entry ∈ c.slots, RateTable.IsSound entry.2.rates

instance (c : RateCache) : Decidable c.IsSound :=
  decidable_of_iff (Entries.HasCodes c.slots ∧ ∀ entry ∈ c.slots, RateTable.IsSound entry.2.rates)
    ⟨fun h => ⟨h.1, h.2⟩, fun h => ⟨h.bases, h.tables⟩⟩

theorem RateTable.isSound_iff {table : RateTable} :
    table.IsSound ↔ RateTable.Holds Decimal.IsRate table :=
  ⟨fun h => ⟨h.codes, h.rates⟩, fun h => ⟨h.codes, h.rates⟩⟩

theorem RateCache.isSound_iff {c : RateCache} : c.IsSound ↔ c.Holds Decimal.IsRate :=
  ⟨fun h => ⟨h.bases, fun entry hentry => RateTable.isSound_iff.mp (h.tables entry hentry)⟩,
    fun h => ⟨h.bases, fun entry hentry => RateTable.isSound_iff.mpr (h.tables entry hentry)⟩⟩

/-- No code and no base of a book keeps the halves of a pair side by side. -/
def RateBook.IsJoined (book : RateBook) : Prop :=
  ∀ entry ∈ book, Json.IsJoined entry.1.toList ∧ ∀ rate ∈ entry.2, Json.IsJoined rate.1.toList

instance (book : RateBook) : Decidable book.IsJoined :=
  inferInstanceAs (Decidable (∀ entry ∈ book, Json.IsJoined entry.1.toList ∧
    ∀ rate ∈ entry.2, Json.IsJoined rate.1.toList))

/-- A sound book is read back from the rate file if its codes are. -/
theorem RateBook.IsSound.isTidy {book : RateBook} (h : book.IsSound) (hjoined : book.IsJoined) :
    book.IsTidy where
  names := h.bases.names
  capitals := h.bases.capitals
  joined entry hentry := (hjoined entry hentry).1
  tables entry hentry :=
    { names := (h.tables entry hentry).codes.names
      capitals := (h.tables entry hentry).codes.capitals
      joined := (hjoined entry hentry).2
      usable := fun rate hrate => ((h.tables entry hentry).rates rate hrate).positive
      held := fun rate hrate => ((h.tables entry hentry).rates rate hrate).held }

/-- A sound book makes a document as it stands, whatever its codes are. -/
theorem RateBook.IsSound.ofBook {book : RateBook} (h : book.IsSound) (timestamp : String) :
    RateDocument.ofBook timestamp book = .ok ⟨timestamp, book⟩ := by
  have husable : ∀ entry ∈ book, RateTable.IsUsable entry.2 := fun entry hentry rate hrate =>
    ((h.tables entry hentry).rates rate hrate).positive
  have hcapitalized : RateBook.capitalized book = book :=
    RateBook.capitalized_eq_self h.bases.names h.bases.capitals fun entry hentry =>
      RateTable.capitalized_eq_self (h.tables entry hentry).codes.names
        (h.tables entry hentry).codes.capitals
  refine RateDocument.ofBook_of_checked (fun entry hentry rate hrate => ?_)
    (RateBook.checked_eq_valid_iff.mpr ⟨husable, hcapitalized.symm⟩) timestamp
  exact Decimal.isFinite_of_isPositive (husable entry hentry rate hrate)

theorem RateCache.IsSound.book {c : RateCache} (h : c.IsSound) : c.book.IsSound := by
  refine ⟨h.bases.map Slot.rates, fun entry hentry => ?_⟩
  obtain ⟨slot, hslot, rfl⟩ := List.mem_map.mp hentry
  exact h.tables slot hslot

namespace RateTable

variable {p : Decimal → Prop} {table : RateTable}

theorem holds_nil : Holds p [] :=
  ⟨.nil, nofun⟩

theorem holds_capitalized {rates : List (String × Decimal)} (h : ∀ entry ∈ rates, p entry.2) :
    Holds p (capitalized rates) := by
  refine ⟨Entries.hasCodes_ofPairs rates id, fun entry hentry => ?_⟩
  obtain ⟨before, hbefore, rfl⟩ := List.mem_map.mp (Entries.mem_of_mem_ofPairs hentry)
  exact h before hbefore

theorem isSound_capitalized {rates : List (String × Decimal)}
    (h : ∀ entry ∈ rates, entry.2.IsRate) : (capitalized rates).IsSound :=
  isSound_iff.mpr (holds_capitalized h)

theorem Holds.withIdentity (h : table.Holds p) (hone : p identityRate) {base : String}
    (hbase : Text.upperString base = base) : Holds p (RateCache.withIdentity base table) := by
  refine ⟨h.codes.put hbase identityRate, fun entry hentry => ?_⟩
  rcases Entries.mem_of_mem_put hentry with rfl | hbefore
  · exact hone
  · exact h.rates entry hbefore

/-- The rates that a fresh table does not mention, and the fresh ones. -/
theorem Holds.missing_append (h : table.Holds p) {fresh : RateTable} (hfresh : fresh.Holds p) :
    Holds p (RateCache.missing table fresh ++ fresh) := by
  refine ⟨(h.codes.filter _).append hfresh.codes fun entry hentry => ?_, fun entry hentry => ?_⟩
  · rw [← Entries.has_iff_mem_names]
    simpa using (List.mem_filter.mp hentry).2
  · rcases List.mem_append.mp hentry with hold | hnew
    · exact h.rates entry (List.mem_of_mem_filter hold)
    · exact hfresh.rates entry hnew

theorem Holds.addRate {state : RateTable × Nat} (h : state.1.Holds p) {entry : String × Decimal}
    (hentry : p entry.2) : (RateCache.addRate state entry).1.Holds p := by
  obtain ⟨rates, added⟩ := state
  rw [RateCache.addRate]
  dsimp only at h ⊢
  split
  · exact h
  · next hnew =>
    have hsingle : Entries.HasCodes [(Text.upperString entry.1, entry.2)] :=
      Entries.HasCodes.nil.put (Text.upperString_upperString entry.1) entry.2
    refine ⟨h.codes.append hsingle fun other hother => ?_, fun other hother => ?_⟩
    · intro hname
      have hcode : other.1 = Text.upperString entry.1 := List.mem_singleton.mp hname
      refine hnew (Entries.has_iff_mem_names.mpr ?_)
      rw [← hcode]
      exact List.mem_map.mpr ⟨other, hother, rfl⟩
    · rcases List.mem_append.mp hother with hbefore | hadded
      · exact h.rates other hbefore
      · rw [List.mem_singleton.mp hadded]
        exact hentry

theorem Holds.foldl_addRate {state : RateTable × Nat} (h : state.1.Holds p)
    {rates : List (String × Decimal)} (hrates : ∀ entry ∈ rates, p entry.2) :
    (rates.foldl RateCache.addRate state).1.Holds p := by
  induction rates generalizing state with
  | nil => exact h
  | cons entry rates ih =>
    obtain ⟨hentry, hrest⟩ := List.forall_mem_cons.mp hrates
    exact ih (h.addRate hentry) hrest

end RateTable

/-! ## What the calls that write keep -/

namespace RateCache

variable {p : Decimal → Prop} {c d : RateCache} {base : String} {table : List (String × Decimal)}

theorem Holds.of_slots_eq (h : c.Holds p) (hslots : d.slots = c.slots) : d.Holds p := by
  constructor
  · rw [hslots]
    exact h.bases
  · rw [hslots]
    exact h.tables

theorem Holds.put (h : c.Holds p) (hbase : Text.upperString base = base) (slot : Slot)
    (hslot : RateTable.Holds p slot.rates) (hd : d.slots = c.slots.put base slot) :
    d.Holds p := by
  constructor
  · rw [hd]
    exact h.bases.put hbase slot
  · intro entry hentry
    rw [hd] at hentry
    rcases Entries.mem_of_mem_put hentry with rfl | hbefore
    · exact hslot
    · exact h.tables entry hbefore

theorem Holds.rates (h : c.Holds p) (base : String) :
    RateTable.Holds p (((c.slots.get? base).map Slot.rates).getD []) := by
  cases hslot : c.slots.get? base with
  | none => exact RateTable.holds_nil
  | some slot => exact h.tables _ (Entries.mem_of_get? hslot)

theorem Holds.seed (h : c.Holds p) (hone : p RateTable.identityRate) (base : String)
    (htable : ∀ entry ∈ table, p entry.2) (now : Moment) : (c.seed base table now).Holds p :=
  h.put (Text.upperString_upperString base) _
    ((RateTable.holds_capitalized htable).withIdentity hone (Text.upperString_upperString base)) rfl

theorem Holds.refresh (h : c.Holds p) (hone : p RateTable.identityRate) (base : String)
    (htable : ∀ entry ∈ table, p entry.2) (minEntries : Int) (now : Moment) :
    (c.refresh base table minEntries now).Holds p := by
  have hfresh := RateTable.holds_capitalized htable
  refine h.put (Text.upperString_upperString base) _
    (RateTable.Holds.withIdentity ?_ hone (Text.upperString_upperString base)) rfl
  split
  · exact (h.rates _).missing_append hfresh
  · exact hfresh

/-- A merge goes on from slots and a count; the count does not matter. -/
theorem Holds.mergeTable {state : Entries Slot × Nat} (h : Holds p { c with slots := state.1 })
    (hone : p RateTable.identityRate) (now : Moment) {entry : String × RateTable}
    (hentry : ∀ rate ∈ entry.2, p rate.2) :
    Holds p { c with slots := (mergeTable now state entry).1 } := by
  obtain ⟨slots, added⟩ := state
  have hcapital := Text.upperString_upperString entry.1
  refine h.put hcapital _ (RateTable.Holds.withIdentity ?_ hone hcapital) rfl
  refine RateTable.Holds.foldl_addRate ?_ hentry
  cases hslot : Entries.get? (Text.upperString entry.1) slots with
  | none => exact RateTable.holds_nil
  | some slot => exact h.tables _ (Entries.mem_of_get? hslot)

theorem Holds.merge (h : c.Holds p) (hone : p RateTable.identityRate)
    {book : List (String × RateTable)} (hbook : ∀ entry ∈ book, ∀ rate ∈ entry.2, p rate.2)
    (now : Moment) : (c.merge book now).2.Holds p := by
  have hslots (state : Entries Slot × Nat) (hstate : Holds p { c with slots := state.1 }) :
      Holds p { c with slots := (book.foldl (RateCache.mergeTable now) state).1 } := by
    induction book generalizing state with
    | nil => exact hstate
    | cons entry book ih =>
      obtain ⟨hentry, hrest⟩ := List.forall_mem_cons.mp hbook
      exact ih hrest _ (hstate.mergeTable hone now hentry)
  exact (hslots (c.slots, 0) h).of_slots_eq rfl

/-- The rates that a call brings are sound; its codes may be any. -/
def Write.IsSound : Write → Prop
  | .seed _ table _ => ∀ entry ∈ table, entry.2.IsRate
  | .refresh _ table _ _ => ∀ entry ∈ table, entry.2.IsRate
  | .merge book _ => ∀ entry ∈ book, ∀ rate ∈ entry.2, rate.2.IsRate

/-- A call that brings rates of a kind keeps a cache with rates of this kind. -/
theorem Holds.write (h : c.Holds p) (hone : p RateTable.identityRate)
    (hp : ∀ rate : Decimal, rate.IsRate → p rate) {w : Write} (hw : w.IsSound) :
    (c.write w).Holds p := by
  cases w with
  | seed base table now =>
    exact h.seed hone base (fun entry hentry => hp _ (hw entry hentry)) now
  | refresh base table minEntries now =>
    exact h.refresh hone base (fun entry hentry => hp _ (hw entry hentry)) minEntries now
  | merge book now =>
    exact h.merge hone (fun entry hentry rate hrate => hp _ (hw entry hentry rate hrate)) now

theorem isRate_identityRate : RateTable.identityRate.IsRate := by
  decide

theorem IsSound.empty : empty.IsSound :=
  ⟨.nil, nofun⟩

theorem IsSound.of_slots_eq (h : c.IsSound) (hslots : d.slots = c.slots) : d.IsSound :=
  isSound_iff.mpr ((isSound_iff.mp h).of_slots_eq hslots)

theorem IsSound.write (h : c.IsSound) {w : Write} (hw : w.IsSound) : (c.write w).IsSound :=
  isSound_iff.mpr ((isSound_iff.mp h).write isRate_identityRate (fun _ => id) hw)

end RateCache

/-! ## Rates that may be unusable -/

/-- Tables as the calls that write build them, whose rates need not be usable. -/
def RateCache.IsBuilt (c : RateCache) : Prop :=
  c.Holds fun rate => rate.isFinite = true → rate.IsHeld

/-- A book of which one rate is unusable makes no document. -/
theorem RateBook.isUsable_of_ofBook {book : RateBook} {timestamp : String}
    {document : RateDocument} (h : RateDocument.ofBook timestamp book = .ok document) :
    book.IsUsable := by
  have hrates := Checked.toExcept_eq_ok_iff.mp h
  cases htables : (Checked.entries (fun _ rates =>
      Checked.entries (fun _ rate => Schema.finiteDecimal (.ok rate)) rates) book).andThen
      RateBook.checked with
  | invalid issues =>
    rw [htables] at hrates
    cases hrates
  | valid checked =>
    obtain ⟨read, hread, hchecked⟩ := Checked.andThen_eq_valid_iff.mp htables
    have hfinite (rate checked : Decimal)
        (hrate : Schema.finiteDecimal (.ok rate) = .valid checked) : checked = rate := by
      rw [Schema.finiteDecimal] at hrate
      split_ifs at hrate
      · cases hrate
        rfl
      · cases hrate
    -- The check for finite rates leaves every rate as it is.
    have hsame : read = book :=
      Checked.eq_of_entries (fun _ _ _ => Checked.eq_of_entries fun _ => hfinite) hread
    rw [hsame] at hchecked
    exact (RateBook.checked_eq_valid_iff.mp hchecked).1

namespace RateCache

variable {c d : RateCache}

theorem IsSound.isBuilt (h : c.IsSound) : c.IsBuilt :=
  ⟨h.bases, fun entry hentry => ⟨(h.tables entry hentry).codes, fun rate hrate _ =>
    ((h.tables entry hentry).rates rate hrate).held⟩⟩

theorem IsBuilt.write (h : c.IsBuilt) {w : Write} (hw : w.IsSound) : (c.write w).IsBuilt :=
  Holds.write h (by decide) (fun _ hrate _ => hrate.held) hw

theorem IsBuilt.of_slots_eq (h : c.IsBuilt) (hslots : d.slots = c.slots) : d.IsBuilt :=
  Holds.of_slots_eq h hslots

/-- Once all rates are usable the tables are sound. -/
theorem IsBuilt.isSound (h : c.IsBuilt) (husable : c.book.IsUsable) : c.IsSound := by
  refine ⟨h.bases, fun entry hentry => ⟨(h.tables entry hentry).codes, fun rate hrate => ?_⟩⟩
  have hpositive : rate.2.isPositive = true :=
    husable (entry.1, entry.2.rates) (List.mem_map.mpr ⟨entry, hentry, rfl⟩) rate hrate
  exact ⟨hpositive, (h.tables entry hentry).rates rate hrate
    (Decimal.isFinite_of_isPositive hpositive)⟩

end RateCache

/-! ## What is brought -/

theorem Json.Gives.isHeld {v : Json} {d : Decimal} (h : v.Gives d) (hv : v.HoldsNumbers)
    (hfinite : d.isFinite = true) : d.IsHeld := by
  cases h with
  | decimal =>
    cases hv with
    | decimal hheld => exact hheld
  | whole n =>
    cases hv with
    | whole hheld => exact hheld
  | binary hparse => exact Decimal.isHeld_of_parse hparse hfinite
  | text hparse => exact Decimal.isHeld_of_parse hparse hfinite

theorem exists_of_forall₂ {α β : Type} {R : α → β → Prop} {as : List α} {bs : List β} {a : α}
    (h : List.Forall₂ R as bs) (ha : a ∈ as) : ∃ b ∈ bs, R a b := by
  induction h with
  | nil => cases ha
  | @cons first b _ bs hfirst _ ih =>
    rcases List.mem_cons.mp ha with rfl | hrest
    · exact ⟨b, List.mem_cons_self, hfirst⟩
    · obtain ⟨other, hother, hr⟩ := ih hrest
      exact ⟨other, List.mem_cons_of_mem b hother, hr⟩

theorem Json.Lists.isRate {v : Json} {rates : List (String × Decimal)} (h : v.Lists rates)
    (hv : v.HoldsNumbers) : ∀ entry ∈ rates, entry.2.IsRate := by
  obtain ⟨members, rfl, hlists⟩ := h
  cases hv with
  | object hmembers =>
    intro entry hentry
    obtain ⟨member, hmember, hpositive, -, hgives⟩ := exists_of_forall₂ hlists hentry
    exact ⟨hpositive, hgives.isHeld (hmembers member hmember)
      (Decimal.isFinite_of_isPositive hpositive)⟩

theorem RateAnswer.isSound_of_ofJson {v : Json} {table : RateTable} (hv : v.HoldsNumbers)
    (h : RateAnswer.ofJson v = .ok table) : table.IsSound := by
  obtain ⟨members, data, rates, rfl, hdata, hlists, -, rfl⟩ := RateAnswer.ofJson_eq_ok_iff.mp h
  cases hv with
  | object hall =>
    exact RateTable.isSound_capitalized (hlists.isRate (hall _ (Entries.mem_of_get? hdata)))

theorem Client.isSound_of_rates {c : Client} {base : String} {targets : List String}
    {ch : Channel} {table : RateTable} (h : (c.rates base targets ch).1 = .done table) :
    table.IsSound := by
  obtain ⟨_, _, body, -, -, -, members, hbody, htable⟩ := rates_eq_done_iff.mp h
  exact RateAnswer.isSound_of_ofJson (Json.holdsNumbers_readBytes hbody) htable

theorem RateBook.ReadFrom.isSound {v? : Option Json} {book : RateBook} (h : ReadFrom v? book)
    (hv : ∀ v, v? = some v → v.HoldsNumbers) : book.IsSound := by
  cases h with
  | absent => exact ⟨.nil, nofun⟩
  | @listed members rates hlists =>
    cases hv _ rfl with
    | object hmembers =>
      refine ⟨Entries.hasCodes_ofPairs rates RateTable.capitalized, fun entry hentry => ?_⟩
      obtain ⟨before, hbefore, rfl⟩ := List.mem_map.mp (Entries.mem_of_mem_ofPairs hentry)
      obtain ⟨member, hmember, -, hrates⟩ := exists_of_forall₂ hlists hbefore
      exact RateTable.isSound_capitalized (hrates.isRate (hmembers member hmember))

theorem RateFile.isSound_of_load {d : Disk} {p : Path} {document : RateDocument}
    (h : load d p = .ok (some document)) : document.rates.IsSound := by
  obtain ⟨s, v, -, hread, members, rfl, -, hbook⟩ := load_eq_some_iff.mp h
  cases Json.holdsNumbers_read hread with
  | object hmembers =>
    exact hbook.isSound fun v hv => hmembers _ (Entries.mem_of_get? hv)

end Cambio
