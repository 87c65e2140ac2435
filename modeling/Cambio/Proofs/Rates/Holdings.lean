import Cambio.Proofs.Rates.Fetched
import Cambio.Proofs.Rates.Sound
import Cambio.Proofs.Rates.Store

/-!
# Tables and the file that keeps them

Whatever happens to a converter, its tables and its disk change by two kinds of calls only. A
refresh replaces a table and tries to write all tables to the rate file; a merge fills gaps and
writes nothing. A file that was written stays until the next one is, and is loaded with the tables
of the cache as they were when it was written.

## Main definitions

- `Holdings` — the tables of a cache and the disk
- `Holdings.saving`, `Holdings.write` — what a call saves, and what it changes
- `Holdings.lastSave?` — the last of some calls that saved
- `RateFile.Keeps` — a file that is loaded with what was saved

## Main statements

- `RateFile.saving_cases` — what saving does to a disk
- `Holdings.keeps_lastSave?` — the file after some calls is the one that was saved last
-/

namespace Cambio

open RateCache (Write)

/-! ## Writing the file -/

namespace RateFile

open Disk

variable {d d' : Disk} {p : Path}

/-- The ways in which saving changes a disk. -/
inductive Saving (d : Disk) (p : Path) (timestamp : String) (book : RateBook) :
    Disk × Except Breakdown Bool → Prop
  | saved {document : RateDocument} {made written : Disk} {place : Place}
      (checked : RateDocument.ofBook timestamp book = .ok document)
      (located : made.locate p = .ok place)
      (wrote : Wrote made written place (contents document)) :
      Saving d p timestamp book (written, .ok true)
  /-- Folders may have been made all the same. -/
  | unsaved {left : Disk} {result : Except Breakdown Bool} (extends_ : Extends d left)
      (result_ne : result ≠ .ok true) : Saving d p timestamp book (left, result)

theorem saving_cases (letters : List String) (d : Disk) (p : Path) (timestamp : String)
    (book : RateBook) :
    Saving d p timestamp book (saveTrying letters d p timestamp book) := by
  unfold saveTrying
  cases hdocument : RateDocument.ofBook timestamp book with
  | error report => exact .unsaved (.refl d) (by simp)
  | ok document =>
    dsimp only
    have hmade := extends_makeFolders d p.parent
    rcases hfolders : d.makeFolders p.parent with ⟨made, trouble?⟩
    rw [hfolders] at hmade
    cases trouble? with
    | some trouble => exact .unsaved hmade (refused_ne trouble)
    | none =>
      dsimp only
      rcases hreplace : replace letters made p (contents document) with ⟨left, trouble?⟩
      cases trouble? with
      | some trouble =>
        exact .unsaved (hmade.trans (same_of_replace hreplace).extends) (refused_ne trouble)
      | none =>
        obtain ⟨place, hlocate, hwrote⟩ := wrote_of_replace hreplace
        exact .saved hdocument hlocate hwrote

/-- What was written to the rate file. -/
structure Saved where
  moment : Moment
  book : RateBook
  deriving DecidableEq, Repr

/-- What was written, by the result of saving it. -/
def Saved.confirmed? (saved : Saved) : Except Breakdown Bool → Option Saved
  | .ok true => some saved
  | _ => none

theorem Saved.confirmed?_eq_some_iff {saved other : Saved} {result : Except Breakdown Bool} :
    saved.confirmed? result = some other ↔ result = .ok true ∧ other = saved := by
  unfold confirmed?
  split <;> simp_all [eq_comm]

/-- The file under a path is loaded with what was saved. -/
structure Keeps (d : Disk) (p : Path) (saved : Saved) : Prop where
  located : ∃ place, d.locate p = .ok place
  loads : LoadsBack d p saved.moment saved.book

theorem Keeps.extends {saved : Saved} (h : Keeps d p saved) (hextends : Extends d d') :
    Keeps d' p saved := by
  obtain ⟨place, hplace⟩ := h.located
  have hthere : d.locate p ≠ .error .missing := by
    rw [hplace]
    simp
  obtain ⟨document, hload, hrates⟩ := h.loads
  refine ⟨⟨place, (hextends.locate_eq hthere).trans hplace⟩, document, ?_, hrates⟩
  rw [load_extends hextends hthere, hload]

end RateFile

open RateFile (Saved Keeps Saving)

/-! ## Tables and disk -/

/-- The cache without the counts of what happened to it. -/
def RateCache.bare (c : RateCache) : RateCache :=
  { RateCache.empty with slots := c.slots, lastUpdated := c.lastUpdated }

theorem RateCache.bare_congr {c d : RateCache} (hslots : d.slots = c.slots)
    (hlast : d.lastUpdated = c.lastUpdated) : d.bare = c.bare := by
  rw [bare, bare, hslots, hlast]

/-- The tables of a cache and the disk. -/
structure Holdings where
  cache : RateCache
  disk : Disk

namespace Holdings

variable {h : Holdings} {x : Write} {xs : List Write} {path? : Option Path} {path : Path}
  {saved : Saved}

/-- What a refresh tries to save, the tables after it; a merge saves nothing. -/
def toSave? (h : Holdings) : Write → Option Saved
  | .refresh base table minEntries now =>
    some ⟨now, (h.cache.refresh base table minEntries now).book⟩
  | .seed .. | .merge .. => none

/-- What a call leaves on the disk, and what it has saved there if that worked. -/
def saving (path? : Option Path) (h : Holdings) (x : Write) : Disk × Option Saved :=
  match h.toSave? x, path? with
  | some saved, some path =>
    let (disk, result) :=
      RateFile.save h.disk path (String.ofList saved.moment.isoText) saved.book
    (disk, saved.confirmed? result)
  | _, _ => (h.disk, none)

/-- What a call makes of the tables and the disk. -/
def write (path? : Option Path) (h : Holdings) (x : Write) : Holdings :=
  ⟨(h.cache.write x).bare, (h.saving path? x).1⟩

/-- What the last of some calls that saved has saved. -/
def lastSave? (path? : Option Path) (h : Holdings) : List Write → Option Saved
  | [] => none
  | x :: xs => (lastSave? path? (h.write path? x) xs).or (h.saving path? x).2

theorem book_of_toSave? (htry : h.toSave? x = some saved) :
    saved.book = (h.cache.write x).book := by
  cases x with
  | refresh base table minEntries now =>
    cases htry
    rfl
  | seed | merge => cases htry

/-- A call that saves has written the file with the tables after it. -/
theorem saving_eq_some (hsaved : (h.saving (some path) x).2 = some saved) :
    saved.book = (h.cache.write x).book ∧
      Saving h.disk path (String.ofList saved.moment.isoText) saved.book
        ((h.saving (some path) x).1, .ok true) := by
  unfold saving at hsaved ⊢
  cases htry : h.toSave? x with
  | none =>
    rw [htry] at hsaved
    cases hsaved
  | some tried =>
    rw [htry] at hsaved
    dsimp only at hsaved ⊢
    obtain ⟨hresult, rfl⟩ := Saved.confirmed?_eq_some_iff.mp hsaved
    refine ⟨book_of_toSave? htry, ?_⟩
    rw [← hresult]
    exact RateFile.saving_cases RateFile.draftLetters h.disk path _ _

/-- A call that saves nothing makes folders at most. -/
theorem extends_saving (hsaved : (h.saving path? x).2 = none) :
    Disk.Extends h.disk (h.saving path? x).1 := by
  unfold saving at hsaved ⊢
  cases htry : h.toSave? x with
  | none => exact .refl _
  | some tried =>
    rw [htry] at hsaved
    cases path? with
    | none => exact .refl _
    | some path =>
      dsimp only at hsaved ⊢
      have hcases := RateFile.saving_cases RateFile.draftLetters h.disk path
        (String.ofList tried.moment.isoText) tried.book
      rw [← RateFile.save] at hcases
      generalize RateFile.save h.disk path (String.ofList tried.moment.isoText) tried.book = left
        at hcases hsaved
      cases hcases with
      | saved => cases hsaved
      | unsaved hextends => exact hextends

/-! ## The file after some calls -/

theorem isSound_write (hsound : h.cache.IsSound) (hx : x.IsSound) :
    (h.write path? x).cache.IsSound :=
  (hsound.write hx).of_slots_eq rfl

theorem keeps_saving (hsound : h.cache.IsSound) (hx : x.IsSound)
    (hsaved : (h.saving (some path) x).2 = some saved) (hjoined : saved.book.IsJoined)
    (hmoment : saved.moment.micros < Moment.dayLimit * Moment.microsPerDay) :
    Keeps (h.saving (some path) x).1 path saved := by
  obtain ⟨hbook, hsaving⟩ := saving_eq_some hsaved
  have htidy : saved.book.IsTidy := by
    rw [hbook] at hjoined ⊢
    exact (hsound.write hx).book.isTidy hjoined
  cases hsaving with
  | saved checked located wrote =>
    rw [RateDocument.ofBook_of_isTidy htidy] at checked
    cases checked
    exact ⟨⟨_, wrote.locate_eq located⟩, RateFile.loadsBack_of_wrote hmoment htidy located wrote⟩
  | unsaved _ hne => exact absurd rfl hne

/-- The file stays as long as nothing is saved. -/
theorem keeps_of_lastSave?_eq_none (hkeeps : Keeps h.disk path saved)
    (hnone : lastSave? path? h xs = none) : Keeps (xs.foldl (write path?) h).disk path saved := by
  induction xs generalizing h with
  | nil => exact hkeeps
  | cons x xs ih =>
    obtain ⟨hrest, hfirst⟩ := Option.or_eq_none_iff.mp hnone
    exact ih (hkeeps.extends (extends_saving hfirst)) hrest

/-- The file after some calls is the one that was saved last. -/
theorem keeps_lastSave? (hsound : h.cache.IsSound) (hxs : ∀ x ∈ xs, x.IsSound)
    (hsaved : lastSave? (some path) h xs = some saved) (hjoined : saved.book.IsJoined)
    (hmoment : saved.moment.micros < Moment.dayLimit * Moment.microsPerDay) :
    Keeps (xs.foldl (write (some path)) h).disk path saved := by
  induction xs generalizing h with
  | nil => cases hsaved
  | cons x xs ih =>
    obtain ⟨hx, hrest⟩ := List.forall_mem_cons.mp hxs
    -- Either a later call saved, or the first one did and none after it.
    rcases Option.or_eq_some_iff.mp hsaved with hlater | ⟨hnone, hfirst⟩
    · exact ih (isSound_write hsound hx) hrest hlater
    · have hnow : Keeps (h.write (some path) x).disk path saved :=
        keeps_saving hsound hx hfirst hjoined hmoment
      rw [List.foldl_cons]
      exact keeps_of_lastSave?_eq_none hnow hnone

/-! ## The tables after some calls -/

theorem isSome_fetchedAt?_write {c : RateCache} {base : String} (hsome : (c.fetchedAt? base).isSome)
    (x : Write) : ((c.write x).fetchedAt? base).isSome := by
  cases x with
  | seed b table now =>
    have hslot : (c.seed b table now).slot? base = _ := Entries.get?_put (Text.upperString base)
    rw [RateCache.write, RateCache.fetchedAt?, hslot]
    split
    · rfl
    · exact hsome
  | refresh b table minEntries now =>
    rw [RateCache.write, RateCache.fetchedAt?_refresh]
    split
    · rfl
    · exact hsome
  | merge book now =>
    rw [RateCache.write, RateCache.fetchedAt?_merge, Option.isSome_or, hsome, Bool.true_or]

theorem isSome_fetchedAt?_foldl {base : String} (hsome : (h.cache.fetchedAt? base).isSome) :
    ((xs.foldl (write path?) h).cache.fetchedAt? base).isSome := by
  induction xs generalizing h with
  | nil => exact hsome
  | cons x xs ih => exact ih (h := h.write path? x) (isSome_fetchedAt?_write hsome x)

theorem isSome_fetchedAt?_of_mem_book {c : RateCache} {base : String}
    (hmem : Text.upperString base ∈ Entries.names c.book) : (c.fetchedAt? base).isSome := by
  have hnames : Entries.names c.book = Entries.names c.slots := by
    simp [RateCache.book, Entries.names]
  rw [hnames, ← Entries.has_iff_mem_names] at hmem
  rw [RateCache.fetchedAt?, Option.isSome_map]
  exact hmem

/-- Every table that was saved last is still there. -/
theorem isSome_fetchedAt?_of_lastSave? {base : String}
    (hsaved : lastSave? (some path) h xs = some saved)
    (hmem : Text.upperString base ∈ Entries.names saved.book) :
    ((xs.foldl (write (some path)) h).cache.fetchedAt? base).isSome := by
  induction xs generalizing h with
  | nil => cases hsaved
  | cons x xs ih =>
    rcases Option.or_eq_some_iff.mp hsaved with hlater | ⟨-, hfirst⟩
    · exact ih hlater
    · rw [(saving_eq_some hfirst).1] at hmem
      exact isSome_fetchedAt?_foldl (h := h.write (some path) x)
        (isSome_fetchedAt?_of_mem_book hmem)

end Holdings

end Cambio
