import Cambio.Proofs.Calendar.Iso
import Cambio.Proofs.Disk
import Cambio.Proofs.Rates.Document

/-!
# Saving and loading the rate file

The rate file is written to a draft that takes its place in the end. When that works, the book is
loaded back with every digit of its rates; when it does not, every file stays as it was. Either way
no draft is left. What a failure does leave are the folders that were made for the file. A path that
led nowhere because one of them was missing may lead somewhere after that, so only for the other
paths is what is loaded the same as before.

## Main definitions

- `RateFile.Saves` — what saving does to a disk

## Main statements

- `RateFile.wrote_of_replace`, `RateFile.same_of_replace` — replacing a file by way of a draft
- `RateFile.saves_saveTrying` — saving, whatever names are tried for the draft
- `RateFile.load_fails_after_save` — a failure after which loading fails as well
-/

namespace Cambio.RateFile

open Disk

variable {d d' : Disk} {p : Path} {place : Place} {letters : List String} {bytes : List UInt8}
  {trouble : Trouble}

/-! ## Drafts -/

theorem makeDraft_eq_ok (h : makeDraft d p letters = .ok (place, d')) :
    d.node? place = none ∧ d' = d.put place (.file []) := by
  induction letters with
  | nil => cases h
  | cons first more ih =>
    rw [makeDraft] at h
    split at h
    · next hmade =>
      cases h
      exact create_eq_ok hmade
    · exact ih h
    · cases h

theorem replace_of_longName {first : String} {more : List String}
    (h : d.create (draft p first) = .error .longName) (bytes : List UInt8) :
    replace (first :: more) d p bytes = (d, some ⟨.longName, draft p first⟩) := by
  rw [replace, makeDraft, h]

theorem node?_draft (hnone : d.node? place = none) (other : Place) :
    ((d.put place (.file [])).put place (.file bytes)).node? other =
      if other = place then some (.file bytes) else d.node? other := by
  have hplace := ne_nil_of_node?_eq_none hnone
  rw [node?_put _ hplace, node?_put _ hplace]
  split_ifs <;> rfl

theorem wrote_of_replace (h : replace letters d p bytes = (d', none)) :
    ∃ target, d.locate p = .ok target ∧ Wrote d d' target bytes := by
  unfold replace at h
  split at h
  · cases h
  · next place made hdraft =>
    obtain ⟨hnone, rfl⟩ := makeDraft_eq_ok hdraft
    have hplace := ne_nil_of_node?_eq_none hnone
    dsimp only at h
    split at h
    · next moved hmove =>
      cases h
      obtain ⟨target, node, hlocate, hfolder, hnode, rfl⟩ := move_eq_ok hmove
      rw [node?_draft hnone, if_pos rfl] at hnode
      cases hnode
      have htarget : target ≠ [] := ne_nil_of_node?_ne hfolder
      -- Only files were written, so the path of the file is the same with the draft as without.
      have hsame (other : Place) :
          ((d.put place (.file [])).put place (.file bytes)).node? other = some .folder ↔
            d.node? other = some .folder := by
        rw [node?_draft hnone]
        split_ifs with hother
        · rw [hother, hnone]
          simp
        · rfl
      refine ⟨target, locate_congr hsame hlocate, ?_, ?_, ?_⟩
      · intro hd
        exact hfolder ((hsame target).mpr hd)
      · rw [node?_put _ htarget, if_pos rfl]
      · intro other hother
        -- The draft is gone from its own place, where there was nothing before it.
        rw [node?_put _ htarget, if_neg hother, node?_remove _ hplace, node?_draft hnone]
        split_ifs with hdraft
        · rw [hdraft, hnone]
        · rfl
    · cases h

theorem same_of_replace (h : replace letters d p bytes = (d', some trouble)) : Same d d' := by
  unfold replace at h
  split at h
  · cases h
    exact fun _ => rfl
  · next place made hdraft =>
    obtain ⟨hnone, rfl⟩ := makeDraft_eq_ok hdraft
    have hplace := ne_nil_of_node?_eq_none hnone
    dsimp only at h
    split at h
    · cases h
    · cases h
      intro other
      rw [node?_remove _ hplace, node?_draft hnone]
      split_ifs with hother
      · rw [hother, hnone]
      · rfl

/-! ## Loading -/

/-- What is loaded where a file, a folder or nothing is found. -/
def loadNode : Option Node → Except Breakdown (Option RateDocument)
  | some (.file bytes) => (ofContents bytes).mapError .document
  | _ => .ok none

theorem load_of_locate (h : d.locate p = .ok place) : load d p = loadNode (d.node? place) := by
  rw [load, look, h]
  dsimp only
  cases d.node? place with
  | none => rfl
  | some node => cases node <;> rfl

theorem load_of_missing (h : d.locate p = .error .missing) : load d p = .ok none := by
  rw [load, look, h]

theorem loadNode_extends (h : Extends d d') (place : Place) :
    loadNode (d'.node? place) = loadNode (d.node? place) := by
  cases hnode : d.node? place with
  | some node =>
    cases node with
    | file bytes => rw [h.node?_file hnode]
    | folder => rw [h.folders place hnode]
  | none =>
    -- There may be a folder now, of which nothing is loaded either.
    cases hnode' : d'.node? place with
    | none => rfl
    | some node =>
      cases node with
      | file bytes =>
        rw [(h.files place bytes).mp hnode'] at hnode
        cases hnode
      | folder => rfl

/-- Folders that are made leave what is loaded, unless one was missing on the path. -/
theorem load_extends (h : Extends d d') (hlocate : d.locate p ≠ .error .missing) :
    load d' p = load d p := by
  have hsame := h.locate_eq hlocate
  cases hpath : d.locate p with
  | ok place =>
    rw [load_of_locate hpath, load_of_locate (hsame.trans hpath)]
    exact loadNode_extends h place
  | error refusal =>
    rw [load, load, look, look, hsame, hpath]
    cases refusal <;> rfl

/-! ## Saving -/

/-- A document that is loaded with the rates of a book and the time at which it was saved. -/
def LoadsBack (d : Disk) (p : Path) (moment : Moment) (book : RateBook) : Prop :=
  ∃ document, load d p = .ok (some document) ∧ book.SameRates document.rates ∧
    document.savedAt = .at moment

theorem refused_ne (trouble : Disk.Trouble) : refused trouble ≠ .ok true := by
  unfold refused
  split <;> simp

/-- What saving a book does to a disk. -/
structure Saves (d : Disk) (p : Path) (moment : Moment) (book : RateBook)
    (result : Disk × Except Breakdown Bool) : Prop where
  /-- The book is loaded back, and every other file is as it was. -/
  saved : result.2 = .ok true →
    LoadsBack result.1 p moment book ∧
      ∀ place, result.1.locate p ≠ .ok place → ∀ bytes,
        result.1.node? place = some (.file bytes) ↔ d.node? place = some (.file bytes)
  /-- Every file is as it was, and so is what is loaded, unless a folder was missing. -/
  unsaved : result.2 = .ok false →
    SameFiles d result.1 ∧ (d.locate p ≠ .error .missing → load result.1 p = load d p)
  /-- Only a path that is no path at all ends the work. -/
  broken : ∀ e, result.2 = .error e →
    SameFiles d result.1 ∧ ∃ trouble, e = .disk trouble ∧ trouble.refusal = .badName

variable {moment : Moment} {book : RateBook}

theorem saveTrying_of_replace {timestamp : String} (hbook : book.IsTidy)
    (hmade : d.makeFolders p.parent = (d', none))
    (hreplace : replace letters d' p (contents ⟨timestamp, book⟩) = (d', some trouble)) :
    saveTrying letters d p timestamp book = (d', refused trouble) := by
  rw [saveTrying, RateDocument.ofBook_of_isTidy hbook]
  dsimp only
  rw [hmade]
  dsimp only
  rw [hreplace]

theorem loadsBack_of_wrote (hmoment : moment.micros < Moment.dayLimit * Moment.microsPerDay)
    (hbook : book.IsTidy) (hlocate : d.locate p = .ok place)
    (hwrote : Wrote d d' place (contents ⟨String.ofList moment.isoText, book⟩)) :
    LoadsBack d' p moment book := by
  have hjoined : Json.IsJoined (String.ofList moment.isoText).toList := by
    rw [String.toList_ofList]
    apply Json.isJoined_of_forall
    intro c hc
    have hlt := Stamp.toNat_lt_of_mem_isoText hc
    unfold Text.halfDistance
    omega
  refine ⟨⟨String.ofList moment.isoText, book.expanded⟩, ?_,
    RateBook.sameRates_expanded hbook, ?_⟩
  · rw [load_of_locate (hwrote.locate_eq hlocate), hwrote.file, loadNode,
      ofContents_contents hbook hjoined]
    rfl
  · rw [RateDocument.savedAt, String.toList_ofList, Stamp.parse?_isoText hmoment]
    rfl

/-- A refusal that ends an attempt to save, after which the files are as they were. -/
theorem saves_refused (h : Extends d d') (p : Path) (moment : Moment) (book : RateBook)
    (trouble : Trouble) : Saves d p moment book (d', refused trouble) := by
  constructor
  · intro htrue
    unfold refused at htrue
    split_ifs at htrue
    cases htrue
  · intro _
    exact ⟨h.files, load_extends h⟩
  · intro e he
    unfold refused at he
    split_ifs at he with hbad
    cases he
    exact ⟨h.files, trouble, rfl, hbad⟩

/-- Saving a tidy book at a moment of the calendar, with any names for the draft. -/
theorem saves_saveTrying (letters : List String) (d : Disk) (p : Path)
    (hmoment : moment.micros < Moment.dayLimit * Moment.microsPerDay) (hbook : book.IsTidy) :
    Saves d p moment book (saveTrying letters d p (String.ofList moment.isoText) book) := by
  unfold saveTrying
  rw [RateDocument.ofBook_of_isTidy hbook]
  dsimp only
  have hmade := extends_makeFolders d p.parent
  cases hfolders : d.makeFolders p.parent with
  | mk made trouble? =>
    rw [hfolders] at hmade
    cases trouble? with
    | some trouble => exact saves_refused hmade p moment book trouble
    | none =>
      dsimp only
      cases hreplace : replace letters made p
        (contents ⟨String.ofList moment.isoText, book⟩) with
      | mk written trouble? =>
        cases trouble? with
        | some trouble =>
          exact saves_refused (hmade.trans (same_of_replace hreplace).extends) p moment book trouble
        | none =>
          obtain ⟨target, hlocate, hwrote⟩ := wrote_of_replace hreplace
          constructor
          · intro _
            refine ⟨loadsBack_of_wrote hmoment hbook hlocate hwrote, fun place hplace bytes => ?_⟩
            have hother : place ≠ target := by
              rintro rfl
              exact hplace (hwrote.locate_eq hlocate)
            rw [hwrote.others place hother]
            exact hmade.files place bytes
          · intro hfalse
            cases hfalse
          · intro e he
            cases he

/-- Rates with digits behind the point, with a power of ten above the units and with many
    digits. -/
theorem saves_three_rates :
    let p : Path := ⟨"", ["rates", "rates.json"]⟩
    let book : RateBook :=
      [("USD", [("EUR", .finite false 92 (-2)), ("IDR", .finite false 156 2)]),
        ("EUR", [("XAU", .finite false 123456789012345678901234567890123 (-30))])]
    let result := save .empty p "2024-01-15T12:00:00" book
    result.2 = .ok true ∧ Saves .empty p ⟨63840916800000000⟩ book result := by
  refine ⟨by decide +kernel, ?_⟩
  have htext : "2024-01-15T12:00:00" = String.ofList (Moment.mk 63840916800000000).isoText := by
    decide +kernel
  have hmoment : (Moment.mk 63840916800000000).micros < Moment.dayLimit * Moment.microsPerDay := by
    show 63840916800000000 < 3652059 * 86400000000
    omega
  rw [htext]
  exact saves_saveTrying draftLetters .empty _ hmoment (by decide +kernel)

/-! ## A name that is too long -/

/-- A name of `n` letters. -/
def longName (n : Nat) : String :=
  String.ofList (List.replicate n 'x')

theorem utf8ByteSize_longName (n : Nat) : (longName n).utf8ByteSize = n := by
  induction n with
  | zero => rfl
  | succ n ih =>
    rw [longName, List.replicate_succ, String.ofList_cons, String.utf8ByteSize_append]
    show 1 + (longName n).utf8ByteSize = n + 1
    rw [ih, Nat.add_comm]

theorem nul_notMem_longName (n : Nat) : '\x00' ∉ (longName n).toList := by
  intro hnul
  rw [longName, String.toList_ofList] at hnul
  exact absurd (List.eq_of_mem_replicate hnul) (by decide)

/-- A draft has the name of its file within its own name. -/
theorem create_draft_of_longName {d : Disk} {n : Nat} (hfolder : d.node? ["a"] = some .folder)
    (hlong : nameLimit < n) :
    d.create (draft ⟨"", ["a", longName n]⟩ "00000000") = .error .longName := by
  have hdraft : draft ⟨"", ["a", longName n]⟩ "00000000" =
      ⟨"", ["a", "." ++ longName n ++ "." ++ "00000000" ++ ".tmp"]⟩ := rfl
  have hname : d.locate ⟨"", ["a", "." ++ longName n ++ "." ++ "00000000" ++ ".tmp"]⟩ =
      .error .longName := by
    apply locate_of_longName
    · have hnul := nul_notMem_longName n
      simp [hnul]
    · exact hfolder
    · decide
    · decide
    · simp only [String.utf8ByteSize_append, utf8ByteSize_longName]
      omega
  rw [hdraft, create, hname]

/-- The folder is made, but no draft can be. After that the path is refused where it led nowhere
    before, and that ends the loading. -/
theorem load_fails_after_save :
    load .empty ⟨"", ["a", longName 256]⟩ = .ok none ∧
      save .empty ⟨"", ["a", longName 256]⟩ "2024-01-15T12:00:00"
          [("USD", [("EUR", .finite false 92 (-2))])] = (⟨[(["a"], .folder)]⟩, .ok false) ∧
        load ⟨[(["a"], .folder)]⟩ ⟨"", ["a", longName 256]⟩ =
          .error (.disk ⟨.longName, ⟨"", ["a", longName 256]⟩⟩) := by
  have hbook : RateBook.IsTidy [("USD", [("EUR", .finite false 92 (-2))])] := by decide +kernel
  have hnul : '\x00' ∉ "a".toList ++ '/' :: (longName 256).toList := by
    have hname := nul_notMem_longName 256
    simp [hname]
  have hmissing : Disk.empty.locate ⟨"", ["a", longName 256]⟩ = .error .missing := by
    have hsize : ¬pathLimit < (Path.mk "" ["a", longName 256]).text.utf8ByteSize := by
      rw [text_pair, String.utf8ByteSize_append, String.utf8ByteSize_append, utf8ByteSize_longName]
      decide
    rw [locate, toList_text_pair, if_neg (by simpa using hnul), if_neg hsize, if_pos rfl]
    rfl
  have hrefused : Disk.locate ⟨[(["a"], .folder)]⟩ ⟨"", ["a", longName 256]⟩ =
      .error .longName := by
    apply locate_of_longName hnul rfl
    · decide
    · decide
    · rw [utf8ByteSize_longName]
      decide
  have hmade : Disk.empty.makeFolders ⟨"", ["a"]⟩ = (⟨[(["a"], .folder)]⟩, none) := by
    decide +kernel
  obtain ⟨more, hletters⟩ : ∃ more, draftLetters = "00000000" :: more := by
    rw [draftLetters, show (10000 : Nat) = 9999 + 1 from rfl, List.range_succ_eq_map, List.map_cons]
    exact ⟨_, rfl⟩
  have hdraft := create_draft_of_longName (d := ⟨[(["a"], .folder)]⟩) (n := 256) rfl (by decide)
  refine ⟨load_of_missing hmissing, ?_, ?_⟩
  · rw [save, hletters, saveTrying_of_replace hbook hmade (replace_of_longName hdraft _)]
    rfl
  · rw [load, look, hrefused]

end Cambio.RateFile
