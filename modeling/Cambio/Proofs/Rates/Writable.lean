import Cambio.Proofs.Rates.Store

/-!
# Paths that can be written to

A rate file can be written under a path if every document can be saved there. That does not depend
on the document: there has to be room for the folders, for a draft among them and for the file
itself. Saving leaves the room that it needs, so a path stays writable while nothing else is
changed on the disk.

## Main definitions

- `RateFile.HasRoom` — there is room for a draft and for the file
- `RateFile.IsWritable` — every document can be saved

## Main statements

- `RateFile.isWritable_iff` — it depends on folders and room alone
- `RateFile.IsWritable.save` — a path is as writable after a file was saved
- `RateFile.save_of_isProper` — saving under a proper path may fail, but does not end the work
-/

namespace Cambio.RateFile

open Disk

variable {d d' made : Disk} {p : Path} {place target : Place} {bytes : List UInt8}
  {timestamp : String} {book : RateBook} {document : RateDocument}

/-- There is room for a draft of the file under a path, and for the file. -/
structure HasRoom (d : Disk) (p : Path) : Prop where
  draft : ∃ drafted, makeDraft d p draftLetters = .ok drafted
  target : ∃ target, d.locate p = .ok target ∧ d.node? target ≠ some .folder

/-- Every document can be saved under a path. -/
def IsWritable (d : Disk) (p : Path) : Prop :=
  ∀ timestamp book document, RateDocument.ofBook timestamp book = .ok document →
    (save d p timestamp book).2 = .ok true

/-! ## Room -/

theorem hasRoom_of_replace (h : replace draftLetters d p bytes = (d', none)) : HasRoom d p := by
  obtain ⟨target, hlocate, hwrote⟩ := wrote_of_replace h
  refine ⟨?_, target, hlocate, hwrote.noFolder⟩
  unfold replace at h
  split at h
  · cases h
  · next place drafted hdraft => exact ⟨_, hdraft⟩

theorem sameFolders_draft (hnone : d.node? place = none) :
    SameFolders d ((d.put place (.file [])).put place (.file bytes)) := by
  intro other
  rw [node?_draft hnone]
  split_ifs with hother
  · rw [hother, hnone]
    simp
  · rfl

theorem replace_of_hasRoom (h : HasRoom d p) (bytes : List UInt8) :
    ∃ d', replace draftLetters d p bytes = (d', none) := by
  obtain ⟨⟨⟨place, drafted⟩, hdraft⟩, target, hlocate, hfolder⟩ := h
  obtain ⟨hnone, rfl⟩ := makeDraft_eq_ok hdraft
  have hsame : SameFolders d ((d.put place (.file [])).put place (.file bytes)) :=
    sameFolders_draft hnone
  have hmoves : ∃ moved,
      ((d.put place (.file [])).put place (.file bytes)).move place p = .ok moved := by
    have hsource : ((d.put place (.file [])).put place (.file bytes)).node? place =
        some (.file bytes) := by
      rw [node?_draft hnone, if_pos rfl]
    rw [move, locate_congr hsame hlocate]
    dsimp only
    rw [hsource]
    cases hnode : ((d.put place (.file [])).put place (.file bytes)).node? target with
    | none => exact ⟨_, rfl⟩
    | some node =>
      cases node with
      | file => exact ⟨_, rfl⟩
      | folder => exact absurd ((hsame target).mpr hnode) hfolder
  obtain ⟨moved, hmove⟩ := hmoves
  refine ⟨moved, ?_⟩
  rw [replace, hdraft]
  dsimp only
  rw [hmove]

/-! ## Drafts and the file -/

/-- A draft has a longer name than its file. -/
theorem draft_name_ne (name letters : String) : s!".{name}.{letters}.tmp" ≠ name := by
  intro hname
  have hsize := congrArg String.utf8ByteSize hname
  have hlonger : (s!".{name}.{letters}.tmp").utf8ByteSize =
      1 + name.utf8ByteSize + 1 + letters.utf8ByteSize + 4 := by
    show ("." ++ name ++ "." ++ letters ++ ".tmp").utf8ByteSize = _
    simp only [String.utf8ByteSize_append]
    rfl
  omega

theorem draft_name_ne_up (name letters : String) : s!".{name}.{letters}.tmp" ≠ Path.up := by
  intro hname
  have hlast := congrArg (fun s => s.toList.getLast?) hname
  have htmp : (s!".{name}.{letters}.tmp").toList.getLast? = some 'p' := by
    show ("." ++ name ++ "." ++ letters ++ ".tmp").toList.getLast? = _
    rw [String.toList_append, List.getLast?_append]
    rfl
  have hup : Path.up.toList.getLast? = some '.' := rfl
  rw [htmp, hup] at hlast
  exact absurd hlast (by decide)

/-- The last name of a path leads from a folder into it, or up. -/
theorem follow_singleton {inner : Place} {name : String} (h : d.follow inner [name] = .ok place) :
    place = if name = Path.up then inner.dropLast else inner ++ [name] := by
  rw [follow] at h
  split at h
  · cases h
  · cases h
  · split_ifs at h ⊢
    · cases h
      rfl
    · cases h
      rfl

/-- No draft stands where the file does. -/
theorem draft_ne_target {letters : String} (hlocate : d.locate p = .ok target)
    (hfolder : d.node? target ≠ some .folder)
    (hdraft : d.locate (draft p letters) = .ok place) : place ≠ target := by
  have htarget := follow_of_locate hlocate
  have hplace := follow_of_locate hdraft
  rcases List.eq_nil_or_concat p.names with hnone | ⟨above, name, hnames⟩
  · -- the working folder is no file
    rw [hnone, follow] at htarget
    cases htarget
    exact absurd rfl hfolder
  · rw [List.concat_eq_append] at hnames
    have hdrafted : (draft p letters).names = above ++ [s!".{name}.{letters}.tmp"] := by
      simp [draft, hnames]
    rw [hnames, follow_append] at htarget
    rw [hdrafted, follow_append] at hplace
    cases hinner : d.follow [] above with
    | error refusal =>
      rw [hinner] at htarget
      cases htarget
    | ok inner =>
      rw [hinner] at htarget hplace
      have hfile := follow_singleton htarget
      have hother := follow_singleton hplace
      rw [if_neg (draft_name_ne_up name letters)] at hother
      rw [hfile, hother]
      split_ifs
      · intro hsame
        have hlength := congrArg List.length hsame
        simp only [List.length_append, List.length_singleton, List.length_dropLast] at hlength
        omega
      · intro hsame
        exact draft_name_ne name letters (by simpa using hsame)

/-- Writing the file takes no name from a draft. -/
theorem makeDraft_of_wrote {letters : List String} (hlocate : d.locate p = .ok target)
    (h : Wrote d d' target bytes)
    (hdraft : ∃ drafted, makeDraft d p letters = .ok drafted) :
    ∃ drafted, makeDraft d' p letters = .ok drafted := by
  induction letters with
  | nil =>
    obtain ⟨_, hnone⟩ := hdraft
    cases hnone
  | cons first more ih =>
    obtain ⟨drafted, hdraft⟩ := hdraft
    rw [makeDraft] at hdraft ⊢
    -- The draft leads to a place other than the file, where nothing has changed.
    cases hplace : d.locate (draft p first) with
    | error refusal =>
      rw [create, hplace] at hdraft
      cases refusal with
      | taken => exact absurd hplace (locate_ne_taken d _)
      | missing | noFolder | isFolder | longName | outside | badName => cases hdraft
    | ok place =>
      have hother := draft_ne_target hlocate h.noFolder hplace
      have hnode := h.others place hother
      rw [create, hplace] at hdraft
      rw [create, h.locate_eq hplace]
      dsimp only at hdraft ⊢
      rw [hnode]
      cases hfree : d.node? place with
      | none => exact ⟨_, rfl⟩
      | some node =>
        rw [hfree] at hdraft
        exact ih ⟨drafted, hdraft⟩

theorem HasRoom.wrote (h : HasRoom d p) (hlocate : d.locate p = .ok target)
    (hwrote : Wrote d d' target bytes) : HasRoom d' p := by
  refine ⟨makeDraft_of_wrote hlocate hwrote h.draft, target, hwrote.locate_eq hlocate, ?_⟩
  rw [hwrote.file]
  simp

/-! ## Saving -/

theorem save_of_ofBook_error {report : Schema.Report}
    (h : RateDocument.ofBook timestamp book = .error report) :
    save d p timestamp book = (d, .error (.record report)) := by
  rw [save, saveTrying, h]

theorem save_of_hasRoom (hmade : d.makeFolders p.parent = (made, none)) (hroom : HasRoom made p)
    (hdocument : RateDocument.ofBook timestamp book = .ok document) :
    ∃ written target, save d p timestamp book = (written, .ok true) ∧
      made.locate p = .ok target ∧ Wrote made written target (contents document) := by
  obtain ⟨written, hreplace⟩ := replace_of_hasRoom hroom (contents document)
  obtain ⟨target, hlocate, hwrote⟩ := wrote_of_replace hreplace
  refine ⟨written, target, ?_, hlocate, hwrote⟩
  rw [save, saveTrying, hdocument]
  dsimp only
  rw [hmade]
  dsimp only
  rw [hreplace]

theorem hasRoom_of_save (h : (save d p timestamp book).2 = .ok true) :
    ∃ made, d.makeFolders p.parent = (made, none) ∧ HasRoom made p := by
  unfold save saveTrying at h
  split at h
  · cases h
  · split at h
    · exact absurd h (refused_ne _)
    · next made hmade =>
      split at h
      · next hreplace => exact ⟨made, hmade, hasRoom_of_replace hreplace⟩
      · exact absurd h (refused_ne _)

/-- Whether a path can be written to depends on its folders and the room there. -/
theorem isWritable_iff :
    IsWritable d p ↔ ∃ made, d.makeFolders p.parent = (made, none) ∧ HasRoom made p := by
  constructor
  · intro h
    exact hasRoom_of_save (h "" [] _ rfl)
  · rintro ⟨made, hmade, hroom⟩ timestamp book document hdocument
    obtain ⟨written, target, hsave, -⟩ := save_of_hasRoom hmade hroom hdocument
    rw [hsave]

/-- One document that can be saved stands for all. -/
theorem isWritable_of_save (h : (save d p timestamp book).2 = .ok true) : IsWritable d p :=
  isWritable_iff.mpr (hasRoom_of_save h)

/-- A path is as writable after a file was saved. -/
theorem IsWritable.save (h : IsWritable d p) (timestamp : String) (book : RateBook) :
    IsWritable (save d p timestamp book).1 p := by
  cases hdocument : RateDocument.ofBook timestamp book with
  | error report =>
    rw [save_of_ofBook_error hdocument]
    exact h
  | ok document =>
    obtain ⟨made, hmade, hroom⟩ := isWritable_iff.mp h
    obtain ⟨written, target, hsave, hlocate, hwrote⟩ := save_of_hasRoom hmade hroom hdocument
    rw [hsave]
    exact isWritable_iff.mpr
      ⟨written, makeFolders_again hmade hwrote.sameFolders, hroom.wrote hlocate hwrote⟩

/-! ## Proper paths -/

theorem nul_notMem_hexDigits (width n : Nat) : '\x00' ∉ Text.hexDigits width n := by
  induction width generalizing n with
  | zero => exact List.not_mem_nil
  | succ width ih =>
    have hdigit (k : Fin 16) : '\x00' ≠ Text.hexDigit k := by decide +revert
    rw [Text.hexDigits, List.mem_append, List.mem_singleton, not_or]
    exact ⟨ih (n / 16), hdigit ⟨n % 16, Nat.mod_lt _ (by decide)⟩⟩

theorem nul_notMem_draftLetters : ∀ letters ∈ draftLetters, '\x00' ∉ letters.toList := by
  intro letters hletters
  obtain ⟨k, -, rfl⟩ := List.mem_map.mp hletters
  rw [String.toList_ofList]
  exact nul_notMem_hexDigits 8 k

theorem isProper_draft {letters : String} (hp : p.IsProper) (hletters : '\x00' ∉ letters.toList) :
    (draft p letters).IsProper := by
  have hname : '\x00' ∉ (p.names.getLast?.getD "").toList := by
    cases hlast : p.names.getLast? with
    | none => decide
    | some name => exact hp.names name (List.mem_of_getLast? hlast)
  refine ⟨hp.root, fun name hmem => ?_⟩
  rcases List.mem_append.mp hmem with habove | hdraft
  · exact hp.names name (List.mem_of_mem_dropLast habove)
  · rw [List.mem_singleton.mp hdraft]
    show '\x00' ∉ ("." ++ p.names.getLast?.getD "" ++ "." ++ letters ++ ".tmp").toList
    simp [hname, hletters]

theorem refusal_of_makeDraft {letters : List String} {trouble : Trouble} (hp : p.IsProper)
    (hletters : ∀ some ∈ letters, '\x00' ∉ some.toList)
    (h : makeDraft d p letters = .error trouble) : trouble.refusal ≠ .badName := by
  induction letters with
  | nil =>
    cases h
    nofun
  | cons first more ih =>
    obtain ⟨hfirst, hmore⟩ := List.forall_mem_cons.mp hletters
    rw [makeDraft] at h
    split at h
    · cases h
    · exact ih hmore h
    · next hcreate =>
      have hr := refusal_of_create (isProper_draft hp hfirst) hcreate
      cases h
      exact hr

theorem refusal_of_replace {trouble : Trouble} (hp : p.IsProper)
    (h : replace draftLetters d p bytes = (d', some trouble)) : trouble.refusal ≠ .badName := by
  unfold replace at h
  split at h
  · next hdraft =>
    cases h
    exact refusal_of_makeDraft hp nul_notMem_draftLetters hdraft
  · dsimp only at h
    split at h
    · cases h
    · next hmove =>
      cases h
      exact refusal_of_move hp hmove

theorem refused_eq_false {trouble : Trouble} (h : trouble.refusal ≠ .badName) :
    refused trouble = .ok false :=
  if_neg h

/-- Saving a document under a proper path may fail, but does not end the work. -/
theorem save_of_isProper (hp : p.IsProper)
    (hdocument : RateDocument.ofBook timestamp book = .ok document) :
    ∃ written saved, save d p timestamp book = (written, .ok saved) := by
  rw [save, saveTrying, hdocument]
  dsimp only
  split
  · next made trouble hmade =>
    exact ⟨made, false, by rw [refused_eq_false (refusal_of_makeFolders hp.parent hmade)]⟩
  · next made hmade =>
    split
    · next written hreplace => exact ⟨written, true, rfl⟩
    · next written trouble hreplace =>
      exact ⟨written, false, by rw [refused_eq_false (refusal_of_replace hp hreplace)]⟩

end Cambio.RateFile
