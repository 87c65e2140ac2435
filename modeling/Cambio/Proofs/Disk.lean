import Cambio.Disk
import Mathlib.Data.List.Basic
import Mathlib.Tactic.SplitIfs

/-!
# What changes a disk

Making folders leaves every file where it is, and so every path that led somewhere leads there
still. A path that led nowhere can come to lead somewhere only if a folder on it was missing.
Writing a file changes what is found at one place.

## Main definitions

- `Path.IsProper` — a path whose names may all be names
- `Disk.SameFiles` — two disks with the same files
- `Disk.Extends` — a disk with the files of another one and with its folders
- `Disk.SameFolders` — two disks with the same folders
- `Disk.Wrote` — a disk on which one file was written
- `Disk.Takes` — every file can be written under a path

## Main statements

- `Disk.node?_put`, `Disk.node?_remove` — what is found after a change
- `Disk.extends_makeFolders`, `Disk.makeFolders_again` — making folders, and making them again
- `Disk.Extends.locate_eq` — what a path leads to when folders were made
- `Disk.Wrote.locate_eq` — what a path leads to when a file was written
- `Disk.look_of_writeDeep` — a file that was written is found
- `Disk.locate_of_longName` — a name that is too long
- `Disk.refusal_of_makeFolders`, `Disk.refusal_of_move` — a proper path is not refused as no path
-/

namespace Cambio.Path

variable {p : Path}

/-- No name of a path has the character that no name may have. -/
structure IsProper (p : Path) : Prop where
  root : '\x00' ∉ p.root.toList
  names : ∀ name ∈ p.names, '\x00' ∉ name.toList

theorem nul_notMem_intercalate {names : List String} (h : ∀ name ∈ names, '\x00' ∉ name.toList) :
    '\x00' ∉ (String.intercalate "/" names).toList := by
  induction names with
  | nil => simp
  | cons first rest ih =>
    obtain ⟨hfirst, hrest⟩ := List.forall_mem_cons.mp h
    cases rest with
    | nil => simpa using hfirst
    | cons second more =>
      have hslash : '\x00' ∉ "/".toList := by decide
      rw [String.intercalate_cons_cons, String.toList_append, String.toList_append]
      simp only [List.mem_append, not_or]
      exact ⟨⟨hfirst, hslash⟩, ih hrest⟩

theorem IsProper.text (h : p.IsProper) : '\x00' ∉ p.text.toList := by
  unfold Path.text
  split_ifs
  · decide
  · rw [String.toList_append, List.mem_append, not_or]
    exact ⟨h.root, nul_notMem_intercalate h.names⟩

/-- The names of a proper path make proper paths. -/
theorem IsProper.of_subset (h : p.IsProper) {names : List String} (hsub : names ⊆ p.names) :
    IsProper ⟨p.root, names⟩ :=
  ⟨h.root, fun name hname => h.names name (hsub hname)⟩

theorem IsProper.parent (h : p.IsProper) : p.parent.IsProper :=
  h.of_subset (List.dropLast_subset p.names)

end Cambio.Path

namespace Cambio.Disk

variable {d d' : Disk} {place other target source : Place} {p : Path} {names : List String}

/-! ## One place -/

theorem lookup_filter_ne (nodes : List (Place × Node)) (place other : Place) :
    (nodes.filter (·.1 ≠ place)).lookup other =
      if other = place then none else nodes.lookup other := by
  induction nodes with
  | nil => simp
  | cons entry nodes ih =>
    obtain ⟨here, node⟩ := entry
    rw [List.lookup_cons, List.filter_cons]
    by_cases hhere : here = place
    · rw [if_neg (by simpa using hhere), ih, hhere]
      by_cases hother : other = place
      · rw [if_pos hother, if_pos hother]
      · rw [if_neg hother, if_neg hother, beq_eq_false_iff_ne.mpr hother]
    · rw [if_pos (by simpa using hhere), List.lookup_cons, ih]
      by_cases hother : other = here
      · rw [hother, beq_self_eq_true]
        exact (if_neg hhere).symm
      · rw [beq_eq_false_iff_ne.mpr hother]

theorem node?_of_ne_nil (d : Disk) (h : place ≠ []) : d.node? place = d.nodes.lookup place :=
  if_neg h

theorem node?_put (d : Disk) (h : place ≠ []) (node : Node) (other : Place) :
    (d.put place node).node? other = if other = place then some node else d.node? other := by
  by_cases hother : other = []
  · subst hother
    rw [if_neg (Ne.symm h)]
    rfl
  · rw [node?_of_ne_nil _ hother, node?_of_ne_nil _ hother, put, List.lookup_cons,
      lookup_filter_ne]
    by_cases hplace : other = place
    · rw [hplace, beq_self_eq_true]
      exact (if_pos rfl).symm
    · rw [beq_eq_false_iff_ne.mpr hplace, if_neg hplace, if_neg hplace]

theorem node?_remove (d : Disk) (h : place ≠ []) (other : Place) :
    (d.remove place).node? other = if other = place then none else d.node? other := by
  by_cases hother : other = []
  · subst hother
    rw [if_neg (Ne.symm h)]
    rfl
  · rw [node?_of_ne_nil _ hother, node?_of_ne_nil _ hother, remove, lookup_filter_ne]

theorem ne_nil_of_node?_ne (h : d.node? place ≠ some .folder) : place ≠ [] := by
  rintro rfl
  exact h rfl

theorem ne_nil_of_node?_eq_none (h : d.node? place = none) : place ≠ [] := by
  apply ne_nil_of_node?_ne
  rw [h]
  simp

/-! ## Paths -/

theorem follow_congr (h : ∀ place, d.node? place = some .folder ↔ d'.node? place = some .folder)
    (hfollow : d.follow place names = .ok target) : d'.follow place names = .ok target := by
  induction names generalizing place with
  | nil => exact hfollow
  | cons name names ih =>
    rw [follow] at hfollow ⊢
    split at hfollow
    · cases hfollow
    · cases hfollow
    · next hfolder =>
      rw [(h place).mp hfolder]
      dsimp only
      split_ifs at hfollow ⊢ with hup
      · exact ih hfollow
      · exact ih hfollow

theorem follow_append (d : Disk) (place : Place) (names more : List String) :
    d.follow place (names ++ more) =
      (d.follow place names).bind fun inner => d.follow inner more := by
  induction names generalizing place with
  | nil => rfl
  | cons name names ih =>
    rw [List.cons_append, follow, follow]
    split
    · rfl
    · rfl
    · split_ifs
      · rfl
      · exact ih _
      · rfl
      · exact ih _

/-- Only what follows from the working folder on leads anywhere. -/
theorem follow_of_locate (h : d.locate p = .ok place) : d.follow [] p.names = .ok place := by
  unfold locate at h
  split_ifs at h
  exact h

theorem locate_congr (h : ∀ place, d.node? place = some .folder ↔ d'.node? place = some .folder)
    (hlocate : d.locate p = .ok target) : d'.locate p = .ok target := by
  unfold locate at hlocate ⊢
  split_ifs at hlocate ⊢
  exact follow_congr h hlocate

theorem text_pair (folder name : String) :
    (Path.mk "" [folder, name]).text = folder ++ "/" ++ name := by
  rw [← String.toList_inj]
  simp [Path.text]

theorem toList_text_pair (folder name : String) :
    (Path.mk "" [folder, name]).text.toList = folder.toList ++ '/' :: name.toList := by
  simp [text_pair]

/-- A name that is too long is refused in a folder that is there. -/
theorem locate_of_longName {folder name : String}
    (hnul : '\x00' ∉ folder.toList ++ '/' :: name.toList)
    (hfolder : d.node? [folder] = some .folder) (hup : folder ≠ Path.up)
    (hshort : folder.utf8ByteSize ≤ nameLimit)
    (hlong : nameLimit < name.utf8ByteSize) : d.locate ⟨"", [folder, name]⟩ = .error .longName := by
  have hname : name ≠ Path.up := by
    rintro rfl
    exact absurd hlong (by decide)
  have hfollow : d.follow [] [folder, name] = .error .longName := by
    rw [follow, show d.node? [] = some .folder from rfl]
    dsimp only
    rw [if_neg hup, if_neg (by omega), List.nil_append, follow, hfolder]
    dsimp only
    rw [if_neg hname, if_pos hlong]
  rw [locate, toList_text_pair, if_neg (by simpa using hnul), if_pos rfl, hfollow]
  -- The path itself may be too long as well, which is the same refusal.
  exact ite_self _

/-! ## Refusals -/

/-- What a path is refused for on its way. -/
theorem follow_eq_error {r : Refusal} (h : d.follow place names = .error r) :
    r = .missing ∨ r = .noFolder ∨ r = .outside ∨ r = .longName := by
  induction names generalizing place with
  | nil => cases h
  | cons name names ih =>
    rw [follow] at h
    split at h
    · cases h
      exact .inl rfl
    · cases h
      exact .inr (.inl rfl)
    · split_ifs at h
      · cases h
        exact .inr (.inr (.inl rfl))
      · exact ih h
      · cases h
        exact .inr (.inr (.inr rfl))
      · exact ih h

theorem locate_ne_taken (d : Disk) (p : Path) : d.locate p ≠ .error .taken := by
  unfold locate
  split_ifs
  · nofun
  · nofun
  · intro h
    rcases follow_eq_error h with hr | hr | hr | hr <;> cases hr
  · nofun

theorem locate_ne_badName (hp : p.IsProper) : d.locate p ≠ .error .badName := by
  rw [locate, if_neg (by simpa using hp.text)]
  split_ifs
  · nofun
  · intro h
    rcases follow_eq_error h with hr | hr | hr | hr <;> cases hr
  · nofun

theorem refusal_of_makeFolder {r : Refusal} (hp : p.IsProper) (h : d.makeFolder p = .error r) :
    r ≠ .badName := by
  unfold makeFolder at h
  split at h
  · next hlocate =>
    cases h
    rintro rfl
    exact locate_ne_badName hp hlocate
  · split at h <;> cases h
    nofun

theorem refusal_of_provideFolder {trouble : Trouble} (hp : p.IsProper)
    (h : d.provideFolder p = (d', some trouble)) : trouble.refusal ≠ .badName := by
  unfold provideFolder at h
  split at h
  · cases h
  · next r hmade =>
    have hr : r ≠ .badName := refusal_of_makeFolder hp hmade
    split_ifs at h
    · cases h
    · cases h
      exact hr

theorem refusal_of_provideFolders {trouble : Trouble} {root : String}
    (hp : Path.IsProper ⟨root, names⟩) (h : d.provideFolders root names = (d', some trouble)) :
    trouble.refusal ≠ .badName := by
  induction names generalizing d d' with
  | nil => cases h
  | cons name above ih =>
    have hreverse : Path.IsProper ⟨root, (name :: above).reverse⟩ :=
      hp.of_subset (List.reverse_subset.mpr (List.Subset.refl _))
    have habove : Path.IsProper ⟨root, above⟩ := hp.of_subset (List.subset_cons_self _ _)
    rw [provideFolders] at h
    split at h
    · cases h
    · split at h
      · exact refusal_of_provideFolder hreverse h
      · next habovemade =>
        cases h
        exact ih habove habovemade
    · exact refusal_of_provideFolder hreverse h

theorem refusal_of_makeFolders {trouble : Trouble} (hp : p.IsProper)
    (h : d.makeFolders p = (d', some trouble)) : trouble.refusal ≠ .badName :=
  refusal_of_provideFolders (hp.of_subset (List.reverse_subset.mpr (List.Subset.refl _))) h

theorem refusal_of_create {r : Refusal} (hp : p.IsProper) (h : d.create p = .error r) :
    r ≠ .badName := by
  unfold create at h
  split at h
  · next hlocate =>
    cases h
    rintro rfl
    exact locate_ne_badName hp hlocate
  · split at h <;> cases h
    nofun

theorem refusal_of_move {trouble : Trouble} (hp : p.IsProper)
    (h : d.move source p = .error trouble) : trouble.refusal ≠ .badName := by
  unfold move at h
  split at h
  · next r hlocate =>
    cases h
    intro hr
    rw [show r = .badName from hr] at hlocate
    exact locate_ne_badName hp hlocate
  · split at h
    · cases h
      nofun
    · cases h
      nofun
    · cases h

/-! ## Folders -/

/-- Two disks have the same files. -/
def SameFiles (d d' : Disk) : Prop :=
  ∀ place bytes, d'.node? place = some (.file bytes) ↔ d.node? place = some (.file bytes)

/-- A disk has the files of another one, and its folders among others. -/
structure Extends (d d' : Disk) : Prop where
  files : SameFiles d d'
  folders : ∀ place, d.node? place = some .folder → d'.node? place = some .folder

/-- Two disks have the same files and folders. -/
def Same (d d' : Disk) : Prop :=
  ∀ place, d'.node? place = d.node? place

theorem SameFiles.refl (d : Disk) : SameFiles d d :=
  fun _ _ => Iff.rfl

theorem SameFiles.trans {d'' : Disk} (h : SameFiles d d') (h' : SameFiles d' d'') :
    SameFiles d d'' :=
  fun place bytes => (h' place bytes).trans (h place bytes)

theorem Extends.refl (d : Disk) : Extends d d :=
  ⟨.refl d, fun _ => id⟩

theorem Extends.trans {d'' : Disk} (h : Extends d d') (h' : Extends d' d'') : Extends d d'' :=
  ⟨h.files.trans h'.files, fun place hplace => h'.folders place (h.folders place hplace)⟩

theorem Same.extends (h : Same d d') : Extends d d' where
  files place bytes := by rw [h place]
  folders place hplace := by rw [h place, hplace]

theorem makeFolder_eq_ok (h : d.makeFolder p = .ok d') :
    ∃ place, d.locate p = .ok place ∧ d.node? place = none ∧ d' = d.put place .folder := by
  unfold makeFolder at h
  split at h
  · cases h
  · next place hlocate =>
    split at h
    · cases h
    · next hnone =>
      cases h
      exact ⟨place, hlocate, hnone, rfl⟩

theorem extends_makeFolder (h : d.makeFolder p = .ok d') : Extends d d' := by
  obtain ⟨place, -, hnone, rfl⟩ := makeFolder_eq_ok h
  have hplace := ne_nil_of_node?_eq_none hnone
  constructor
  · intro other bytes
    rw [node?_put d hplace]
    split_ifs with hother
    · rw [hother, hnone]
      simp
    · rfl
  · intro other hother
    rw [node?_put d hplace]
    split_ifs
    · rfl
    · exact hother

theorem extends_provideFolder (d : Disk) (p : Path) : Extends d (d.provideFolder p).1 := by
  unfold provideFolder
  split
  · next hmade => exact extends_makeFolder hmade
  · exact .refl d

theorem extends_provideFolders (root : String) (d : Disk) (names : List String) :
    Extends d (provideFolders root d names).1 := by
  induction names generalizing d with
  | nil => exact .refl d
  | cons name above ih =>
    have habove := ih d
    unfold provideFolders
    dsimp only
    split
    · next hmade => exact extends_makeFolder hmade
    · split
      · next hprovided =>
        rw [hprovided] at habove
        exact habove.trans (extends_provideFolder _ _)
      · next hprovided =>
        rw [hprovided] at habove
        exact habove
    · exact extends_provideFolder d _

/-- Making folders leaves all files and folders. -/
theorem extends_makeFolders (d : Disk) (p : Path) : Extends d (d.makeFolders p).1 :=
  extends_provideFolders _ _ _

theorem Extends.node?_file (h : Extends d d') {bytes : List UInt8}
    (hfile : d.node? place = some (.file bytes)) : d'.node? place = some (.file bytes) :=
  (h.files place bytes).mpr hfile

theorem Extends.follow_eq (h : Extends d d') (hfollow : d.follow place names ≠ .error .missing) :
    d'.follow place names = d.follow place names := by
  induction names generalizing place with
  | nil => rfl
  | cons name names ih =>
    rw [follow] at hfollow ⊢
    rw [follow]
    cases hnode : d.node? place with
    | none =>
      rw [hnode] at hfollow
      exact absurd rfl hfollow
    | some node =>
      rw [hnode] at hfollow
      cases node with
      | file bytes => rw [h.node?_file hnode]
      | folder =>
        rw [h.folders place hnode]
        dsimp only at hfollow ⊢
        split_ifs at hfollow ⊢
        · rfl
        · exact ih hfollow
        · rfl
        · exact ih hfollow

/-- New folders change what a path leads to only if one was missing on it. -/
theorem Extends.locate_eq (h : Extends d d') (hlocate : d.locate p ≠ .error .missing) :
    d'.locate p = d.locate p := by
  unfold locate at hlocate ⊢
  split_ifs at hlocate ⊢
  · rfl
  · rfl
  · exact h.follow_eq hlocate
  · rfl

/-! ## Folders that are there -/

/-- Two disks have the same folders. -/
def SameFolders (d d' : Disk) : Prop :=
  ∀ place, d.node? place = some .folder ↔ d'.node? place = some .folder

theorem isFolder_iff :
    d.isFolder p = true ↔ ∃ place, d.locate p = .ok place ∧ d.node? place = some .folder := by
  unfold isFolder
  rw [decide_eq_true_iff, at?]
  cases d.locate p with
  | ok place => simp [Except.toOption]
  | error refusal => simp [Except.toOption]

theorem isFolder_congr (h : SameFolders d d') (hfolder : d.isFolder p = true) :
    d'.isFolder p = true := by
  obtain ⟨place, hlocate, hnode⟩ := isFolder_iff.mp hfolder
  exact isFolder_iff.mpr ⟨place, locate_congr h hlocate, (h place).mp hnode⟩

theorem isFolder_of_makeFolder (h : d.makeFolder p = .ok d') : d'.isFolder p = true := by
  obtain ⟨place, hlocate, hnone, hd'⟩ := makeFolder_eq_ok h
  have hthere : d.locate p ≠ .error .missing := by
    rw [hlocate]
    simp
  refine isFolder_iff.mpr ⟨place, ?_, ?_⟩
  · rw [(extends_makeFolder h).locate_eq hthere, hlocate]
  · rw [hd', node?_put d (ne_nil_of_node?_eq_none hnone), if_pos rfl]

theorem isFolder_of_provideFolder (h : d.provideFolder p = (d', none)) : d'.isFolder p = true := by
  unfold provideFolder at h
  split at h
  · next hmade =>
    cases h
    exact isFolder_of_makeFolder hmade
  · split_ifs at h with hfolder
    · cases h
      exact hfolder
    · cases h

theorem makeFolder_of_isFolder (h : d.isFolder p = true) : d.makeFolder p = .error .taken := by
  obtain ⟨place, hlocate, hnode⟩ := isFolder_iff.mp h
  rw [makeFolder, hlocate]
  dsimp only
  rw [hnode]

theorem provideFolder_of_isFolder (h : d.isFolder p = true) : d.provideFolder p = (d, none) := by
  rw [provideFolder, makeFolder_of_isFolder h]
  dsimp only
  rw [if_pos h]

theorem makeFolders_of_nil (hnames : p.names = []) (d : Disk) : d.makeFolders p = (d, none) := by
  rw [makeFolders, hnames]
  rfl

/-- The folder of some names, last name first, in the order of a path. -/
theorem exists_of_ne_nil (hnames : p.names ≠ []) :
    ∃ name above, p.names.reverse = name :: above ∧ p = ⟨p.root, (name :: above).reverse⟩ := by
  obtain ⟨name, above, hreverse⟩ := List.exists_cons_of_ne_nil (List.reverse_ne_nil_iff.mpr hnames)
  exact ⟨name, above, hreverse, by rw [← hreverse, List.reverse_reverse]⟩

theorem isFolder_of_makeFolders (hnames : p.names ≠ []) (h : d.makeFolders p = (d', none)) :
    d'.isFolder p = true := by
  obtain ⟨name, above, hreverse, hp⟩ := exists_of_ne_nil hnames
  rw [makeFolders, hreverse, provideFolders] at h
  rw [hp]
  split at h
  · next hmade =>
    cases h
    exact isFolder_of_makeFolder hmade
  · split at h
    · exact isFolder_of_provideFolder h
    · cases h
  · exact isFolder_of_provideFolder h

theorem makeFolders_of_isFolder (hnames : p.names ≠ []) (h : d.isFolder p = true) :
    d.makeFolders p = (d, none) := by
  obtain ⟨name, above, hreverse, hp⟩ := exists_of_ne_nil hnames
  rw [hp] at h
  rw [makeFolders, hreverse, provideFolders, makeFolder_of_isFolder h]
  exact provideFolder_of_isFolder h

/-- Folders that were made are not made again, whatever files come. -/
theorem makeFolders_again {d'' : Disk} (h : d.makeFolders p = (d', none))
    (hsame : SameFolders d' d'') : d''.makeFolders p = (d'', none) := by
  by_cases hnames : p.names = []
  · exact makeFolders_of_nil hnames d''
  · exact makeFolders_of_isFolder hnames
      (isFolder_congr hsame (isFolder_of_makeFolders hnames h))

/-! ## Files -/

/-- A disk on which one file was written and nothing else was changed. -/
structure Wrote (d d' : Disk) (target : Place) (bytes : List UInt8) : Prop where
  noFolder : d.node? target ≠ some .folder
  file : d'.node? target = some (.file bytes)
  others : ∀ place, place ≠ target → d'.node? place = d.node? place

theorem Wrote.sameFolders {bytes : List UInt8} (h : Wrote d d' target bytes) :
    SameFolders d d' := by
  intro other
  by_cases hother : other = target
  · subst hother
    rw [h.file]
    exact iff_of_false h.noFolder (by simp)
  · rw [h.others other hother]

/-- Writing a file changes no path. -/
theorem Wrote.locate_eq {bytes : List UInt8} (h : Wrote d d' target bytes)
    (hlocate : d.locate p = .ok place) : d'.locate p = .ok place :=
  locate_congr h.sameFolders hlocate

theorem write_eq_ok {bytes : List UInt8} (h : d.write p bytes = .ok d') :
    ∃ target, d.locate p = .ok target ∧ Wrote d d' target bytes := by
  unfold write at h
  split at h
  · cases h
  · next target hlocate =>
    split_ifs at h with hfolder
    cases h
    have htarget := ne_nil_of_node?_ne hfolder
    refine ⟨target, hlocate, hfolder, ?_, fun other hother => ?_⟩
    · rw [node?_put d htarget, if_pos rfl]
    · rw [node?_put d htarget, if_neg hother]

/-- A file that was written is found. -/
theorem look_of_write {bytes : List UInt8} (h : d.write p bytes = .ok d') :
    d'.look p = .ok (some (.file bytes)) := by
  obtain ⟨target, hlocate, hwrote⟩ := write_eq_ok h
  rw [look, hwrote.locate_eq hlocate]
  exact congrArg Except.ok hwrote.file

theorem writeDeep_eq_none_iff {bytes : List UInt8} :
    d.writeDeep p bytes = (d', none) ↔
      ∃ made, d.makeFolders p.parent = (made, none) ∧ made.write p bytes = .ok d' := by
  unfold writeDeep
  constructor
  · intro h
    split at h
    · cases h
    · next made hmade =>
      split at h
      · next written hwrite =>
        cases h
        exact ⟨made, hmade, hwrite⟩
      · cases h
  · rintro ⟨made, hmade, hwrite⟩
    rw [hmade]
    dsimp only
    rw [hwrite]

theorem look_of_writeDeep {bytes : List UInt8} (h : d.writeDeep p bytes = (d', none)) :
    d'.look p = .ok (some (.file bytes)) := by
  obtain ⟨made, -, hwrite⟩ := writeDeep_eq_none_iff.mp h
  exact look_of_write hwrite

/-- Whether a file can be written does not depend on what it holds. -/
theorem exists_write {bytes : List UInt8} (h : d.write p bytes = .ok d') (other : List UInt8) :
    ∃ d'', d.write p other = .ok d'' := by
  obtain ⟨target, hlocate, hwrote⟩ := write_eq_ok h
  refine ⟨d.put target (.file other), ?_⟩
  rw [write, hlocate]
  exact if_neg hwrote.noFolder

/-- Every file can be written under a path, with the folders that are missing. -/
def Takes (d : Disk) (p : Path) : Prop :=
  ∀ bytes, ∃ d', d.writeDeep p bytes = (d', none)

/-- What a file holds does not matter, so trying with an empty one is enough. -/
theorem takes_iff : d.Takes p ↔ (d.writeDeep p []).2 = none := by
  constructor
  · intro h
    obtain ⟨d', hempty⟩ := h []
    rw [hempty]
  · intro hempty bytes
    have hwritten : d.writeDeep p [] = ((d.writeDeep p []).1, none) := Prod.ext rfl hempty
    obtain ⟨made, hmade, hwrite⟩ := writeDeep_eq_none_iff.mp hwritten
    obtain ⟨d', hother⟩ := exists_write hwrite bytes
    exact ⟨d', writeDeep_eq_none_iff.mpr ⟨made, hmade, hother⟩⟩

instance (d : Disk) (p : Path) : Decidable (d.Takes p) :=
  decidable_of_iff _ takes_iff.symm

theorem create_eq_ok (h : d.create p = .ok (place, d')) :
    d.node? place = none ∧ d' = d.put place (.file []) := by
  unfold create at h
  split at h
  · cases h
  · split at h
    · cases h
    · next hnone =>
      cases h
      exact ⟨hnone, rfl⟩

theorem move_eq_ok (h : d.move source p = .ok d') :
    ∃ target node, d.locate p = .ok target ∧ d.node? target ≠ some .folder ∧
      d.node? source = some node ∧ d' = (d.remove source).put target node := by
  unfold move at h
  split at h
  · cases h
  · next target hlocate =>
    split at h
    · cases h
    · cases h
    · next node hsource hfolder =>
      cases h
      exact ⟨target, node, hlocate, hfolder, hsource, rfl⟩

end Cambio.Disk
