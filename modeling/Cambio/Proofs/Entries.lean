import Cambio.Entries
import Mathlib.Data.List.Forall2
import Mathlib.Data.List.Induction
import Mathlib.Data.List.Nodup

/-!
# What entries hold

## Main definitions

- `Entries.LastWhere` — the last of the pairs whose names are of a kind
- `Entries.Settles` — what pairs of repeated names come down to

## Main statements

- `Entries.mem_of_get?` — what is read was there
- `Entries.mem_of_mem_put`, `Entries.mem_of_mem_putAll`, `Entries.mem_of_mem_ofPairs` — what is
  there was there before or was written
- `Entries.get?_put`, `Entries.get?_append`, `Entries.get?_filter` — reading after writing
- `Entries.put_of_get?` — writing what is read
- `Entries.get?_putAll` — of all that is written under a name the last is read
- `Entries.has_iff_mem_names` — which names have an entry
- `Entries.get?_of_mem` — what is read under names that are all different
- `Entries.nodup_names_put`, `Entries.nodup_names_ofPairs` — names stay different
- `Entries.ofPairs_of_nodup` — pairs with different names are entries as they stand
- `Entries.get?_ofPairs_eq_some_iff`, `Entries.settles_iff` — what pairs come down to
-/

namespace Cambio.Entries

variable {α : Type} {name : String} {value : α} {es : Entries α}

theorem mem_of_get? (h : get? name es = some value) : (name, value) ∈ es := by
  induction es with
  | nil => cases h
  | cons entry rest ih =>
    obtain ⟨n, x⟩ := entry
    rw [get?] at h
    split at h
    · next hname =>
      cases h
      rw [hname]
      exact List.mem_cons_self
    · exact List.mem_cons_of_mem _ (ih h)

theorem mem_of_mem_put {entry : String × α} (h : entry ∈ put name value es) :
    entry = (name, value) ∨ entry ∈ es := by
  induction es with
  | nil => exact .inl (List.mem_singleton.mp h)
  | cons first rest ih =>
    obtain ⟨n, x⟩ := first
    rw [put] at h
    split at h
    · next hname =>
      rcases List.mem_cons.mp h with hfirst | hrest
      · exact .inl (by rw [hfirst, hname])
      · exact .inr (List.mem_cons_of_mem _ hrest)
    · rcases List.mem_cons.mp h with hfirst | hrest
      · exact .inr (by rw [hfirst]; exact List.mem_cons_self)
      · exact (ih hrest).imp_right (List.mem_cons_of_mem _)

theorem mem_of_mem_putAll {entry : String × α} {pairs : List (String × α)}
    (h : entry ∈ putAll es pairs) : entry ∈ pairs ∨ entry ∈ es := by
  induction pairs generalizing es with
  | nil => exact .inr h
  | cons pair pairs ih =>
    rcases ih h with hpairs | hput
    · exact .inl (List.mem_cons_of_mem _ hpairs)
    · rcases mem_of_mem_put hput with hpair | hes
      · exact .inl (by rw [hpair]; exact List.mem_cons_self)
      · exact .inr hes

theorem mem_of_mem_ofPairs {entry : String × α} {pairs : List (String × α)}
    (h : entry ∈ ofPairs pairs) : entry ∈ pairs :=
  (mem_of_mem_putAll h).resolve_right List.not_mem_nil

/-! ## Reading after writing -/

/-- Only the entry that is written changes. -/
theorem get?_put (other : String) :
    get? other (put name value es) = if name = other then some value else get? other es := by
  induction es with
  | nil => rfl
  | cons first rest ih =>
    obtain ⟨n, x⟩ := first
    by_cases hname : n = name
    · subst hname
      by_cases hother : n = other <;> simp [put, get?, hother]
    · rw [put, if_neg hname]
      by_cases hother : n = other
      · subst hother
        simp [get?, Ne.symm hname]
      · simp [get?, hother, ih]

/-- Writing what is there changes nothing. -/
theorem put_of_get? (h : get? name es = some value) : put name value es = es := by
  induction es with
  | nil => cases h
  | cons first rest ih =>
    obtain ⟨n, x⟩ := first
    by_cases hname : n = name
    · rw [get?, if_pos hname, Option.some.injEq] at h
      rw [put, if_pos hname, h]
    · rw [get?, if_neg hname] at h
      rw [put, if_neg hname, ih h]

theorem get?_append (name : String) (es fs : Entries α) :
    get? name (es ++ fs) = (get? name es).or (get? name fs) := by
  induction es with
  | nil => rfl
  | cons first rest ih =>
    obtain ⟨n, x⟩ := first
    by_cases hname : n = name <;> simp [get?, hname, ih]

/-- Entries that are kept or left out by their names. -/
theorem get?_filter (name : String) (p : String → Bool) (es : Entries α) :
    get? name (es.filter fun entry => p entry.1) = if p name then get? name es else none := by
  induction es with
  | nil => simp [get?]
  | cons first rest ih =>
    obtain ⟨n, x⟩ := first
    by_cases hname : n = name
    · subst hname
      by_cases hp : p n <;> simp_all [get?]
    · by_cases hp : p n <;> simp_all [get?]

/-- What was written last under a name is read, or else what was there before. -/
theorem get?_putAll (name : String) (es : Entries α) (pairs : List (String × α)) :
    get? name (putAll es pairs) = (get? name pairs.reverse).or (get? name es) := by
  induction pairs generalizing es with
  | nil => rfl
  | cons pair pairs ih =>
    have hpair : get? name (put pair.1 pair.2 es) = (get? name [pair]).or (get? name es) := by
      by_cases hname : pair.1 = name <;> simp [get?_put, get?, hname]
    rw [putAll, List.foldl_cons, ← putAll, ih, hpair, List.reverse_cons, get?_append,
      Option.or_assoc]

/-! ## Names that are all different -/

theorem has_iff_mem_names : has name es = true ↔ name ∈ names es := by
  induction es with
  | nil => simp [has, get?, names]
  | cons first rest ih =>
    obtain ⟨n, x⟩ := first
    by_cases hname : n = name
    · simp [has, get?, names, hname]
    · rw [has, get?, if_neg hname, ← has, ih]
      simp [names, Ne.symm hname]

/-- Of different names, each has the entry that stands under it. -/
theorem get?_of_mem (hnames : (names es).Nodup) (h : (name, value) ∈ es) :
    get? name es = some value := by
  induction es with
  | nil => cases h
  | cons first rest ih =>
    obtain ⟨n, x⟩ := first
    obtain ⟨hfirst, hrest⟩ : n ∉ names rest ∧ (names rest).Nodup := List.nodup_cons.mp hnames
    rcases List.mem_cons.mp h with hentry | hlater
    · cases hentry
      rw [get?, if_pos rfl]
    · have hname : n ≠ name := by
        rintro rfl
        exact hfirst (List.mem_map.mpr ⟨_, hlater, rfl⟩)
      rw [get?, if_neg hname, ih hrest hlater]

/-- Different names can be read from either end. -/
theorem get?_reverse (hnames : (names es).Nodup) (name : String) :
    get? name es.reverse = get? name es := by
  have hreverse : (names es.reverse).Nodup := by
    rw [names, List.map_reverse]
    exact List.nodup_reverse.mpr hnames
  refine Option.ext fun value => ⟨fun h => ?_, fun h => ?_⟩
  · exact get?_of_mem hnames (List.mem_reverse.mp (mem_of_get? h))
  · exact get?_of_mem hreverse (List.mem_reverse.mpr (mem_of_get? h))

theorem put_of_notMem (h : name ∉ names es) (value : α) :
    put name value es = es ++ [(name, value)] := by
  induction es with
  | nil => rfl
  | cons first rest ih =>
    obtain ⟨n, x⟩ := first
    obtain ⟨hname, hrest⟩ : name ≠ n ∧ name ∉ names rest := by simpa [names] using h
    rw [put, if_neg (Ne.symm hname), ih hrest, List.cons_append]

/-- Writing under a name keeps the names different. -/
theorem nodup_names_put (h : (names es).Nodup) (name : String) (value : α) :
    (names (put name value es)).Nodup := by
  induction es with
  | nil => simp [put, names]
  | cons first rest ih =>
    obtain ⟨n, x⟩ := first
    obtain ⟨hfirst, hrest⟩ : n ∉ names rest ∧ (names rest).Nodup := List.nodup_cons.mp h
    rw [put]
    split
    · exact h
    · next hname =>
      refine List.nodup_cons.mpr ⟨fun hmem => ?_, ih hrest⟩
      obtain ⟨entry, hentry, hn⟩ := List.mem_map.mp hmem
      rcases mem_of_mem_put hentry with rfl | hbefore
      · exact hname hn.symm
      · exact hfirst (List.mem_map.mpr ⟨entry, hbefore, hn⟩)

theorem nodup_names_putAll (h : (names es).Nodup) (pairs : List (String × α)) :
    (names (putAll es pairs)).Nodup := by
  induction pairs generalizing es with
  | nil => exact h
  | cons pair pairs ih => exact ih (nodup_names_put h pair.1 pair.2)

theorem nodup_names_ofPairs (pairs : List (String × α)) : (names (ofPairs pairs)).Nodup :=
  have hempty : (names ([] : List (String × α))).Nodup := List.nodup_nil
  nodup_names_putAll hempty pairs

theorem putAll_of_nodup {pairs : List (String × α)} (h : (names (es ++ pairs)).Nodup) :
    putAll es pairs = es ++ pairs := by
  induction pairs generalizing es with
  | nil => simp [putAll]
  | cons pair pairs ih =>
    obtain ⟨n, x⟩ := pair
    have hfresh : n ∉ names es := by
      simp only [names, List.map_append, List.map_cons] at h ⊢
      exact fun hmem => (List.nodup_append.mp h).2.2 n hmem n List.mem_cons_self rfl
    have hput : put n x es = es ++ [(n, x)] := put_of_notMem hfresh x
    have hrest : (names (put n x es ++ pairs)).Nodup := by
      rw [hput, List.append_assoc]
      exact h
    have hpairs := ih hrest
    rw [hput, List.append_assoc] at hpairs
    simpa [putAll, hput] using hpairs

theorem ofPairs_of_nodup {pairs : List (String × α)} (h : (names pairs).Nodup) :
    ofPairs pairs = pairs :=
  putAll_of_nodup h

/-! ## Last entries -/

/-- The last of the pairs whose name is of a kind has a value. -/
def LastWhere (p : String → Prop) (x : α) (pairs : List (String × α)) : Prop :=
  ∃ before name after, pairs = before ++ (name, x) :: after ∧ p name ∧
    ∀ other ∈ names after, ¬ p other

section LastWhere

variable {β : Type} {p : String → Prop} {x : α} {pairs : List (String × α)}

theorem not_lastWhere_nil : ¬ LastWhere p x [] := by
  rintro ⟨before, name, after, h, -⟩
  cases before <;> cases h

theorem lastWhere_cons {pair : String × α} :
    LastWhere p x (pair :: pairs) ↔
      LastWhere p x pairs ∨ pair.2 = x ∧ p pair.1 ∧ ∀ other ∈ names pairs, ¬ p other := by
  constructor
  · rintro ⟨before, name, after, h, hname, hafter⟩
    cases before with
    | nil =>
      cases h
      exact .inr ⟨rfl, hname, hafter⟩
    | cons first before =>
      cases h
      exact .inl ⟨before, name, after, rfl, hname, hafter⟩
  · rintro (⟨before, name, after, rfl, hname, hafter⟩ | ⟨rfl, hname, hafter⟩)
    · exact ⟨pair :: before, name, after, rfl, hname, hafter⟩
    · exact ⟨[], pair.1, pairs, rfl, hname, hafter⟩

theorem LastWhere.exists_mem (h : LastWhere p x pairs) : ∃ name, (name, x) ∈ pairs ∧ p name := by
  obtain ⟨before, name, after, rfl, hname, -⟩ := h
  exact ⟨name, List.mem_append_right _ List.mem_cons_self, hname⟩

theorem LastWhere.mem_names {name : String} (h : LastWhere (· = name) x pairs) :
    name ∈ names pairs := by
  obtain ⟨_, hmem, rfl⟩ := h.exists_mem
  exact List.mem_map_of_mem hmem

theorem lastWhere_map_iff {f : String → String} {g : α → β} {y : β} :
    LastWhere p y (pairs.map fun pair => (f pair.1, g pair.2)) ↔
      ∃ x, LastWhere (fun name => p (f name)) x pairs ∧ g x = y := by
  induction pairs with
  | nil => exact iff_of_false not_lastWhere_nil fun ⟨_, h, _⟩ => not_lastWhere_nil h
  | cons pair pairs ih =>
    have hnone : (∀ other ∈ names (pairs.map fun pair => (f pair.1, g pair.2)), ¬ p other) ↔
        ∀ other ∈ names pairs, ¬ p (f other) := by
      rw [names, List.map_map, names, List.forall_mem_map, List.forall_mem_map]
      rfl
    rw [List.map_cons, lastWhere_cons, ih, hnone]
    simp only [lastWhere_cons]
    constructor
    · rintro (⟨x, hx, hy⟩ | ⟨hy, hlast⟩)
      · exact ⟨x, .inl hx, hy⟩
      · exact ⟨pair.2, .inr ⟨rfl, hlast⟩, hy⟩
    · rintro ⟨x, hx | ⟨rfl, hlast⟩, hy⟩
      · exact .inl ⟨x, hx, hy⟩
      · exact .inr ⟨hy, hlast⟩

/-- Relations that agree at the second items relate the same lists. -/
theorem forall₂_congr_right {r r' : α → β → Prop} {as : List α} {bs : List β}
    (h : ∀ b ∈ bs, ∀ a, r a b ↔ r' a b) : List.Forall₂ r as bs ↔ List.Forall₂ r' as bs := by
  induction bs generalizing as with
  | nil => rw [List.forall₂_nil_right_iff, List.forall₂_nil_right_iff]
  | cons b bs ih =>
    obtain ⟨hfirst, hrest⟩ := List.forall_mem_cons.mp h
    simp only [List.forall₂_cons_right_iff, hfirst, ih hrest]

/-- Entries with related values under the same names exist if each entry has a related value. -/
theorem exists_forall₂_iff {r : α → β → Prop} {es : Entries α} :
    (∃ fs : Entries β, List.Forall₂ (fun f e => f.1 = e.1 ∧ r e.2 f.2) fs es) ↔
      ∀ entry ∈ es, ∃ y, r entry.2 y := by
  constructor
  · rintro ⟨fs, h⟩
    induction h with
    | nil => nofun
    | cons hfirst _ ih => exact List.forall_mem_cons.mpr ⟨⟨_, hfirst.2⟩, ih⟩
  · intro h
    induction es with
    | nil => exact ⟨[], .nil⟩
    | cons entry rest ih =>
      obtain ⟨⟨y, hy⟩, hrest⟩ := List.forall_mem_cons.mp h
      obtain ⟨fs, hfs⟩ := ih hrest
      exact ⟨(entry.1, y) :: fs, .cons ⟨rfl, hy⟩ hfs⟩

theorem names_eq_of_forall₂ {others : List (String × β)}
    (h : List.Forall₂ (fun (pair : String × α) (other : String × β) => pair.1 = other.1)
      pairs others) : names pairs = names others := by
  rw [names, names, ← List.forall₂_eq_eq_eq, List.forall₂_map_left_iff, List.forall₂_map_right_iff]
  exact h

/-- Of pairs that go together, the last ones of a kind do. -/
theorem LastWhere.of_forall₂ {r : α → β → Prop} {others : List (String × β)}
    (h : LastWhere p x pairs)
    (hall : List.Forall₂ (fun pair other => pair.1 = other.1 ∧ r pair.2 other.2) pairs others) :
    ∃ y, LastWhere p y others ∧ r x y := by
  induction hall with
  | nil => exact absurd h not_lastWhere_nil
  | @cons pair other pairs others hfirst hrest ih =>
    rcases lastWhere_cons.mp h with hlater | ⟨rfl, hname, hnone⟩
    · obtain ⟨y, hy, hr⟩ := ih hlater
      exact ⟨y, lastWhere_cons.mpr (.inl hy), hr⟩
    · rw [names_eq_of_forall₂ (hrest.imp fun _ _ h => h.1)] at hnone
      exact ⟨other.2, lastWhere_cons.mpr (.inr ⟨rfl, hfirst.1 ▸ hname, hnone⟩), hfirst.2⟩

theorem get?_reverse_eq_some_iff {name : String} :
    get? name pairs.reverse = some x ↔ LastWhere (· = name) x pairs := by
  induction pairs with
  | nil => exact iff_of_false nofun not_lastWhere_nil
  | cons pair pairs ih =>
    have hnone : get? name pairs.reverse = none ↔ ∀ other ∈ names pairs, ¬ other = name := by
      rw [← Option.not_isSome_iff_eq_none, ← has, has_iff_mem_names, names, List.map_reverse,
        List.mem_reverse, ← names]
      exact ⟨fun h other hother heq => h (heq ▸ hother), fun h hname => h name hname rfl⟩
    rw [List.reverse_cons, get?_append, lastWhere_cons, ← ih, ← hnone, Option.or_eq_some_iff]
    simp only [get?]
    by_cases hname : pair.1 = name <;> simp [hname, and_comm]

end LastWhere

theorem mem_iff_get? {es : Entries α} (hnames : (names es).Nodup) :
    (name, value) ∈ es ↔ get? name es = some value :=
  ⟨get?_of_mem hnames, mem_of_get?⟩

theorem get?_ofPairs_eq_some_iff {pairs : List (String × α)} :
    get? name (ofPairs pairs) = some value ↔ LastWhere (· = name) value pairs := by
  have hempty : get? name ([] : Entries α) = none := rfl
  rw [ofPairs, get?_putAll, hempty, Option.or_none, get?_reverse_eq_some_iff]

theorem LastWhere.unique {pairs : List (String × α)} {x y : α}
    (hx : LastWhere (· = name) x pairs) (hy : LastWhere (· = name) y pairs) : y = x :=
  Option.some.inj
    ((get?_ofPairs_eq_some_iff.mpr hy).symm.trans (get?_ofPairs_eq_some_iff.mpr hx))

theorem ofPairs_concat (pairs : List (String × α)) (pair : String × α) :
    ofPairs (pairs ++ [pair]) = put pair.1 pair.2 (ofPairs pairs) := by
  rw [ofPairs, putAll, List.foldl_append]
  rfl

theorem names_put (name : String) (value : α) (es : Entries α) :
    names (put name value es) = if name ∈ names es then names es else names es ++ [name] := by
  induction es with
  | nil => simp [put, names]
  | cons first rest ih =>
    obtain ⟨n, x⟩ := first
    by_cases hname : n = name
    · simp [put, names, hname]
    · have hrest : names ((n, x) :: rest) = n :: names rest := rfl
      rw [put, if_neg hname, hrest]
      show n :: names (put name value rest) = _
      rw [ih]
      by_cases hmem : name ∈ names rest <;> simp [hmem, Ne.symm hname]

/-- The names of pairs, each at its first place. -/
theorem names_ofPairs (pairs : List (String × α)) :
    names (ofPairs pairs) = (names pairs).eraseDups := by
  induction pairs using List.reverseRecOn with
  | nil => rfl
  | append_singleton pairs pair ih =>
    have hnames : names (pairs ++ [pair]) = names pairs ++ [pair.1] := by
      simp [names]
    rw [ofPairs_concat, names_put, hnames, List.eraseDups_append, ih]
    by_cases hmem : pair.1 ∈ names pairs <;> simp [hmem, List.removeAll, List.eraseDups_cons]

/-- Different names with the same entries in the same order. -/
theorem eq_of_names_eq {es fs : Entries α} (hnames : names es = names fs) (hdiff : (names es).Nodup)
    (h : ∀ entry ∈ es, entry ∈ fs) : es = fs := by
  induction es generalizing fs with
  | nil => exact (List.map_eq_nil_iff.mp hnames.symm).symm
  | cons e es ih =>
    cases fs with
    | nil => cases hnames
    | cons f fs =>
      obtain ⟨hname, hrest⟩ : e.1 = f.1 ∧ names es = names fs := List.cons.inj hnames
      obtain ⟨hnew, hdiff⟩ : e.1 ∉ names es ∧ (names es).Nodup := List.nodup_cons.mp hdiff
      have hfirst : e = f := by
        refine (List.mem_cons.mp (h e List.mem_cons_self)).resolve_right fun hmem => hnew ?_
        rw [hrest]
        exact List.mem_map_of_mem hmem
      have hlater : ∀ entry ∈ es, entry ∈ fs := by
        intro entry hentry
        refine (List.mem_cons.mp (h entry (List.mem_cons_of_mem _ hentry))).resolve_left ?_
        rintro rfl
        exact hnew (hname ▸ List.mem_map_of_mem hentry)
      rw [hfirst, ih hrest hdiff hlater]

/-- What pairs come down to: each name once, at its first place and with its last value. -/
structure Settles (pairs : List (String × α)) (es : Entries α) : Prop where
  names : names es = (Entries.names pairs).eraseDups
  last : ∀ name x, (name, x) ∈ es ↔ LastWhere (· = name) x pairs

theorem settles_ofPairs (pairs : List (String × α)) : Settles pairs (ofPairs pairs) :=
  ⟨names_ofPairs pairs, fun _ _ =>
    (mem_iff_get? (nodup_names_ofPairs pairs)).trans get?_ofPairs_eq_some_iff⟩

/-- Pairs come down to one list of entries, the one that is written from them. -/
theorem settles_iff {pairs : List (String × α)} {es : Entries α} :
    Settles pairs es ↔ es = ofPairs pairs := by
  constructor
  · intro h
    have hnames := h.names.trans (names_ofPairs pairs).symm
    refine eq_of_names_eq hnames (hnames ▸ nodup_names_ofPairs pairs) fun entry hentry => ?_
    exact ((settles_ofPairs pairs).last _ _).mpr ((h.last _ _).mp hentry)
  · rintro rfl
    exact settles_ofPairs pairs

/-- Values that are changed before or after they are written. -/
theorem ofPairs_map {β : Type} (f : α → β) (pairs : List (String × α)) :
    ofPairs (pairs.map fun pair => (pair.1, f pair.2)) =
      (ofPairs pairs).map fun entry => (entry.1, f entry.2) := by
  have hput (name : String) (x : α) (es : Entries α) :
      put name (f x) (es.map fun entry => (entry.1, f entry.2)) =
        (put name x es).map fun entry => (entry.1, f entry.2) := by
    induction es with
    | nil => rfl
    | cons first rest ih =>
      by_cases hname : first.1 = name <;> simp [put, hname, ih]
  induction pairs using List.reverseRecOn with
  | nil => rfl
  | append_singleton pairs pair ih =>
    rw [List.map_append, List.map_singleton, ofPairs_concat, ih, hput, ofPairs_concat]

end Cambio.Entries
