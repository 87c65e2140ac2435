import Cambio.Schema.Field
import Mathlib.Data.List.Forall2

/-!
# Which records pass their checks

A record passes its check if every field passes its own, and what is read off it are the values of
the fields. A value that was read passes the check of its field once more when it is written back.

## Main definitions

- `Schema.IsStable` — a check that accepts what it has read when that is written back

## Main statements

- `Checked.seq_eq_valid_iff`, `Checked.entries_eq_valid_iff` — records and tables that pass
- `Schema.isStable_numberBetween`, `Schema.isStable_wholeBetween` — fields within bounds
-/

namespace Cambio

/-! ## Checked values -/

namespace Checked

variable {α β γ : Type} {a : Checked α} {b : β}

theorem andThen_eq_valid_iff {check : α → Checked β} :
    a.andThen check = .valid b ↔ ∃ value, a = .valid value ∧ check value = .valid b := by
  cases a with
  | valid value => exact ⟨fun h => ⟨value, rfl, h⟩, fun ⟨_, rfl, h⟩ => h⟩
  | invalid issues => exact ⟨nofun, nofun⟩

theorem under_eq_valid_iff {name : String} {value : α} :
    a.under name = .valid value ↔ a = .valid value := by
  cases a with
  | valid _ => rfl
  | invalid _ => exact ⟨nofun, nofun⟩

theorem toExcept_eq_ok_iff {title : String} {value : α} :
    a.toExcept title = .ok value ↔ a = .valid value := by
  cases a with
  | valid _ => simp [toExcept]
  | invalid _ => exact ⟨nofun, nofun⟩

theorem ofRule_eq_valid_iff {rule : Except String α} {value : α} :
    ofRule rule = .valid value ↔ rule = .ok value := by
  cases rule with
  | ok _ => simp [ofRule]
  | error _ => exact ⟨nofun, nofun⟩

theorem map_eq_valid_iff {f : α → β} : f <$> a = .valid b ↔ ∃ x, a = .valid x ∧ f x = b := by
  cases a with
  | valid x => exact ⟨fun h => by cases h; exact ⟨x, rfl, rfl⟩, fun ⟨_, rfl, h⟩ => h ▸ rfl⟩
  | invalid issues => exact ⟨nofun, nofun⟩

theorem seq_eq_valid_iff {f : Checked (α → β)} :
    f <*> a = .valid b ↔ ∃ g x, f = .valid g ∧ a = .valid x ∧ g x = b := by
  constructor
  · intro h
    cases f with
    | invalid first => cases a <;> cases h
    | valid g =>
      cases a with
      | invalid second => cases h
      | valid x =>
        cases h
        exact ⟨g, x, rfl, rfl, rfl⟩
  · rintro ⟨g, x, rfl, rfl, rfl⟩
    rfl

theorem map_apply_eq_valid_iff {f : α → β → γ} {b : Checked β} {c : γ} :
    f <$> a <*> b = .valid c ↔ ∃ x y, a = .valid x ∧ b = .valid y ∧ c = f x y := by
  rw [seq_eq_valid_iff]
  constructor
  · rintro ⟨g, y, hg, hb, rfl⟩
    obtain ⟨x, ha, rfl⟩ := map_eq_valid_iff.mp hg
    exact ⟨x, y, ha, hb, rfl⟩
  · rintro ⟨x, y, ha, hb, rfl⟩
    exact ⟨f x, y, map_eq_valid_iff.mpr ⟨x, ha, rfl⟩, hb, rfl⟩

/-! ### Tables -/

theorem entries_eq_valid_iff {check : String → α → Checked β} {es : List (String × α)}
    {bs : List (String × β)} :
    entries check es = .valid bs ↔
      List.Forall₂ (fun b e => b.1 = e.1 ∧ check e.1 e.2 = .valid b.2) bs es := by
  induction es generalizing bs with
  | nil =>
    rw [List.forall₂_nil_right_iff, entries, Checked.valid.injEq]
    exact eq_comm
  | cons entry es ih =>
    obtain ⟨name, a⟩ := entry
    rw [List.forall₂_cons_right_iff, entries]
    constructor
    · intro h
      cases hfirst : check name a with
      | invalid issues =>
        rw [hfirst] at h
        cases hrest : entries check es <;> rw [hrest] at h <;> cases h
      | valid b =>
        cases hrest : entries check es with
        | invalid issues =>
          rw [hfirst, hrest] at h
          cases h
        | valid rest =>
          rw [hfirst, hrest] at h
          cases h
          exact ⟨(name, b), rest, ⟨rfl, rfl⟩, ih.mp hrest, rfl⟩
    · rintro ⟨⟨_, b⟩, rest, ⟨rfl, hfirst⟩, hrest, rfl⟩
      dsimp only at hfirst ⊢
      rw [hfirst, ih.mpr hrest]
      rfl

/-- Entries that were made of others, each of which passes its check. -/
theorem entries_map {check : String → γ → Checked β} {g : α → γ} {f : α → β}
    {es : List (String × α)}
    (h : ∀ entry ∈ es, check entry.1 (g entry.2) = .valid (f entry.2)) :
    entries check (es.map fun entry => (entry.1, g entry.2)) =
      .valid (es.map fun entry => (entry.1, f entry.2)) := by
  rw [entries_eq_valid_iff, List.forall₂_map_left_iff, List.forall₂_map_right_iff,
    List.forall₂_same]
  exact fun entry hentry => ⟨rfl, h entry hentry⟩

theorem entries_self {check : String → α → Checked α} {es : List (String × α)}
    (h : ∀ entry ∈ es, check entry.1 entry.2 = .valid entry.2) :
    entries check es = .valid es := by
  rw [entries_eq_valid_iff, List.forall₂_same]
  exact fun entry hentry => ⟨rfl, h entry hentry⟩

/-- A check that changes no value changes no entry. -/
theorem eq_of_entries {check : String → α → Checked α} {es fs : List (String × α)}
    (hcheck : ∀ name a b, check name a = .valid b → b = a)
    (h : entries check es = .valid fs) : fs = es := by
  have hsame := (entries_eq_valid_iff.mp h).imp fun f e hentry =>
    Prod.ext hentry.1 (hcheck _ _ _ hentry.2)
  rwa [List.forall₂_eq_eq_eq] at hsame

end Checked

/-! ## Fields -/

namespace Schema

variable {α : Type} {ms : List (String × Json)} {name : String} {check : Json → Checked α} {a : α}

theorem members_eq_valid_iff {title : String} {v : Json} :
    members title v = .valid ms ↔ v = .object ms := by
  cases v <;> simp [members, Checked.fault]

theorem required_eq_valid_iff :
    required ms name check = .valid a ↔
      ∃ v, Entries.get? name ms = some v ∧ check v = .valid a := by
  unfold required
  cases Entries.get? name ms with
  | none => exact ⟨nofun, nofun⟩
  | some v =>
    dsimp only
    rw [Checked.under_eq_valid_iff]
    exact ⟨fun h => ⟨v, rfl, h⟩, fun ⟨_, hv, h⟩ => by cases hv; exact h⟩

/-- What is read for a field that may be left out is its default, or it has passed the check. -/
theorem of_optional {default : α} (h : optional ms name default check = .valid a) :
    a = default ∨ ∃ v, check v = .valid a := by
  unfold optional at h
  split at h
  · next v _ => exact .inr ⟨v, Checked.under_eq_valid_iff.mp h⟩
  · cases h
    exact .inl rfl

theorem optional_of_get? {v : Json} (default : α) (hget : Entries.get? name ms = some v)
    (hcheck : check v = .valid a) : optional ms name default check = .valid a := by
  rw [optional, hget]
  exact Checked.under_eq_valid_iff.mpr hcheck

theorem text_eq_valid_iff {v : Json} {s : String} : text v = .valid s ↔ v = .text s := by
  cases v <;> simp [text, Checked.fault]

/-! ### Values that are written back -/

/-- What a check has read it accepts as it is when that is written back. -/
def IsStable (check : Json → Checked α) (write : α → Json) : Prop :=
  ∀ v a, check v = .valid a → check (write a) = .valid a

theorem numberBetween_binary {low high : Nat} {x : Binary64} (hhigh : x.le (.ofNat high) = true)
    (hlow : (Binary64.ofNat low).le x = true) :
    numberBetween low high (.binary x) = .valid x := by
  simp [numberBetween, number, Checked.andThen, hhigh, hlow]

theorem wholeBetween_whole_iff {low high n : Nat} :
    wholeBetween low high (.whole n) = .valid n ↔ low ≤ n ∧ n ≤ high := by
  simp only [wholeBetween, whole, Checked.andThen]
  split_ifs with hhigh hlow
  · exact iff_of_false nofun (by omega)
  · exact iff_of_false nofun (by omega)
  · exact iff_of_true rfl (by omega)

theorem isStable_numberBetween (low high : Nat) :
    IsStable (numberBetween low high) Json.binary := by
  intro v x h
  obtain ⟨y, -, hy⟩ := Checked.andThen_eq_valid_iff.mp h
  have hsame : y = x := by
    split_ifs at hy
    · cases hy
    · cases hy
    · cases hy
      rfl
  subst hsame
  exact hy

theorem isStable_wholeBetween (low high : Nat) :
    IsStable (wholeBetween low high) (fun n => Json.whole n) := by
  intro v n h
  obtain ⟨m, -, hm⟩ := Checked.andThen_eq_valid_iff.mp h
  split_ifs at hm with hhigh hlow
  · cases hm
  · cases hm
  · cases hm
    have hsame : (m.toNat : Int) = m := Int.toNat_of_nonneg (by omega)
    dsimp only
    rw [wholeBetween, hsame, whole, Checked.andThen, if_neg hhigh, if_neg hlow]

/-- A field that is read with its default or off a record passes its check when it is written
    back, if the default does. -/
theorem IsStable.of_optional {write : α → Json} (h : IsStable check write) {default : α}
    (hdefault : check (write default) = .valid default)
    (hread : optional ms name default check = .valid a) : check (write a) = .valid a := by
  rcases Schema.of_optional hread with rfl | ⟨v, hv⟩
  · exact hdefault
  · exact h v a hv

end Schema

end Cambio
