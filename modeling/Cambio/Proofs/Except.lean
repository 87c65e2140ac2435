import Mathlib.Data.List.Forall2

/-!
# Results of readings

A reading that is made of others succeeds exactly if they do, and fails with the first that fails.

## Main definitions

- `Except.GivesIf` — a reading that gives one result under a condition

## Main statements

- `Except.bind_eq_ok_iff`, `Except.map_eq_ok_iff`, `Except.mapError_eq_ok_iff` — one reading after
  another
- `Except.mapM_eq_ok_iff` — the items of a list
- `Except.GivesIf.bind`, `Except.GivesIf.map` — readings under a condition, one after another
-/

namespace Cambio.Except

variable {ε δ α β : Type} {x : Except ε α} {a : α} {b : β}

theorem bind_eq_ok_iff {f : α → Except ε β} :
    x >>= f = .ok b ↔ ∃ a, x = .ok a ∧ f a = .ok b := by
  cases x with
  | error e => exact ⟨nofun, nofun⟩
  | ok a => exact ⟨fun h => ⟨a, rfl, h⟩, fun ⟨_, rfl, h⟩ => h⟩

theorem bind_eq_error_iff {f : α → Except ε β} {e : ε} :
    x >>= f = .error e ↔ x = .error e ∨ ∃ a, x = .ok a ∧ f a = .error e := by
  cases x with
  | error e' =>
    refine ⟨fun h => .inl ?_, ?_⟩
    · cases h
      rfl
    · rintro (h | ⟨a, h, -⟩)
      · cases h
        rfl
      · cases h
  | ok a =>
    refine ⟨fun h => .inr ⟨a, rfl, h⟩, ?_⟩
    rintro (h | ⟨a', hsame, h⟩)
    · cases h
    · cases hsame
      exact h

theorem mapError_eq_error_iff {f : ε → δ} {e : δ} :
    x.mapError f = .error e ↔ ∃ e', x = .error e' ∧ f e' = e := by
  cases x <;> simp [Except.mapError]

theorem map_eq_ok_iff {f : α → β} : x.map f = .ok b ↔ ∃ a, x = .ok a ∧ f a = b := by
  cases x <;> simp [Except.map]

theorem mapError_eq_ok_iff {f : ε → δ} : x.mapError f = .ok a ↔ x = .ok a := by
  cases x <;> simp [Except.mapError]

theorem toOption_eq_some_iff : x.toOption = some a ↔ x = .ok a := by
  cases x <;> simp [Except.toOption]

theorem mapM_eq_ok_iff {f : α → Except ε β} {l : List α} {bs : List β} :
    l.mapM f = .ok bs ↔ List.Forall₂ (fun a b => f a = .ok b) l bs := by
  induction l generalizing bs with
  | nil =>
    rw [List.forall₂_nil_left_iff, List.mapM_nil]
    exact ⟨fun h => by cases h; rfl, fun h => by rw [h]; rfl⟩
  | cons a l ih =>
    rw [List.forall₂_cons_left_iff, List.mapM_cons, bind_eq_ok_iff]
    constructor
    · rintro ⟨b, hfirst, hmore⟩
      obtain ⟨rest, hrest, hlist⟩ := bind_eq_ok_iff.mp hmore
      cases hlist
      exact ⟨b, rest, hfirst, ih.mp hrest, rfl⟩
    · rintro ⟨b, rest, hfirst, hrest, rfl⟩
      exact ⟨b, hfirst, bind_eq_ok_iff.mpr ⟨rest, ih.mpr hrest, rfl⟩⟩

/-! ## Results under a condition -/

/-- A reading that gives one result under a condition, and fails otherwise. -/
def GivesIf (x : Except ε α) (P : Prop) (a : α) : Prop :=
  ∀ r, x = .ok r ↔ P ∧ r = a

namespace GivesIf

variable {P Q : Prop}

theorem ok (h : P) : GivesIf (.ok a : Except ε α) P a :=
  fun _ => ⟨fun hr => ⟨h, (Except.ok.inj hr).symm⟩, fun hr => congrArg _ hr.2.symm⟩

theorem error {e : ε} (h : ¬ P) : GivesIf (.error e) P a :=
  fun _ => iff_of_false nofun fun hr => h hr.1

theorem bind {f : α → Except ε β} (h : GivesIf x P a) (hf : GivesIf (f a) Q b) :
    GivesIf (x >>= f) (P ∧ Q) b := by
  intro r
  rw [bind_eq_ok_iff]
  constructor
  · rintro ⟨a', hx, hr⟩
    obtain ⟨hP, rfl⟩ := (h a').mp hx
    obtain ⟨hQ, rfl⟩ := (hf r).mp hr
    exact ⟨⟨hP, hQ⟩, rfl⟩
  · rintro ⟨⟨hP, hQ⟩, rfl⟩
    exact ⟨a, (h a).mpr ⟨hP, rfl⟩, (hf r).mpr ⟨hQ, rfl⟩⟩

theorem map (h : GivesIf x P a) (f : α → β) : GivesIf (x.map f) P (f a) := by
  intro r
  rw [map_eq_ok_iff]
  constructor
  · rintro ⟨a', hx, rfl⟩
    obtain ⟨hP, rfl⟩ := (h a').mp hx
    exact ⟨hP, rfl⟩
  · rintro ⟨hP, rfl⟩
    exact ⟨a, (h a).mpr ⟨hP, rfl⟩, rfl⟩

end GivesIf

end Cambio.Except
