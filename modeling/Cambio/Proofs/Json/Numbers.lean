import Cambio.Json.Reader
import Cambio.Proofs.Decimal.Numeral
import Cambio.Proofs.Entries
import Cambio.Proofs.Except
import Mathlib.Data.List.TakeWhile

/-!
# Numbers of a document

The exact reader takes no number that a decimal cannot hold: a whole number has few enough digits,
and the power of ten of any other one is in range. This holds of every value inside a document, on
the way from the number up through lists and objects.

## Main definitions

- `Json.HoldsNumbers` — a value of which every number is held by a decimal

## Main statements

- `Json.holdsNumbers_read` — every document that is read
-/

namespace Cambio.Json

/-- Every number in a value is held by a decimal. A floating-point number need not be. -/
inductive HoldsNumbers : Json → Prop
  | null : HoldsNumbers .null
  | bool (b : Bool) : HoldsNumbers (.bool b)
  | whole {n : Int} (h : (Decimal.ofInt n).IsHeld) : HoldsNumbers (.whole n)
  | decimal {d : Decimal} (h : d.IsHeld) : HoldsNumbers (.decimal d)
  | binary (x : Binary64) : HoldsNumbers (.binary x)
  | text (s : String) : HoldsNumbers (.text s)
  | list {vs : List Json} (h : ∀ v ∈ vs, HoldsNumbers v) : HoldsNumbers (.list vs)
  | object {ms : List (String × Json)} (h : ∀ m ∈ ms, HoldsNumbers m.2) : HoldsNumbers (.object ms)

variable {s rest : List Char} {v : Json} {fuel depth : Nat}

/-! ## Scalars -/

theorem isHeld_ofInt {n : Int} {k : Nat} (hk : k ≤ digitLimit) (h : n.natAbs < 10 ^ k) :
    (Decimal.ofInt n).IsHeld := by
  have hcount : Decimal.digitCount n.natAbs ≤ digitLimit :=
    (Decimal.digitCount_le_iff (by decide)).mpr
      (lt_of_lt_of_le h (Nat.pow_le_pow_right (by decide) hk))
  have hlimit : digitLimit = 4300 := rfl
  refine ⟨?_, by decide⟩
  rw [Decimal.adjusted, Decimal.widestExponent]
  split <;> omega

theorem natAbs_signed (negative : Bool) (n : Nat) :
    (if negative = true then -(n : Int) else n).natAbs = n := by
  cases negative <;> simp

theorem isBasicDigit_of_takeWhole? {units : List Char} (h : takeWhole? s = some (units, rest)) :
    ∀ c ∈ units, Decimal.isBasicDigit c = true := by
  unfold takeWhole? at h
  split at h
  · cases h
    intro c hc
    rw [List.mem_singleton.mp hc]
    decide
  · dsimp only at h
    split at h
    · cases h
    · cases h
      exact fun c hc => List.mem_takeWhile_imp hc

theorem holdsNumbers_readNumber (h : readNumber .exact s = .ok (v, rest)) : v.HoldsNumbers := by
  unfold readNumber at h
  dsimp only at h
  split at h
  · cases h
  · next units after hunits =>
    split at h
    · split at h
      · cases h
      · next hlength =>
        cases h
        refine .whole (isHeld_ofInt (Nat.le_of_not_lt hlength) ?_)
        rw [natAbs_signed]
        exact Decimal.digitsValue_lt (isBasicDigit_of_takeWhole? hunits)
    · split at h
      · next hbounded =>
        cases h
        exact .decimal (Decimal.bounded_eq_ok_iff.mp hbounded).2
      · cases h

theorem holdsNumbers_constants : ∀ entry ∈ constants, entry.2.HoldsNumbers := by
  unfold constants
  simp only [List.forall_mem_cons]
  exact ⟨.null, .bool _, .bool _, .binary _, .binary _, .binary _, by simp⟩

theorem holdsNumbers_readScalar (h : readScalar .exact s = .ok (v, rest)) : v.HoldsNumbers := by
  unfold readScalar at h
  split at h
  · next hfind =>
    cases h
    exact holdsNumbers_constants _ (List.mem_of_find?_eq_some hfind)
  · exact holdsNumbers_readNumber h

/-! ## Values -/

/-- What is read with some fuel: values, items and members. -/
structure HoldsAt (fuel : Nat) : Prop where
  value : ∀ {depth s v rest}, readValue .exact fuel depth s = .ok (v, rest) → v.HoldsNumbers
  items : ∀ {depth s vs rest}, readItems .exact fuel depth s = .ok (vs, rest) →
    ∀ v ∈ vs, v.HoldsNumbers
  members : ∀ {depth s ms rest}, readMembers .exact fuel depth s = .ok (ms, rest) →
    ∀ m ∈ ms, m.2.HoldsNumbers

theorem HoldsAt.readValue (h : HoldsAt fuel)
    (hread : Json.readValue .exact (fuel + 1) depth s = .ok (v, rest)) : v.HoldsNumbers := by
  unfold Json.readValue at hread
  split at hread
  · obtain ⟨⟨t, after⟩, -, heq⟩ := Except.map_eq_ok_iff.mp hread
    cases heq
    exact .text t
  · split at hread
    · cases hread
    · split at hread
      · cases hread
        exact .list nofun
      · obtain ⟨⟨vs, after⟩, hitems, heq⟩ := Except.map_eq_ok_iff.mp hread
        cases heq
        exact .list (h.items hitems)
  · split at hread
    · cases hread
    · split at hread
      · cases hread
        exact .object nofun
      · obtain ⟨⟨ms, after⟩, hmembers, heq⟩ := Except.map_eq_ok_iff.mp hread
        cases heq
        exact .object fun m hm => h.members hmembers m (Entries.mem_of_mem_ofPairs hm)
  · exact holdsNumbers_readScalar hread

theorem HoldsAt.readItems (h : HoldsAt fuel) {vs : List Json}
    (hread : Json.readItems .exact (fuel + 1) depth s = .ok (vs, rest)) :
    ∀ v ∈ vs, v.HoldsNumbers := by
  unfold Json.readItems at hread
  split at hread
  · cases hread
  · next first after hfirst =>
    have hheld := h.value hfirst
    split at hread
    · cases hread
      exact List.forall_mem_singleton.mpr hheld
    · obtain ⟨⟨more, end_⟩, hmore, heq⟩ := Except.map_eq_ok_iff.mp hread
      cases heq
      exact List.forall_mem_cons.mpr ⟨hheld, h.items hmore⟩
    · cases hread

theorem HoldsAt.readMembers (h : HoldsAt fuel) {ms : List (String × Json)}
    (hread : Json.readMembers .exact (fuel + 1) depth s = .ok (ms, rest)) :
    ∀ m ∈ ms, m.2.HoldsNumbers := by
  unfold Json.readMembers at hread
  split at hread
  · split at hread
    · cases hread
    · split at hread
      · split at hread
        · cases hread
        · next first after hfirst =>
          have hheld := h.value hfirst
          split at hread
          · cases hread
            exact List.forall_mem_singleton.mpr hheld
          · obtain ⟨⟨more, end_⟩, hmore, heq⟩ := Except.map_eq_ok_iff.mp hread
            cases heq
            exact List.forall_mem_cons.mpr ⟨hheld, h.members hmore⟩
          · cases hread
      · cases hread
  · cases hread

theorem holdsAt (fuel : Nat) : HoldsAt fuel := by
  -- The three readers call each other with less fuel, so one induction carries them all.
  induction fuel with
  | zero =>
    constructor
    · intro depth s v rest h
      rw [readValue] at h
      cases h
    · intro depth s vs rest h
      rw [readItems] at h
      cases h
    · intro depth s ms rest h
      rw [readMembers] at h
      cases h
  | succ fuel ih => exact ⟨ih.readValue, ih.readItems, ih.readMembers⟩

theorem holdsNumbers_readDocument (h : readDocument .exact s = .ok v) : v.HoldsNumbers := by
  unfold readDocument at h
  split at h
  · cases h
  · next hvalue =>
    split at h
    · cases h
      exact (holdsAt _).value hvalue
    · cases h

/-- The numbers of every document that is read are held. -/
theorem holdsNumbers_read (h : read .exact s = .ok v) : v.HoldsNumbers := by
  unfold read at h
  split at h
  · cases h
  · exact holdsNumbers_readDocument (Except.mapError_eq_ok_iff.mp h)

theorem holdsNumbers_readBytes {bytes : List UInt8} (h : readBytes .exact bytes = .ok v) :
    v.HoldsNumbers := by
  unfold readBytes at h
  split at h
  · cases h
  · exact holdsNumbers_readDocument (Except.mapError_eq_ok_iff.mp h)

end Cambio.Json
