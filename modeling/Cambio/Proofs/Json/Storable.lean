import Cambio.Proofs.Json.Document

/-!
# Values that a document holds as they are

Texts, finite numbers of the format, whole numbers with few enough digits, and lists and objects of
these are read back, where all characters but the controls stand for themselves.

## Main definitions

- `Json.IsStorable` — a value that every document holds as it is

## Main statements

- `Json.readsBack_of_isStorable` — storable values are read back
- `Json.read_writeIndented_of_isStorable` — and so is a document of them
-/

namespace Cambio.Json

open Decimal (isBasicDigit)

variable {style : Style} {rule : NumberRule} {c : Char} {v : Json} {level depth : Nat}
  {ms : List (String × Json)}

/-! ## Scalars -/

/-- What starts a value that is neither a text nor a list nor an object. -/
structure StartsScalar (c : Char) : Prop where
  isSpace : Json.isSpace c = false
  ne_quote : c ≠ '"'
  ne_bracket : c ≠ '['
  ne_brace : c ≠ '\x7b'

theorem startsScalar_of_sign_or_digit (h : c = '-' ∨ isBasicDigit c = true) : StartsScalar c := by
  rcases h with rfl | hdigit
  · exact ⟨by decide, by decide, by decide, by decide⟩
  · have hne (d : Char) (hd : isBasicDigit d = false) : c ≠ d := by
      rintro rfl
      rw [hdigit] at hd
      cases hd
    refine ⟨?_, hne _ (by decide), hne _ (by decide), hne _ (by decide)⟩
    simp [isSpace, hne ' ' (by decide), hne '\t' (by decide), hne '\n' (by decide),
      hne '\r' (by decide)]

theorem readsBack_of_readScalar {more : List Char} (hwrite : writeAt style level v = c :: more)
    (hc : StartsScalar c)
    (hread : ∀ rest, EndsNumber rest → readScalar rule (c :: more ++ rest) = .ok (v, rest))
    (depth : Nat) : ReadsBack style rule level depth v := by
  intro fuel rest hrest hfuel
  rw [hwrite] at hfuel ⊢
  obtain ⟨fuel, rfl⟩ : ∃ n, fuel = n + 1 := ⟨fuel - 1, by simp at hfuel; omega⟩
  rw [List.cons_append, skip_cons hc.isSpace, readValue]
  · exact hread rest hrest
  · exact fun _ hquote => hc.ne_quote (List.cons.inj hquote).1
  · exact fun _ hbracket => hc.ne_bracket (List.cons.inj hbracket).1
  · exact fun _ hbrace => hc.ne_brace (List.cons.inj hbrace).1

/-- What is written for a number starts with its sign or with a digit. -/
theorem readsBack_number {ds tail : List Char} {negative : Bool}
    (hwrite : writeAt style level v = Decimal.signText negative ++ (ds ++ tail)) (hnil : ds ≠ [])
    (hds : ∀ c ∈ ds, isBasicDigit c = true)
    (hread : ∀ rest, EndsNumber rest →
      readScalar rule (writeAt style level v ++ rest) = .ok (v, rest)) (depth : Nat) :
    ReadsBack style rule level depth v := by
  obtain ⟨c, more, rfl⟩ := List.exists_cons_of_ne_nil hnil
  cases negative with
  | true =>
    change _ = '-' :: (c :: more ++ tail) at hwrite
    rw [hwrite] at hread
    exact readsBack_of_readScalar hwrite (startsScalar_of_sign_or_digit (.inl rfl)) hread depth
  | false =>
    change _ = c :: (more ++ tail) at hwrite
    have hc : isBasicDigit c = true := hds c List.mem_cons_self
    rw [hwrite] at hread
    exact readsBack_of_readScalar hwrite (startsScalar_of_sign_or_digit (.inr hc)) hread depth

theorem readsBack_whole {n : Int} (h : Decimal.digitCount n.natAbs ≤ digitLimit) (style : Style)
    (level depth : Nat) : ReadsBack style .nearest level depth (.whole n) := by
  have hwrite : writeAt style level (.whole n) = (toString n).toList := by
    rw [writeAt, writeScalar]
    all_goals simp
  have hparts : writeAt style level (.whole n) =
      Decimal.signText (decide (n < 0)) ++ (Decimal.digits n.natAbs ++ []) := by
    rw [hwrite, toList_toString, List.append_nil]
  refine readsBack_number hparts (Decimal.digits_ne_nil n.natAbs)
    (fun _ => Decimal.isBasicDigit_of_mem_digits) ?_ depth
  rw [hwrite]
  exact fun rest hrest => readScalar_whole h hrest

theorem readsBack_binary {x : Binary64} (h : x.IsNumber) (style : Style) (level depth : Nat) :
    ReadsBack style .nearest level depth (.binary x) := by
  have hwrite : writeAt style level (.binary x) = x.write style.numbers := by
    rw [writeAt, writeScalar]
    all_goals simp
  cases x with
  | finite negative m e =>
    obtain ⟨n, htext, -⟩ := Binary64.exists_notated style.numbers h
    obtain ⟨tail, htail⟩ := n.numeral.exists_body
    have hparts : writeAt style level (.binary (.finite negative m e)) =
        Decimal.signText n.numeral.negative ++ (n.numeral.whole ++
          (tail ++ n.power.elim [] (Binary64.powerText style.numbers))) := by
      rw [hwrite, ← htext, Binary64.Notated.text, Decimal.Numeral.text, htail, List.append_assoc,
        List.append_assoc]
    refine readsBack_number hparts n.isTidy.whole
      (fun _ => n.numeral.isBasicDigit_of_mem_whole) ?_ depth
    rw [hwrite]
    exact fun rest hrest => readScalar_binary h hrest
  | infinite | nan => cases h

theorem readsBack_null (style : Style) (rule : NumberRule) (level depth : Nat) :
    ReadsBack style rule level depth .null := by
  have hwrite : writeAt style level .null = "null".toList := by
    rw [writeAt, writeScalar]
    all_goals simp
  exact readsBack_of_readScalar hwrite ⟨by decide, by decide, by decide, by decide⟩
    (fun rest _ => readScalar_null rule rest) depth

theorem readsBack_bool (b : Bool) (style : Style) (rule : NumberRule) (level depth : Nat) :
    ReadsBack style rule level depth (.bool b) := by
  have hwrite : writeAt style level (.bool b) = writeScalar style (.bool b) := by
    rw [writeAt]
    all_goals simp
  cases b with
  | true =>
    exact readsBack_of_readScalar (hwrite.trans rfl) ⟨by decide, by decide, by decide, by decide⟩
      (fun rest _ => readScalar_bool rule true style rest) depth
  | false =>
    exact readsBack_of_readScalar (hwrite.trans rfl) ⟨by decide, by decide, by decide, by decide⟩
      (fun rest _ => readScalar_bool rule false style rest) depth

/-! ## Storable values -/

/-- A value that every document holds as it is: its numbers are numbers of the format, or whole with
    few enough digits, the names of an object are all different, and lists and objects are no more
    than some levels deep. -/
inductive IsStorable : Nat → Json → Prop
  | null (depth : Nat) : IsStorable depth .null
  | bool (depth : Nat) (b : Bool) : IsStorable depth (.bool b)
  | whole (depth : Nat) {n : Int} (h : Decimal.digitCount n.natAbs ≤ digitLimit) :
    IsStorable depth (.whole n)
  | binary (depth : Nat) {x : Binary64} (h : x.IsNumber) : IsStorable depth (.binary x)
  | text (depth : Nat) (s : String) : IsStorable depth (.text s)
  | list {depth : Nat} {vs : List Json} (h : ∀ v ∈ vs, IsStorable depth v) :
    IsStorable (depth + 1) (.list vs)
  | object {depth : Nat} {ms : List (String × Json)} (names : (Entries.names ms).Nodup)
    (h : ∀ m ∈ ms, IsStorable depth m.2) : IsStorable (depth + 1) (.object ms)

/-- **A storable value is read back**, where all characters but the controls stand for
    themselves. -/
theorem readsBack_of_isStorable (h : IsStorable depth v) (level : Nat) :
    ReadsBack plain .nearest level depth v := by
  induction h generalizing level with
  | null depth => exact readsBack_null plain .nearest level depth
  | bool depth b => exact readsBack_bool b plain .nearest level depth
  | whole depth h => exact readsBack_whole h plain level depth
  | binary depth h => exact readsBack_binary h plain level depth
  | text depth s => exact readsBack_text (readsText_plain s) .nearest level depth
  | list _ ih => exact readsBack_list fun v hv => ih v hv (level + 1)
  | object names _ ih =>
    exact readsBack_object names fun m hm => ⟨readsText_plain m.1, ih m hm (level + 1)⟩

theorem read_writeIndented_of_isStorable (h : IsStorable depthLimit (.object ms)) :
    read .nearest (writeIndented plain (.object ms)) = .ok (.object ms) :=
  read_writeIndented (readsBack_of_isStorable h 0)

end Cambio.Json
