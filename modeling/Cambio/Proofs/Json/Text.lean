import Cambio.Json.Reader
import Cambio.Json.Writer
import Cambio.Proofs.Text.Encoding
import Mathlib.Data.List.Chain

/-!
# Texts of a document, read back

A style tells which characters stand for themselves; another one is written by its code units. The
reader takes two units that stand side by side for one character when they are the halves of a pair.
So in basic characters a text comes back unless it holds the halves of a pair side by side, and
where all characters but the controls stand for themselves, every text comes back.

## Main definitions

- `Json.units` — the code units of a character, `Json.styledUnits` as they are written in a style
- `Json.IsJoined` — the halves of no pair stand side by side
- `Json.ReadsText` — a text that is read back from what is written for it

## Main statements

- `Json.readUnits_writeChar` — one character, read back
- `Json.joinUnits_flatMap_units`, `Json.joinUnits_flatMap_plain` — the characters of code units
- `Json.readsText_basic`, `Json.readsText_plain` — texts, read back
-/

namespace Cambio

namespace Text

theorem hexValue?_hexDigit {k : Nat} (h : k < 16) : hexValue? (hexDigit k) = some k := by
  have hall : (List.range 16).all (fun k => hexValue? (hexDigit k) = some k) = true := by decide
  exact of_decide_eq_true (List.all_eq_true.mp hall k (List.mem_range.mpr h))

end Text

namespace Json

variable {style : Style} {c e : Char} {s rest : List Char} {start n : Nat}

/-! ## Code units -/

/-- The code point that is written for a character. -/
def point (c : Char) : Nat :=
  (Text.half? c).getD c.toNat

/-- The code units that are written for a character. -/
def units (c : Char) : List Nat :=
  if point c < 0x10000 then [point c]
  else [0xD800 + (point c - 0x10000) / 0x400, 0xDC00 + (point c - 0x10000) % 0x400]

theorem point_lt (c : Char) : point c < 0x110000 := by
  have hvalid := Text.toNat_valid c
  unfold point
  cases hhalf : Text.half? c with
  | some n =>
    obtain ⟨-, -, hlast⟩ := Text.half?_eq_some_iff.mp hhalf
    unfold Text.lastHalf at hlast
    rw [Option.getD_some]
    omega
  | none =>
    rw [Option.getD_none]
    omega

/-- A surrogate is written only for a character that is kept for it. -/
theorem half?_of_point (hfirst : 0xD800 ≤ point c) (hlast : point c ≤ 0xDFFF) :
    Text.half? c = some (point c) := by
  have hvalid := Text.toNat_valid c
  unfold point at hfirst hlast ⊢
  cases hhalf : Text.half? c with
  | some n => rfl
  | none =>
    rw [hhalf, Option.getD_none] at hfirst hlast
    omega

theorem point_of_lt (h : c.toNat < 0x10000) : point c = c.toNat := by
  unfold point
  cases hhalf : Text.half? c with
  | some n =>
    obtain ⟨hc, -⟩ := Text.half?_eq_some_iff.mp hhalf
    unfold Text.halfDistance at hc
    omega
  | none => rfl

theorem units_of_lt (h : c.toNat < 0x10000) : units c = [c.toNat] := by
  unfold units
  rw [point_of_lt h, if_pos h]

/-- The code units that are written for a character in a style. -/
def styledUnits (style : Style) (c : Char) : List Nat :=
  if style.isPlain c then [c.toNat] else units c

theorem styledUnits_of_lt (style : Style) (h : c.toNat < 0x10000) :
    styledUnits style c = [c.toNat] := by
  rw [styledUnits, units_of_lt h, ite_self]

theorem styledUnits_basic : styledUnits basic = units := by
  funext c
  unfold styledUnits
  split
  · next hplain =>
    obtain ⟨-, hhigh⟩ : 0x20 ≤ c.toNat ∧ c.toNat < 0x7F := by simpa [basic] using hplain
    rw [units_of_lt (by omega)]
  · rfl

theorem styledUnits_plain (c : Char) : styledUnits plain c = [c.toNat] := by
  by_cases hplain : 0x20 ≤ c.toNat
  · exact if_pos (decide_eq_true hplain)
  · exact styledUnits_of_lt plain (by omega)

/-! ## Reading code units -/

/-- What is read, with code units before it. -/
def before (ns : List Nat) (read : Except Stop (List Nat × List Char)) :
    Except Stop (List Nat × List Char) :=
  read.map fun (more, rest) => (ns ++ more, rest)

theorem before_before (ns more : List Nat) (read : Except Stop (List Nat × List Char)) :
    before ns (before more read) = before (ns ++ more) read := by
  cases read with
  | error stop => rfl
  | ok r => simp [before, Except.map]

theorem hexUnit?_hexDigits (h : n < 0x10000) :
    hexUnit? (Text.hexDigit (n / 16 / 16 / 16 % 16)) (Text.hexDigit (n / 16 / 16 % 16))
      (Text.hexDigit (n / 16 % 16)) (Text.hexDigit (n % 16)) = some n := by
  unfold hexUnit?
  rw [Text.hexValue?_hexDigit (Nat.mod_lt _ (by decide)),
    Text.hexValue?_hexDigit (Nat.mod_lt _ (by decide)),
    Text.hexValue?_hexDigit (Nat.mod_lt _ (by decide)),
    Text.hexValue?_hexDigit (Nat.mod_lt _ (by decide))]
  show some (((n / 16 / 16 / 16 % 16 * 16 + n / 16 / 16 % 16) * 16 + n / 16 % 16) * 16 + n % 16) =
    some n
  congr 1
  omega

theorem readUnits_unitEscape (h : n < 0x10000) (start : Nat) (e : Char) (s : List Char) :
    readUnits start (unitEscape n ++ e :: s) = before [n] (readUnits start (e :: s)) := by
  have hunit := hexUnit?_hexDigits h
  show readUnits start ('\\' :: 'u' :: Text.hexDigit (n / 16 / 16 / 16 % 16) ::
    Text.hexDigit (n / 16 / 16 % 16) :: Text.hexDigit (n / 16 % 16) :: Text.hexDigit (n % 16) ::
    e :: s) = _
  rw [readUnits, hunit]
  rfl

theorem readUnits_shortEscape (hc : c ≠ 'u') (hshort : shortEscape? c = some n) (start : Nat)
    (s : List Char) :
    readUnits start ('\\' :: c :: s) = before [n] (readUnits start s) := by
  rw [readUnits]
  · rw [if_neg hc, hshort]
    rfl
  · intro _ _ _ _ _ _ hu
    exact absurd hu hc

theorem readUnits_plain (hquote : c ≠ '"') (hslash : c ≠ '\\') (hplain : 0x20 ≤ c.toNat)
    (start : Nat) (s : List Char) :
    readUnits start (c :: s) = before [c.toNat] (readUnits start s) := by
  rw [readUnits]
  · rw [if_neg (by omega)]
    rfl
  · exact hquote
  · intro hc _
    exact hslash hc
  · intro _ _ _ _ _ _ hc
    exact absurd hc hslash
  · intro _ _ hc
    exact absurd hc hslash

/-- One character of a text, read back as its code units. The text goes on, at least up to its
    closing quote. -/
theorem readUnits_writeChar (hcontrols : ∀ d, style.isPlain d = true → 0x20 ≤ d.toNat)
    (start : Nat) (c e : Char) (s : List Char) :
    readUnits start (writeChar style c ++ e :: s) =
      before (styledUnits style c) (readUnits start (e :: s)) := by
  have hshort (d : Char) (hc : c.toNat < 0x10000) (hd : d ≠ 'u')
      (hescape : shortEscape? d = some c.toNat) :
      readUnits start (['\\', d] ++ e :: s) =
        before (styledUnits style c) (readUnits start (e :: s)) := by
    rw [styledUnits_of_lt style hc]
    exact readUnits_shortEscape hd hescape start (e :: s)
  unfold writeChar
  split_ifs with hquote hslash hline hreturn htab hback hform hplain
  · exact hshort '"' (by rw [hquote]; decide) (by decide) (by rw [hquote]; decide)
  · exact hshort '\\' (by rw [hslash]; decide) (by decide) (by rw [hslash]; decide)
  · exact hshort 'n' (by rw [hline]; decide) (by decide) (by rw [hline]; decide)
  · exact hshort 'r' (by rw [hreturn]; decide) (by decide) (by rw [hreturn]; decide)
  · exact hshort 't' (by rw [htab]; decide) (by decide) (by rw [htab]; decide)
  · exact hshort 'b' (by omega) (by decide) (by rw [hback]; decide)
  · exact hshort 'f' (by omega) (by decide) (by rw [hform]; decide)
  · rw [styledUnits, if_pos hplain]
    exact readUnits_plain hquote hslash (hcontrols c hplain) start (e :: s)
  · rw [styledUnits, if_neg hplain]
    show readUnits start ((if point c < 0x10000 then unitEscape (point c)
      else unitEscape (0xD800 + (point c - 0x10000) / 0x400) ++
        unitEscape (0xDC00 + (point c - 0x10000) % 0x400)) ++ e :: s) = _
    have hlt := point_lt c
    by_cases hpoint : point c < 0x10000
    · rw [if_pos hpoint, units, if_pos hpoint]
      exact readUnits_unitEscape hpoint start e s
    · -- The second escape follows the first, so the text goes on after that as well.
      have hsecond := readUnits_unitEscape (n := 0xDC00 + (point c - 0x10000) % 0x400) (by omega)
        start e s
      have hfirst := readUnits_unitEscape (n := 0xD800 + (point c - 0x10000) / 0x400) (by omega)
        start '\\' ('u' :: Text.hexDigits 4 (0xDC00 + (point c - 0x10000) % 0x400) ++ e :: s)
      rw [if_neg hpoint, List.append_assoc, units, if_neg hpoint]
      exact hfirst.trans ((congrArg _ hsecond).trans (before_before _ _ _))

theorem readUnits_flatMap_writeChar (hcontrols : ∀ d, style.isPlain d = true → 0x20 ≤ d.toNat)
    (start : Nat) (s rest : List Char) :
    readUnits start (s.flatMap (writeChar style) ++ '"' :: rest) =
      .ok (s.flatMap (styledUnits style), rest) := by
  induction s with
  | nil => rfl
  | cons c s ih =>
    rw [List.flatMap_cons, List.flatMap_cons, List.append_assoc]
    obtain ⟨e, more, hmore⟩ :
        ∃ e more, s.flatMap (writeChar style) ++ '"' :: rest = e :: more :=
      List.exists_cons_of_ne_nil (by simp)
    rw [hmore, readUnits_writeChar hcontrols, ← hmore, ih]
    rfl

/-! ## Joining code units -/

/-- A character that is kept for the first half of a pair. -/
def isFirst (c : Char) : Bool :=
  (Text.half? c).any (· ≤ 0xDBFF)

/-- A character that is kept for the second half of a pair. -/
def isSecond (c : Char) : Bool :=
  (Text.half? c).any (0xDC00 ≤ ·)

/-- A text in which the halves of no pair stand side by side. -/
def IsJoined (s : List Char) : Prop :=
  s.IsChain fun a b => ¬(isFirst a = true ∧ isSecond b = true)

instance (s : List Char) : Decidable (IsJoined s) :=
  inferInstanceAs (Decidable (s.IsChain _))

/-- A text that keeps no halves of pairs. -/
theorem isJoined_of_forall (h : ∀ c ∈ s, c.toNat < Text.halfDistance) : IsJoined s := by
  induction s with
  | nil => exact .nil
  | cons c s ih =>
    have hs : IsJoined s := ih fun e he => h e (List.mem_cons_of_mem c he)
    cases s with
    | nil => exact .singleton c
    | cons e s =>
      refine .cons_cons ?_ hs
      rintro ⟨hfirst, -⟩
      have hlt := h c List.mem_cons_self
      have hnone : Text.half? c = none := if_neg (by omega)
      rw [isFirst, hnone] at hfirst
      cases hfirst

theorem units_ne_nil (c : Char) : units c ≠ [] := by
  unfold units
  split_ifs <;> simp

/-- The code units of a character start with the second half of a pair only if the character is
    kept for it. -/
theorem isSecond_of_units {more : List Nat} (h : units c = n :: more) (hlow : 0xDC00 ≤ n)
    (hhigh : n ≤ 0xDFFF) : isSecond c = true := by
  have hlt := point_lt c
  unfold units at h
  split_ifs at h
  · obtain ⟨rfl, -⟩ := List.cons.inj h
    rw [isSecond, half?_of_point (by omega) hhigh]
    exact decide_eq_true hlow
  · obtain ⟨hn, -⟩ := List.cons.inj h
    omega

theorem joinUnits_cons_of_halves {a b : Nat}
    (h : 0xD800 ≤ a ∧ a ≤ 0xDBFF ∧ 0xDC00 ≤ b ∧ b ≤ 0xDFFF)
    (hn : 0x10000 + (a - 0xD800) * 0x400 + (b - 0xDC00) = n) (more : List Nat) :
    joinUnits (a :: b :: more) = Text.charOfPoint n :: joinUnits more := by
  rw [joinUnits, if_pos h, hn]

theorem joinUnits_cons_of_not {a b : Nat}
    (h : ¬(0xD800 ≤ a ∧ a ≤ 0xDBFF ∧ 0xDC00 ≤ b ∧ b ≤ 0xDFFF)) (more : List Nat) :
    joinUnits (a :: b :: more) = Text.charOfPoint a :: joinUnits (b :: more) := by
  rw [joinUnits, if_neg h]

/-- The characters of the code units of a text are the text. -/
theorem joinUnits_flatMap_units (h : IsJoined s) : joinUnits (s.flatMap units) = s := by
  induction s with
  | nil => rfl
  | cons c s ih =>
    have hlt := point_lt c
    have htail : joinUnits (s.flatMap units) = s := ih (List.IsChain.tail h)
    rw [List.flatMap_cons]
    by_cases hpoint : point c < 0x10000
    · rw [units, if_pos hpoint, List.singleton_append]
      cases s with
      | nil =>
        show [Text.charOfPoint (point c)] = [c]
        rw [point, Text.charOfPoint_half?]
      | cons e s =>
        obtain ⟨n, more, hunits⟩ := List.exists_cons_of_ne_nil (units_ne_nil e)
        have hpair : ¬(0xD800 ≤ point c ∧ point c ≤ 0xDBFF ∧ 0xDC00 ≤ n ∧ n ≤ 0xDFFF) := by
          rintro ⟨hlow, hhigh, hsecond, hlast⟩
          have hfirst : isFirst c = true := by
            rw [isFirst, half?_of_point hlow (by omega)]
            exact decide_eq_true hhigh
          exact (List.isChain_cons_cons.mp h).1 ⟨hfirst, isSecond_of_units hunits hsecond hlast⟩
        rw [List.flatMap_cons, hunits, List.cons_append] at htail ⊢
        rw [joinUnits_cons_of_not hpair, htail, point, Text.charOfPoint_half?]
    · rw [units, if_neg hpoint, List.cons_append, List.cons_append, List.nil_append,
        joinUnits_cons_of_halves (n := point c) (by omega) (by omega), htail, point,
        Text.charOfPoint_half?]

/-- No character is half of a pair, so those that stand for themselves are never joined. -/
theorem joinUnits_flatMap_plain (s : List Char) :
    joinUnits (s.flatMap (styledUnits plain)) = s := by
  induction s with
  | nil => rfl
  | cons c s ih =>
    rw [List.flatMap_cons, styledUnits_plain, List.singleton_append]
    cases s with
    | nil =>
      show [Text.charOfPoint c.toNat] = [c]
      rw [Text.charOfPoint_toNat]
    | cons e s =>
      have hvalid := Text.toNat_valid c
      rw [List.flatMap_cons, styledUnits_plain, List.singleton_append] at ih ⊢
      rw [joinUnits_cons_of_not (by omega), ih, Text.charOfPoint_toNat]

/-! ## Texts -/

/-- A text is read back, after its opening quote, from what is written for it in a style. -/
def ReadsText (style : Style) (t : String) : Prop :=
  ∀ rest, readText (t.toList.flatMap (writeChar style) ++ '"' :: rest) = .ok (t, rest)

/-- A text without the halves of a pair side by side, in basic characters. -/
theorem readsText_basic {t : String} (h : IsJoined t.toList) : ReadsText basic t := by
  intro rest
  have hcontrols : ∀ d, basic.isPlain d = true → 0x20 ≤ d.toNat := by
    intro d hd
    have hbounds : 0x20 ≤ d.toNat ∧ d.toNat < 0x7F := by simpa [basic] using hd
    exact hbounds.1
  rw [readText, readUnits_flatMap_writeChar hcontrols, styledUnits_basic]
  show Except.ok (String.ofList (joinUnits (t.toList.flatMap units)), rest) = _
  rw [joinUnits_flatMap_units h, String.ofList_toList]

/-- Any text, where all characters but the controls stand for themselves. -/
theorem readsText_plain (t : String) : ReadsText plain t := by
  intro rest
  rw [readText, readUnits_flatMap_writeChar fun d hd => of_decide_eq_true hd]
  show Except.ok (String.ofList (joinUnits (t.toList.flatMap (styledUnits plain))), rest) = _
  rw [joinUnits_flatMap_plain, String.ofList_toList]

end Json

end Cambio
