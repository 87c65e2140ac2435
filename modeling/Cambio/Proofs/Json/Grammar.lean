import Cambio.Proofs.Except
import Cambio.Proofs.Json.Document
import Cambio.Proofs.Json.Numbers
import Mathlib.Data.List.TakeWhile

/-!
# The grammar of documents

A document is written in a grammar that does not mention its reader: constants, numbers by their
digits, texts with their escapes, lists and objects with blanks between their parts. The syntax tree
keeps every number as it is written and every member of an object, also those whose names are
repeated. The value of a tree follows from it by recursion.

## Main definitions

- `Json.Constant`, `Json.Form` — the syntax trees, `Json.Form.value` their values
- `Json.Form.Fits` — the limits of what is read
- `Json.Spells` — the characters of a text and its code units
- `Json.Writes` — the texts of a syntax tree and of the parts of one
- `Json.IsDocument` — a syntax tree between blanks

## Main statements

- `Json.readText_of_spells`, `Json.spells_of_readText` — which texts are read
- `Json.readScalar_figure`, `Json.readScalar_constant`, `Json.writes_of_readScalar` — which scalars
  are read
-/

namespace Cambio.Json

open Decimal (Figure Power Sign digitsValue)

/-! ## Syntax trees -/

/-- A constant of a document. -/
inductive Constant where
  | null
  | yes
  | no
  | nan
  | infinity
  | minusInfinity
  deriving DecidableEq, Repr

/-- How a constant is written. -/
def Constant.word : Constant → List Char
  | .null => "null".toList
  | .yes => "true".toList
  | .no => "false".toList
  | .nan => "NaN".toList
  | .infinity => "Infinity".toList
  | .minusInfinity => "-Infinity".toList

/-- What a constant stands for. -/
def Constant.value : Constant → Json
  | .null => .null
  | .yes => .bool true
  | .no => .bool false
  | .nan => .binary .nan
  | .infinity => .binary (.infinite false)
  | .minusInfinity => .binary (.infinite true)

/-- A value of a document as it is written. -/
inductive Form where
  | constant (k : Constant)
  | number (figure : Figure)
  | text (s : String)
  | list (items : List Form)
  /-- All members in order, also those of one name. -/
  | object (members : List (String × Form))

/-- A number of a document is whole if it has neither a point nor a power of ten. -/
def IsWhole (f : Figure) : Prop :=
  f.fraction = none ∧ f.power = none

instance (f : Figure) : Decidable (IsWhole f) :=
  decidable_of_iff (f.fraction.isNone = true ∧ f.power.isNone = true) (by
    rw [Option.isNone_iff_eq_none, Option.isNone_iff_eq_none, IsWhole])

/-- The value of a number of a document. -/
def numberValue (f : Figure) : Json :=
  if IsWhole f then
    .whole (if f.sign.isMinus then -(Decimal.digitsValue 0 f.whole : Int)
      else Decimal.digitsValue 0 f.whole)
  else .decimal f.decimal

mutual

/-- The value of a syntax tree. An object has each name once, at its first place and with the value
    that is written last. -/
@[simp] def Form.value : Form → Json
  | .constant k => k.value
  | .number f => numberValue f
  | .text s => .text s
  | .list items => .list (itemValues items)
  | .object members => .object (Entries.ofPairs (memberValues members))

/-- The values of items. -/
@[simp] def itemValues : List Form → List Json
  | [] => []
  | f :: rest => f.value :: itemValues rest

/-- The values of members. -/
@[simp] def memberValues : List (String × Form) → List (String × Json)
  | [] => []
  | (name, f) :: rest => (name, f.value) :: memberValues rest

end

theorem memberValues_eq_map (members : List (String × Form)) :
    memberValues members = members.map fun member => (member.1, member.2.value) := by
  induction members with
  | nil => rfl
  | cons member rest ih => rw [memberValues, ih, List.map_cons]

/-! ## Limits -/

/-- A number is short enough to be whole, or the power of ten of its decimal is in range. -/
def FitsNumber (f : Figure) : Prop :=
  if IsWhole f then f.whole.length ≤ digitLimit else f.decimal.IsHeld

mutual

/-- A value stays within the limits for numbers and for the nesting. -/
@[simp] def Form.Fits (depth : Nat) : Form → Prop
  | .constant _ | .text _ => True
  | .number f => FitsNumber f
  | .list items => 0 < depth ∧ ItemsFit (depth - 1) items
  | .object members => 0 < depth ∧ MembersFit (depth - 1) members

/-- All items stay within the limits. -/
@[simp] def ItemsFit (depth : Nat) : List Form → Prop
  | [] => True
  | f :: rest => f.Fits depth ∧ ItemsFit depth rest

/-- All members stay within the limits. -/
@[simp] def MembersFit (depth : Nat) : List (String × Form) → Prop
  | [] => True
  | (_, f) :: rest => f.Fits depth ∧ MembersFit depth rest

end

/-! ## Characters -/

/-- Blanks between the parts of a document. -/
def IsSpaces (s : List Char) : Prop :=
  ∀ c ∈ s, isSpace c = true

/-- A number of a document has no plus, no needless zeros in front and no point at its end. -/
structure IsLiteral (f : Figure) : Prop where
  sign : f.sign ≠ .plus
  tidy : f.numeral.IsTidy

/-- The characters between the quotes of a text, and its code units. -/
inductive Spells : List Char → List Nat → Prop
  | nil : Spells [] []
  | plain {c : Char} {s : List Char} {ns : List Nat} (hquote : c ≠ '"') (hslash : c ≠ '\\')
    (hcontrol : 0x20 ≤ c.toNat) (h : Spells s ns) : Spells (c :: s) (c.toNat :: ns)
  | short {c : Char} {n : Nat} {s : List Char} {ns : List Nat} (hshort : shortEscape? c = some n)
    (h : Spells s ns) : Spells ('\\' :: c :: s) (n :: ns)
  | unit {a b c d : Char} {n : Nat} {s : List Char} {ns : List Nat}
    (hunit : hexUnit? a b c d = some n) (h : Spells s ns) :
    Spells ('\\' :: 'u' :: a :: b :: c :: d :: s) (n :: ns)

/-- The characters between the quotes of a text, and the text. -/
def SpellsText (s : List Char) (t : String) : Prop :=
  ∃ ns, Spells s ns ∧ t = String.ofList (joinUnits ns)

/-! ## Parts of a document -/

/-- What is written in a document: a value, items up to the end of their list and what follows one
    of them, and the same for members. -/
inductive Part where
  | value (f : Form)
  | items (fs : List Form)
  | moreItems (fs : List Form)
  | members (ms : List (String × Form))
  | moreMembers (ms : List (String × Form))

/-- How the parts of a document are written. -/
inductive Writes : Part → List Char → Prop
  | constant (k : Constant) : Writes (.value (.constant k)) k.word
  | number {f : Figure} (h : IsLiteral f) : Writes (.value (.number f)) f.text
  | text {s : List Char} {t : String} (h : SpellsText s t) :
    Writes (.value (.text t)) ('"' :: (s ++ ['"']))
  | emptyList {b : List Char} (hb : IsSpaces b) : Writes (.value (.list [])) ('[' :: (b ++ [']']))
  | list {b s : List Char} {fs : List Form} (hb : IsSpaces b) (h : Writes (.items fs) s) :
    Writes (.value (.list fs)) ('[' :: (b ++ s))
  | emptyObject {b : List Char} (hb : IsSpaces b) :
    Writes (.value (.object [])) ('\x7b' :: (b ++ ['\x7d']))
  | object {b s : List Char} {ms : List (String × Form)} (hb : IsSpaces b)
    (h : Writes (.members ms) s) : Writes (.value (.object ms)) ('\x7b' :: (b ++ s))
  | item {b s more : List Char} {f : Form} {fs : List Form} (h : Writes (.value f) s)
    (hb : IsSpaces b) (hmore : Writes (.moreItems fs) more) :
    Writes (.items (f :: fs)) (s ++ (b ++ more))
  | endItems : Writes (.moreItems []) [']']
  | nextItem {b s : List Char} {fs : List Form} (hb : IsSpaces b) (h : Writes (.items fs) s) :
    Writes (.moreItems fs) (',' :: (b ++ s))
  | member {q b b' s b'' more : List Char} {name : String} {f : Form} {ms : List (String × Form)}
    (hname : SpellsText q name) (hb : IsSpaces b) (hb' : IsSpaces b') (h : Writes (.value f) s)
    (hb'' : IsSpaces b'') (hmore : Writes (.moreMembers ms) more) :
    Writes (.members ((name, f) :: ms))
      ('"' :: (q ++ '"' :: (b ++ ':' :: (b' ++ (s ++ (b'' ++ more))))))
  | endMembers : Writes (.moreMembers []) ['\x7d']
  | nextMember {b s : List Char} {ms : List (String × Form)} (hb : IsSpaces b)
    (h : Writes (.members ms) s) : Writes (.moreMembers ms) (',' :: (b ++ s))

/-- A document is one value between blanks. -/
def IsDocument (f : Form) (s : List Char) : Prop :=
  ∃ b t b', IsSpaces b ∧ Writes (.value f) t ∧ IsSpaces b' ∧ s = b ++ (t ++ b')

variable {s t rest : List Char} {c : Char}

/-! ## Blanks -/

theorem skip_append (hs : IsSpaces s) (rest : List Char) : skip (s ++ rest) = skip rest := by
  induction s with
  | nil => rfl
  | cons c s ih =>
    rw [List.cons_append, skip_cons_space (hs c List.mem_cons_self)]
    exact ih fun d hd => hs d (List.mem_cons_of_mem _ hd)

theorem skip_eq_nil (hs : IsSpaces s) : skip s = [] := by
  have h := skip_append hs []
  rwa [List.append_nil] at h

theorem exists_skip (s : List Char) : ∃ b, IsSpaces b ∧ s = b ++ skip s :=
  ⟨s.takeWhile isSpace, fun _ hc => List.mem_takeWhile_imp hc,
    List.takeWhile_append_dropWhile.symm⟩

theorem EndsNumber.append_spaces (hs : IsSpaces s) (h : EndsNumber rest) :
    EndsNumber (s ++ rest) := by
  cases s with
  | nil => exact h
  | cons c s =>
    intro d hd
    cases hd
    have hspace := hs c List.mem_cons_self
    simp only [isSpace, Bool.or_eq_true, decide_eq_true_eq] at hspace
    rcases hspace with ((rfl | rfl) | rfl) | rfl <;> decide

/-! ## Texts -/

theorem shortEscape?_u : shortEscape? 'u' = none := by
  decide

theorem readUnits_unit {a b c d : Char} {n : Nat} (h : hexUnit? a b c d = some n) (start : Nat)
    (e : Char) (s : List Char) :
    readUnits start ('\\' :: 'u' :: a :: b :: c :: d :: e :: s) =
      before [n] (readUnits start (e :: s)) := by
  rw [readUnits, h]
  rfl

/-- Characters that need no escape stand for themselves. -/
theorem spells_of_plain (h : ∀ c ∈ s, c ≠ '"' ∧ c ≠ '\\' ∧ 0x20 ≤ c.toNat) :
    Spells s (s.map Char.toNat) := by
  induction s with
  | nil => exact .nil
  | cons c s ih =>
    obtain ⟨⟨hquote, hslash, hcontrol⟩, hrest⟩ := List.forall_mem_cons.mp h
    exact .plain hquote hslash hcontrol (ih hrest)

/-- A text that is spelled is read up to its closing quote. -/
theorem readUnits_of_spells {ns : List Nat} (h : Spells s ns) (start : Nat) (rest : List Char) :
    readUnits start (s ++ '"' :: rest) = .ok (ns, rest) := by
  induction h with
  | nil => rfl
  | plain hquote hslash hcontrol _ ih =>
    rw [List.cons_append, readUnits_plain hquote hslash hcontrol, ih]
    rfl
  | @short c n s ns hshort _ ih =>
    have hc : c ≠ 'u' := by
      rintro rfl
      rw [shortEscape?_u] at hshort
      cases hshort
    rw [List.cons_append, List.cons_append, readUnits_shortEscape hc hshort, ih]
    rfl
  | @unit a b c d n s ns hunit _ ih =>
    -- the escape is read only if something follows it, at least the quote
    obtain ⟨e, more, hmore⟩ : ∃ e more, s ++ '"' :: rest = e :: more :=
      List.exists_cons_of_ne_nil (by simp)
    simp only [List.cons_append]
    rw [hmore, readUnits_unit hunit, ← hmore, ih]
    rfl

/-- What is read as a text is spelled so, up to its closing quote. -/
theorem spells_of_readUnits {start : Nat} {ns : List Nat}
    (h : readUnits start s = .ok (ns, rest)) : ∃ t, s = t ++ '"' :: rest ∧ Spells t ns := by
  induction s using readUnits.induct generalizing ns with
  | case1 => cases h
  | case2 more =>
    cases h
    exact ⟨[], rfl, .nil⟩
  | case3 => cases h
  | case4 a b c d e more hunit =>
    rw [readUnits, hunit] at h
    cases h
  | case5 a b c d e more n hunit ih =>
    rw [readUnits, hunit] at h
    obtain ⟨⟨ms, after⟩, hread, heq⟩ := Except.map_eq_ok_iff.mp h
    cases heq
    obtain ⟨t, ht, hspells⟩ := ih hread
    exact ⟨'\\' :: 'u' :: a :: b :: c :: d :: t, by rw [ht]; rfl, .unit hunit hspells⟩
  | case6 more hshort =>
    -- fewer than four digits and a character after them
    rw [readUnits, if_pos rfl] at h
    · cases h
    · exact hshort
  | case7 c more hunit hc hnone =>
    rw [readUnits, if_neg hc, hnone] at h
    · cases h
    · exact hunit
  | case8 c more hunit hc n hshort ih =>
    rw [readUnits, if_neg hc, hshort] at h
    · obtain ⟨⟨ms, after⟩, hread, heq⟩ := Except.map_eq_ok_iff.mp h
      cases heq
      obtain ⟨t, ht, hspells⟩ := ih hread
      exact ⟨'\\' :: c :: t, by rw [ht]; rfl, .short hshort hspells⟩
    · exact hunit
  | case9 c more hquote hend hunit hslash hcontrol =>
    rw [readUnits, if_pos hcontrol] at h
    · cases h
    · exact hquote
    · exact hend
    · exact hunit
    · exact hslash
  | case10 c more hquote hend hunit hslash hcontrol ih =>
    have hc : c ≠ '\\' := by
      rintro rfl
      cases more with
      | nil => exact hend rfl rfl
      | cons d more => exact hslash d more rfl rfl
    rw [readUnits_plain hquote hc (Nat.le_of_not_lt hcontrol)] at h
    obtain ⟨⟨ms, after⟩, hread, heq⟩ := Except.map_eq_ok_iff.mp h
    cases heq
    obtain ⟨t, ht, hspells⟩ := ih hread
    exact ⟨c :: t, by rw [ht]; rfl, .plain hquote hc (Nat.le_of_not_lt hcontrol) hspells⟩

/-- A text is read up to its closing quote. -/
theorem readText_of_spells {q : List Char} {t : String} (h : SpellsText q t) (rest : List Char) :
    readText (q ++ '"' :: rest) = .ok (t, rest) := by
  obtain ⟨ns, hspells, rfl⟩ := h
  rw [readText, readUnits_of_spells hspells]
  rfl

theorem spells_of_readText {t : String} (h : readText s = .ok (t, rest)) :
    ∃ q, s = q ++ '"' :: rest ∧ SpellsText q t := by
  obtain ⟨⟨ns, after⟩, hread, heq⟩ := Except.map_eq_ok_iff.mp h
  cases heq
  obtain ⟨q, hq, hspells⟩ := spells_of_readUnits hread
  exact ⟨q, hq, ns, hspells, rfl⟩

/-! ## Numbers -/

section Numbers

variable {f : Figure} {v : Json} {power : Option Int} {ds : List Char}

theorem IsLiteral.text_eq (h : IsLiteral f) : f.text = f.numeral.text ++ f.powerText := by
  have hsign : f.sign.text = Decimal.signText f.sign.isMinus := by
    cases hsign : f.sign with
    | absent | minus => rfl
    | plus => exact absurd hsign h.sign
  rw [Figure.text, hsign, ← List.append_assoc]
  rfl

theorem takePower_powerOf (f : Figure) (hrest : EndsNumber rest) :
    takePower (f.powerText ++ rest) = (f.power.map Power.exponent, rest) := by
  unfold Figure.powerText
  cases f.power with
  | none => exact takePower_of_ends hrest
  | some p => exact takePower_text p hrest

/-- Behind the digits of a number stands its power of ten or what follows the number. -/
theorem head?_powerText_append (f : Figure) (hrest : EndsNumber rest)
    (h : (f.powerText ++ rest).head? = some c) :
    Decimal.isBasicDigit c = false ∧ c ≠ '.' := by
  by_cases hnil : f.powerText = []
  · rw [hnil] at h
    exact ⟨(hrest c h).1, (hrest c h).2.1⟩
  · rw [List.head?_append_of_ne_nil _ hnil] at h
    rcases f.head?_powerText c h with rfl | rfl <;> decide

/-- **Numbers**: a number is read by its digits if it stays within the limits, and not at all
otherwise. -/
theorem readScalar_figure (h : IsLiteral f) (hrest : EndsNumber rest) {r : Json × List Char} :
    readScalar .exact (f.text ++ rest) = .ok r ↔ FitsNumber f ∧ r = (numberValue f, rest) := by
  have hexponent : (f.power.map Power.exponent).getD 0 - (f.numeral.places : Int) = f.exponent := by
    unfold Figure.exponent
    cases f.power <;> rfl
  have hsome : f.numeral.fraction = none ∧ f.power.map Power.exponent = none ↔ IsWhole f :=
    and_congr_right fun _ => Option.map_eq_none_iff
  rw [h.text_eq, List.append_assoc, readScalar_text h.tidy,
    readNumber_text .exact h.tidy (fun _ hc => (head?_powerText_append f hrest hc).1)
      (fun hpoint => (head?_powerText_append f hrest hpoint).2 rfl) (takePower_powerOf f hrest),
    hexponent]
  unfold FitsNumber numberValue
  by_cases hwhole : IsWhole f
  · rw [if_pos (hsome.mpr hwhole), if_pos hwhole, if_pos hwhole]
    by_cases hlong : digitLimit < f.numeral.whole.length
    · rw [if_pos hlong]
      exact iff_of_false nofun fun hfits => absurd hfits.1 (Nat.not_le.mpr hlong)
    · rw [if_neg hlong]
      exact ⟨fun hr => ⟨Nat.le_of_not_lt hlong, (Except.ok.inj hr).symm⟩,
        fun hr => by rw [hr.2]; rfl⟩
  · rw [if_neg (mt hsome.mp hwhole), if_neg hwhole, if_neg hwhole]
    cases hbounded : Decimal.bounded f.numeral.negative (digitsValue 0 f.numeral.digits)
        f.exponent with
    | error signal =>
      refine iff_of_false nofun fun hfits => ?_
      have hheld := hbounded.symm.trans (Decimal.bounded_eq_ok_iff.mpr ⟨rfl, hfits.1⟩)
      cases hheld
    | ok d =>
      obtain ⟨rfl, hheld⟩ := Decimal.bounded_eq_ok_iff.mp hbounded
      exact ⟨fun hr => ⟨hheld, (Except.ok.inj hr).symm⟩, fun hr => by rw [hr.2]; rfl⟩

theorem whole_of_takeWhole? (h : takeWhole? s = some (ds, rest)) :
    s = ds ++ rest ∧ ds ≠ [] ∧ (ds.head? = some '0' → ds = ['0']) := by
  unfold takeWhole? at h
  split at h
  · cases h
    exact ⟨rfl, nofun, fun _ => rfl⟩
  · next hzero =>
    dsimp only at h
    split at h
    · cases h
    · next hnil =>
      cases h
      refine ⟨List.takeWhile_append_dropWhile.symm, hnil, fun hhead => ?_⟩
      cases s with
      | nil => exact absurd rfl hnil
      | cons c more =>
        -- a text that starts with a zero was taken before
        rw [List.head?_takeWhile] at hhead
        obtain ⟨hc, -⟩ := Option.filter_eq_some_iff.mp hhead
        cases hc
        exact absurd rfl (hzero more)

theorem exists_fraction (s : List Char) :
    ∃ fraction : Option (List Char), s = fraction.elim [] ('.' :: ·) ++ (takeFraction s).2 ∧
      fraction ≠ some [] ∧ ∀ c ∈ fraction.getD [], Decimal.isBasicDigit c = true := by
  unfold takeFraction
  split
  · next more =>
    dsimp only
    split
    · exact ⟨none, rfl, nofun, nofun⟩
    · next hnil =>
      refine ⟨some (more.takeWhile Decimal.isBasicDigit), ?_,
        fun heq => hnil (Option.some.inj heq), fun c hc => List.mem_takeWhile_imp hc⟩
      rw [Option.elim_some, List.cons_append, List.takeWhile_append_dropWhile]
  · exact ⟨none, rfl, nofun, nofun⟩

theorem exists_power (s : List Char) :
    ∃ p : Option Power, s = p.elim [] Power.text ++ (takePower s).2 := by
  unfold takePower
  split
  · next c more =>
    split
    · next hletter =>
      obtain ⟨sign, hmore, -⟩ := Decimal.exists_sign more
      dsimp only
      split
      · exact ⟨none, rfl⟩
      · next hnil =>
        refine ⟨some ⟨c, sign, _, hletter, hnil, fun _ hx => List.mem_takeWhile_imp hx⟩, ?_⟩
        rw [Option.elim_some, Power.text, List.cons_append, List.append_assoc,
          List.takeWhile_append_dropWhile, ← hmore]
    · exact ⟨none, rfl⟩
  · exact ⟨none, rfl⟩

theorem exists_minus (s : List Char) :
    ∃ sign : Sign, sign ≠ .plus ∧
      s = sign.text ++ (match s with | '-' :: rest => (true, rest) | _ => (false, s)).2 := by
  split
  · exact ⟨.minus, nofun, rfl⟩
  · exact ⟨.absent, nofun, rfl⟩

/-- What is read as a number is written as one. -/
theorem exists_figure_of_readNumber (h : readNumber .exact s = .ok (v, rest)) :
    ∃ f, IsLiteral f ∧ s = f.text ++ rest := by
  obtain ⟨sign, hplus, hs⟩ := exists_minus s
  unfold readNumber at h
  dsimp only at h
  split at h
  · cases h
  · next whole after hunits =>
    obtain ⟨hbody, hnil, hzero⟩ := whole_of_takeWhole? hunits
    obtain ⟨fraction, hafter, hsome, hfraction⟩ := exists_fraction after
    obtain ⟨power, hpower⟩ := exists_power (takeFraction after).2
    have hrest : (takePower (takeFraction after).2).2 = rest := by
      split at h
      · split at h <;> cases h
        rfl
      · split at h <;> cases h
        rfl
    have hwhole := isBasicDigit_of_takeWhole? hunits
    let f : Figure :=
      ⟨sign, whole, fraction, power,
        fun c hc => (List.mem_append.mp hc).elim (hwhole c) (hfraction c),
        List.append_ne_nil_of_left_ne_nil hnil _⟩
    have hnumeral : f.numeral.body = whole ++ fraction.elim [] ('.' :: ·) := by
      cases fraction with
      | none => exact (List.append_nil whole).symm
      | some ds => rfl
    refine ⟨f, ⟨hplus, hnil, hzero, hsome⟩, hs.trans ?_⟩
    calc
      _ = sign.text ++ (whole ++
          (fraction.elim [] ('.' :: ·) ++ (power.elim [] Power.text ++ rest))) := by
        rw [← hrest, ← hpower, ← hafter]
        exact congrArg (sign.text ++ ·) hbody
      _ = f.text ++ rest := by
        rw [Figure.text, hnumeral, List.append_assoc, List.append_assoc, List.append_assoc]
        rfl

end Numbers

/-! ## Constants -/

theorem exists_constant {word : List Char} {v : Json} (h : (word, v) ∈ constants) :
    ∃ k : Constant, word = k.word := by
  simp only [constants, List.mem_cons, List.not_mem_nil, or_false, Prod.mk.injEq] at h
  rcases h with ⟨rfl, -⟩ | ⟨rfl, -⟩ | ⟨rfl, -⟩ | ⟨rfl, -⟩ | ⟨rfl, -⟩ | ⟨rfl, -⟩
  exacts [⟨.null, rfl⟩, ⟨.yes, rfl⟩, ⟨.no, rfl⟩, ⟨.nan, rfl⟩, ⟨.infinity, rfl⟩,
    ⟨.minusInfinity, rfl⟩]

theorem readScalar_constant (k : Constant) (rule : NumberRule) (rest : List Char) :
    readScalar rule (k.word ++ rest) = .ok (k.value, rest) := by
  cases k <;> rfl

/-- A scalar that is read is a constant or a number. -/
theorem writes_of_readScalar {v : Json} (h : readScalar .exact s = .ok (v, rest)) :
    ∃ f t, Writes (.value f) t ∧ s = t ++ rest := by
  unfold readScalar at h
  split at h
  · next word value hfind =>
    cases h
    have hword := List.find?_some hfind
    obtain ⟨k, rfl⟩ := exists_constant (List.mem_of_find?_eq_some hfind)
    exact ⟨_, k.word, .constant k,
      (List.prefix_iff_eq_append.mp (List.isPrefixOf_iff_prefix.mp hword)).symm⟩
  · obtain ⟨f, hf, hs⟩ := exists_figure_of_readNumber h
    exact ⟨_, f.text, .number hf, hs⟩

end Cambio.Json
