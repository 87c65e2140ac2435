import Cambio.Proofs.Keypad.Typing

/-!
# Displays as numerals

Every key leaves a numeral on display: a sign and digits with at most one point among them. It is
not always a number, since a numeral may have no digits. Only a backspace brings that about, when it
takes the one digit after a sign; from such a display further keys lead to others that start with no
digit.

## Main definitions

- `Keypad.Key.IsSupported` — digit keys of basic digits, keys of the operators and all other keys
- `Keypad.bareDisplays` — the numerals without digits
- `Keypad.Bares` — a backspace takes the one digit after a sign

## Main statements

- `Keypad.keeps_press` — what a key does to the numeral on display
- `Keypad.reads_pressAll` — which displays are numbers, after any keys
-/

namespace Cambio

namespace Decimal.Numeral

variable (n : Numeral)

/-- A numeral without its last character; only a single digit leaves nothing before the point. -/
theorem exists_dropLast (hbody : n.body ≠ []) :
    ∃ m : Numeral, m.text = n.text.dropLast ∧
      (m.whole = [] → n.whole = [] ∨ ∃ c, n.body = [c]) := by
  have hall := n.isBasicDigit_of_mem
  have htext : n.text.dropLast = signText n.negative ++ n.body.dropLast :=
    List.dropLast_append_of_ne_nil hbody
  rw [htext]
  cases hfraction : n.fraction with
  | none =>
    rw [n.body_eq_of_none hfraction]
    refine ⟨⟨n.negative, n.whole.dropLast, none, ?_⟩, rfl, ?_⟩
    · intro c hc
      apply n.isBasicDigit_of_mem_whole
      simp only [Option.getD_none, List.append_nil] at hc
      exact List.mem_of_mem_dropLast hc
    · intro hnil
      rcases List.eq_nil_or_concat n.whole with hwhole | ⟨ds, c, hwhole⟩
      · exact .inl hwhole
      · change n.whole.dropLast = [] at hnil
        rw [hwhole, List.concat_eq_append] at hnil ⊢
        rw [List.dropLast_concat] at hnil
        exact .inr ⟨c, by rw [hnil]; rfl⟩
  | some ds =>
    rw [n.body_eq_of_some hfraction, List.dropLast_append_cons]
    cases ds with
    | nil =>
      refine ⟨⟨n.negative, n.whole, none, ?_⟩, ?_, .inl⟩
      · intro c hc
        simp only [Option.getD_none, List.append_nil] at hc
        exact n.isBasicDigit_of_mem_whole hc
      · simp [text, body]
    | cons d ds =>
      refine ⟨⟨n.negative, n.whole, some (d :: ds).dropLast, ?_⟩, rfl, .inl⟩
      intro c hc
      rcases List.mem_append.mp hc with hwhole | hlast
      · exact n.isBasicDigit_of_mem_whole hwhole
      · exact n.isBasicDigit_of_mem_fraction hfraction (List.mem_of_mem_dropLast hlast)

/-- A numeral with the other sign. -/
def opposite : Numeral :=
  { n with negative := !n.negative }

/-- A text with the other sign. -/
def otherSign : List Char → List Char
  | '-' :: rest => rest
  | text => '-' :: text

theorem text_opposite : n.opposite.text = otherSign n.text := by
  cases hnegative : n.negative with
  | true => simp [text, opposite, hnegative, signText, body, otherSign]
  | false =>
    -- no body starts with a sign
    have htext : n.text = n.body := by simp [text, hnegative, signText]
    have hopposite : n.opposite.text = '-' :: n.body := by
      simp [text, opposite, hnegative, signText, body]
    rw [htext, hopposite]
    unfold otherSign
    split
    · next rest hbody =>
      rcases n.digit_or_point_of_mem_body (hbody ▸ List.mem_cons_self) with h | h <;>
        exact absurd h (by decide)
    · rfl

theorem digits_sublist_text : n.digits.Sublist n.text := by
  have hbody : n.digits.Sublist n.body := by
    cases hfraction : n.fraction with
    | none => simp [digits, body, hfraction]
    | some ds => simp [digits, body, hfraction]
  exact hbody.trans (List.sublist_append_right _ _)

/-- The count of digits that a decimal can hold. -/
def longest : Nat := 10 ^ 18

/-- A numeral that has digits, and not too many, is a number. -/
theorem isHeld_of_length_le (hdigits : n.digits ≠ []) (hlength : n.digits.length ≤ longest) :
    (finite n.negative (digitsValue 0 n.digits) (-(n.places : Int))).IsHeld := by
  have hplaces : n.places ≤ n.digits.length := by simp [places, digits]
  have hpos : 0 < n.digits.length := List.length_pos_iff.mpr hdigits
  have hcount : digitCount (digitsValue 0 n.digits) ≤ n.digits.length :=
    (digitCount_le_iff hpos).mpr (digitsValue_lt n.isBasicDigit_of_mem)
  have hlimit : longest = 1000000000000000000 := rfl
  refine ⟨?_, ?_⟩
  · rw [adjusted, widestExponent]
    split <;> omega
  · rw [deepestExponent]
    omega

end Decimal.Numeral

namespace Keypad

open Decimal (isBasicDigit Numeral)

/-- The keys that a keypad has. -/
def Key.IsSupported : Key → Prop
  | .digit text => ∃ c, text = [c] ∧ isBasicDigit c = true
  | .operator symbol => (Operator.ofSymbol? symbol).isSome = true
  | _ => True

/-- The numerals without digits. -/
def bareDisplays : List (List Char) :=
  [[], ['-'], ['.'], ['-', '.']]

/-- A display under edit has one character after its sign, which a backspace would take. -/
def Bares (k : Keypad) : Prop :=
  k.hasError = false ∧ k.phase = .editing ∧ ∃ c, k.display = ['-', c]

/-- Among the keys pressed on a new calculator is a backspace that took the one character after a
    sign. -/
def HasBared (keys : List Key) : Prop :=
  ∃ before after, keys = before ++ .backspace :: after ∧ Bares (fresh.pressAll before)

/-! ## Numerals on display -/

/-- A numeral is on display; it starts with a digit unless a display was bared. -/
def ShowsNumeral (shown : List Char) (bared : Prop) : Prop :=
  ∃ n : Numeral, n.text = shown ∧ (n.whole = [] → bared)

/-- A numeral is on display, and what repeated equals applies is a number. -/
structure Edits (k : Keypad) (bared : Prop) : Prop where
  display : ShowsNumeral k.display bared
  operand : k.lastOperand.IsHeld

/-- A numeral is on display unless a failure is. -/
def Keeps (k : Keypad) (bared : Prop) : Prop :=
  k.hasError = false → Edits k bared

variable {k : Keypad} {bared : Prop} {d : Decimal} {shown : List Char}

theorem ShowsNumeral.mono {bared' : Prop} (h : ShowsNumeral shown bared) (himp : bared → bared') :
    ShowsNumeral shown bared' := by
  obtain ⟨n, htext, hwhole⟩ := h
  exact ⟨n, htext, fun hnil => himp (hwhole hnil)⟩

theorem Keeps.mono {bared' : Prop} (h : Keeps k bared) (himp : bared → bared') :
    Keeps k bared' :=
  fun herror => ⟨(h herror).display.mono himp, (h herror).operand⟩

theorem showsNumeral_of_isTyped {t : List Char} (h : IsTyped t shown) :
    ShowsNumeral shown bared := by
  obtain ⟨n, htext, hn⟩ := h
  exact ⟨n, htext, fun hnil => absurd hnil hn.whole⟩

theorem showsNumeral_formatNumber (h : d.IsHeld) : ShowsNumeral (formatNumber d) bared := by
  obtain ⟨negative, c, e, rfl⟩ := Decimal.eq_finite_of_isFinite (Decimal.isFinite_of_isHeld h)
  obtain ⟨n, htext, -, hwhole, -⟩ := Decimal.exists_numeral_fixed negative c e
  exact ⟨n, htext, fun hnil => absurd hnil hwhole⟩

theorem edits_fresh : Edits fresh bared :=
  ⟨showsNumeral_of_isTyped isTyped_blankDisplay, by decide⟩

theorem keeps_fail (f : Failure) : Keeps (k.fail f) bared := by
  intro herror
  cases herror

theorem edits_recovered (h : Keeps k bared) : Edits k.recovered bared := by
  unfold recovered
  split
  · exact edits_fresh
  · next herror => exact h (by simpa using herror)

theorem edits_enter {start continued : List Char} (h : Edits k bared)
    (hstart : ShowsNumeral start bared) (hcontinued : ShowsNumeral continued bared) :
    Edits (k.enter start continued) bared := by
  unfold enter
  split
  · exact ⟨hcontinued, h.operand⟩
  · exact ⟨hstart, h.operand⟩

theorem showsNumeral_digit (h : ShowsNumeral shown bared) {c : Char} (hc : isBasicDigit c = true) :
    ShowsNumeral (if shown = blankDisplay then [c] else shown ++ [c]) bared := by
  obtain ⟨n, rfl, hwhole⟩ := h
  split
  · exact showsNumeral_of_isTyped (isTyped_digit (t := []) hc rfl List.not_mem_nil)
  · refine ⟨n.push c hc, n.text_push hc, ?_⟩
    unfold Numeral.push
    split
    · simp
    · exact hwhole

theorem showsNumeral_point (h : ShowsNumeral shown bared) :
    ShowsNumeral (if '.' ∈ shown then shown else shown ++ ['.']) bared := by
  obtain ⟨n, rfl, hwhole⟩ := h
  exact ⟨n.withPoint, n.text_withPoint, hwhole⟩

theorem showsNumeral_backspace (h : ShowsNumeral shown bared) (hlong : 1 < shown.length) :
    ShowsNumeral shown.dropLast (bared ∨ ∃ c, shown = ['-', c]) := by
  obtain ⟨n, rfl, hwhole⟩ := h
  have hsign : (Decimal.signText n.negative).length ≤ 1 := by
    cases n.negative <;> decide
  have hbody : n.body ≠ [] := by
    intro hnil
    rw [Numeral.text, hnil, List.append_nil] at hlong
    omega
  obtain ⟨m, htext, hm⟩ := n.exists_dropLast hbody
  refine ⟨m, htext, fun hnil => ?_⟩
  rcases hm hnil with hempty | ⟨c, hc⟩
  · exact .inl (hwhole hempty)
  · -- a single character is longer than one only with a sign before it
    right
    rw [Numeral.text, hc] at hlong ⊢
    cases hnegative : n.negative with
    | true => exact ⟨c, rfl⟩
    | false =>
      rw [hnegative] at hlong
      cases Nat.lt_irrefl 1 hlong

theorem showsNumeral_sign (h : ShowsNumeral shown bared) :
    ShowsNumeral (Numeral.otherSign shown) bared := by
  obtain ⟨n, rfl, hwhole⟩ := h
  exact ⟨n.opposite, n.text_opposite, hwhole⟩

/-! ## Keys -/

theorem keeps_repeatEquals (h : Edits k bared) (o : Operator) :
    Keeps (k.repeatEquals o) bared := by
  cases repeating k o with
  | shown x d read applied eq =>
    have hheld := isHeld_of_apply read (Decimal.isFinite_of_isHeld h.operand) applied
    rw [eq]
    exact fun _ => ⟨showsNumeral_formatNumber hheld, h.operand⟩
  | unread f _ eq | undefined _ f _ _ eq =>
    rw [eq]
    exact keeps_fail f

theorem keeps_complete (k : Keypad) (p : Pending) : Keeps (k.complete p) bared := by
  cases completing k p with
  | shown left right d readLeft readRight applied eq =>
    have hright := isHeld_of_parseNumber readRight
    have hheld := isHeld_of_apply readLeft (Decimal.isFinite_of_isHeld hright) applied
    rw [eq]
    exact fun _ => ⟨showsNumeral_formatNumber hheld, hright⟩
  | unread f _ eq | undefined _ _ f _ _ _ eq =>
    rw [eq]
    exact keeps_fail f

theorem keeps_takeDisplay (h : Edits k bared) : Keeps k.takeDisplay bared := by
  cases taking k with
  | taken d _ eq =>
    rw [eq]
    exact fun _ => ⟨h.display, h.operand⟩
  | unread f _ eq =>
    rw [eq]
    exact keeps_fail f

theorem keeps_equals (h : Keeps k bared) : Keeps k.equals bared := by
  cases equalling k with
  | ignored _ eq =>
    rw [eq]
    exact h
  | repeated o error _ _ eq => exact eq ▸ keeps_repeatEquals (h error) o
  | taken error _ eq => exact eq ▸ keeps_takeDisplay (h error)
  | completed p _ _ eq => exact eq ▸ keeps_complete k p

theorem keeps_await (h : Edits k bared) (symbol : List Char) : Keeps (k.await symbol) bared := by
  cases awaiting k symbol with
  | waits o left _ _ eq =>
    rw [eq]
    exact fun _ => ⟨h.display, h.operand⟩
  | unknown f _ eq | unread f _ eq =>
    rw [eq]
    exact keeps_fail f

theorem keeps_operator (h : Keeps k bared) (symbol : List Char) :
    Keeps (k.operator symbol) bared := by
  have hedits := edits_recovered h
  have hequals : Keeps k.recovered.equals bared := keeps_equals fun _ => hedits
  cases operating k symbol with
  | awaits _ eq => exact eq ▸ keeps_await hedits symbol
  | failed _ _ _ _ eq => exact eq ▸ hequals
  | completes _ _ _ error eq => exact eq ▸ keeps_await (hequals error) symbol

theorem keeps_percent (h : Keeps k bared) : Keeps k.percent bared := by
  unfold percent
  split
  · exact fun _ => edits_fresh
  · next herror =>
    split
    · next d hd =>
      have hedits := h (by simpa using herror)
      exact fun _ => ⟨showsNumeral_formatNumber (isHeld_of_percentage hd), hedits.operand⟩
    · exact keeps_fail _

/-- Without a failure the sign key changes the sign on display, but for a nought alone. -/
theorem sign_of_not_hasError (h : k.hasError = false) :
    k.sign = if k.display = blankDisplay then k
      else { k with display := Numeral.otherSign k.display } := by
  rw [sign, h, if_neg Bool.false_ne_true]
  congr 1
  cases hdisplay : k.display with
  | nil => rfl
  | cons c rest =>
    by_cases hc : c = '-'
    · subst hc
      rfl
    · simp [Numeral.otherSign, hc]

theorem keeps_sign (h : Keeps k bared) : Keeps k.sign bared := by
  cases herror : k.hasError with
  | true =>
    rw [sign, if_pos herror]
    exact fun _ => edits_fresh
  | false =>
    have hedits := h herror
    rw [sign_of_not_hasError herror]
    split
    · exact h
    · exact fun _ => ⟨showsNumeral_sign hedits.display, hedits.operand⟩

theorem keeps_backspace (h : Keeps k bared) : Keeps k.backspace (bared ∨ Bares k) := by
  unfold backspace
  split
  · exact fun _ => edits_fresh
  · next herror =>
    have herror : k.hasError = false := by simpa using herror
    have hedits := h herror
    split
    · next hphase =>
      refine fun _ => ⟨?_, hedits.operand⟩
      dsimp only
      split
      · next hlong =>
        exact (showsNumeral_backspace hedits.display hlong).mono
          (Or.imp_right fun hone => ⟨herror, hphase, hone⟩)
      · exact showsNumeral_of_isTyped isTyped_blankDisplay
    · exact h.mono .inl

/-- Only a backspace can leave a numeral that does not start with a digit. -/
theorem keeps_press (h : Keeps k bared) {key : Key} (hkey : key.IsSupported) :
    Keeps (k.press key) (bared ∨ key = .backspace ∧ Bares k) := by
  have hrecovered := edits_recovered h
  cases key with
  | digit text =>
    obtain ⟨c, rfl, hc⟩ := hkey
    have hdigit : Edits (k.digit [c]) bared := by
      rw [digit_of_isBasicDigit k hc]
      exact edits_enter hrecovered
        (showsNumeral_of_isTyped (isTyped_digit (t := []) hc rfl List.not_mem_nil))
        (showsNumeral_digit hrecovered.display hc)
    exact Keeps.mono (fun _ => hdigit) .inl
  | point =>
    have hpoint : Edits k.point bared :=
      edits_enter hrecovered (showsNumeral_of_isTyped isTyped_point)
        (showsNumeral_point hrecovered.display)
    exact Keeps.mono (fun _ => hpoint) .inl
  | operator symbol => exact (keeps_operator h symbol).mono .inl
  | equals => exact (keeps_equals h).mono .inl
  | clear => exact fun _ => edits_fresh
  | clearEntry =>
    show Keeps k.clearEntry _
    unfold clearEntry
    split
    · exact fun _ => edits_fresh
    · next herror =>
      have hedits := h (by simpa using herror)
      exact fun _ => ⟨showsNumeral_of_isTyped isTyped_blankDisplay, hedits.operand⟩
  | backspace => exact (keeps_backspace h).mono (Or.imp_right fun hbares => ⟨rfl, hbares⟩)
  | sign => exact (keeps_sign h).mono .inl
  | percent => exact (keeps_percent h).mono .inl

/-! ## Sequences of keys -/

theorem HasBared.append {keys : List Key} (h : HasBared keys) (more : List Key) :
    HasBared (keys ++ more) := by
  obtain ⟨before, after, rfl, hbares⟩ := h
  exact ⟨before, after ++ more, by simp, hbares⟩

theorem keeps_pressAll (keys : List Key) (hkeys : ∀ key ∈ keys, key.IsSupported) :
    Keeps (fresh.pressAll keys) (HasBared keys) := by
  induction keys using List.reverseRecOn with
  | nil => exact fun _ => edits_fresh
  | append_singleton keys key ih =>
    have hkeep := ih fun key' hmem => hkeys key' (List.mem_append_left _ hmem)
    rw [pressAll_append]
    apply (keeps_press hkeep (hkeys key (by simp))).mono
    rintro (hbared | ⟨rfl, hbares⟩)
    · exact hbared.append _
    · exact ⟨keys, [], rfl, hbares⟩

/-! ## Numbers on display -/

theorem mem_bareDisplays_of_digits_eq_nil {n : Numeral} (h : n.digits = []) :
    n.text ∈ bareDisplays := by
  rcases n.body_of_digits_eq_nil h with hbody | hbody <;>
    cases hnegative : n.negative <;>
      simp [Numeral.text, hbody, hnegative, Decimal.signText, bareDisplays]

theorem digits_eq_nil_of_mem_bareDisplays {n : Numeral} (h : n.text ∈ bareDisplays) :
    n.digits = [] := by
  by_contra hdigits
  obtain ⟨c, hc⟩ := List.exists_mem_of_ne_nil _ hdigits
  have hdigit := n.isBasicDigit_of_mem c hc
  have hmem : c ∈ n.text := n.digits_sublist_text.subset hc
  have hnone : (bareDisplays.all fun shown => shown.all (!isBasicDigit ·)) = true := by decide
  have hc := List.all_eq_true.mp (List.all_eq_true.mp hnone _ h) c hmem
  rw [hdigit] at hc
  cases hc

/-- A numeral that is not too long is a number if and only if it has a digit. -/
theorem exists_parseNumber_iff (n : Numeral) (hlength : n.text.length ≤ Numeral.longest) :
    (∃ d, parseNumber n.text = .ok d) ↔ n.digits ≠ [] := by
  have hparse := n.parse_text
  unfold Numeral.read at hparse
  by_cases hdigits : n.digits = []
  · rw [if_pos hdigits] at hparse
    refine iff_of_false ?_ (not_not.mpr hdigits)
    rintro ⟨d, hd⟩
    rw [(parseNumber_eq_ok_iff.mp hd).1] at hparse
    cases hparse
  · refine iff_of_true ?_ hdigits
    have hheld := n.isHeld_of_length_le hdigits (n.digits_sublist_text.length_le.trans hlength)
    rw [if_neg hdigits, Decimal.bounded_eq_ok_iff.mpr ⟨rfl, hheld⟩] at hparse
    exact ⟨_, parseNumber_eq_ok_iff.mpr ⟨hparse, rfl⟩⟩

/-- **Displays are numbers, but for bare ones**: after any keys without a failure a display of at
    most the longest length is a number if and only if it has a digit, and it has one unless a
    backspace took the one character after a sign. -/
theorem reads_pressAll (keys : List Key) (hkeys : ∀ key ∈ keys, key.IsSupported)
    (herror : (fresh.pressAll keys).hasError = false) :
    ((fresh.pressAll keys).display ∈ bareDisplays → HasBared keys) ∧
      ((fresh.pressAll keys).display.length ≤ Numeral.longest →
        ((∃ d, parseNumber (fresh.pressAll keys).display = .ok d) ↔
          (fresh.pressAll keys).display ∉ bareDisplays)) := by
  obtain ⟨n, htext, hwhole⟩ := (keeps_pressAll keys hkeys herror).display
  rw [← htext]
  constructor
  · intro hbare
    have hdigits := digits_eq_nil_of_mem_bareDisplays hbare
    exact hwhole (List.append_eq_nil_iff.mp hdigits).1
  · intro hlength
    rw [exists_parseNumber_iff n hlength, not_iff_not]
    exact ⟨mem_bareDisplays_of_digits_eq_nil, digits_eq_nil_of_mem_bareDisplays⟩

/-- Five, sign, backspace: a sign alone is on display, which is no number, so equals fails. -/
theorem not_reads_lone_sign :
    (∀ key ∈ [Key.digit ['5'], .sign, .backspace], key.IsSupported) ∧
      (fresh.pressAll [.digit ['5'], .sign, .backspace]).hasError = false ∧
      (∀ d, parseNumber (fresh.pressAll [.digit ['5'], .sign, .backspace]).display ≠ .ok d) ∧
      (fresh.pressAll [.digit ['5'], .sign, .backspace, .equals]).hasError = true := by
  have hsupported : ∀ key ∈ [Key.digit ['5'], .sign, .backspace], key.IsSupported := by
    simp [Key.IsSupported]
    decide
  have hdisplay : (fresh.pressAll [.digit ['5'], .sign, .backspace]).display = ['-'] := by
    decide +kernel
  refine ⟨hsupported, by decide +kernel, fun d hd => ?_, by decide +kernel⟩
  rw [hdisplay] at hd
  have hfail : parseNumber ['-'] = .error (.invalidNumber (Text.quoted ['-'])) := by
    decide +kernel
  rw [hfail] at hd
  cases hd

/-- Five, sign, backspace, point, seven: the display starts with no digit and is a number. -/
theorem reads_headless :
    ∃ d, parseNumber
      (fresh.pressAll [.digit ['5'], .sign, .backspace, .point, .digit ['7']]).display = .ok d := by
  have hsupported : ∀ key ∈ [Key.digit ['5'], .sign, .backspace, .point, .digit ['7']],
      key.IsSupported := by
    simp [Key.IsSupported]
    decide
  have hdisplay : (fresh.pressAll
      [.digit ['5'], .sign, .backspace, .point, .digit ['7']]).display = ['-', '.', '7'] := by
    decide +kernel
  have hreads := (reads_pressAll _ hsupported (by decide +kernel)).2
  rw [hdisplay] at hreads ⊢
  exact (hreads (by decide)).mpr (by decide)

end Keypad

end Cambio
