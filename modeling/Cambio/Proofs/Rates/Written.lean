import Cambio.Proofs.Decimal.Value
import Cambio.Proofs.Json.Recognition
import Cambio.Proofs.Rates.Reading

/-!
# Rates in a document

The rates of a document are told from its syntax tree, without reading it: a rate is a figure above
zero, written as a number or as a text, and the entries of an object are its members with each name
at its first place and with its last value. The values that are read agree with that.

## Main definitions

- `Json.Form.Denotes`, `Json.Form.IsRate` — a form that stands for a figure, and for a rate
- `Json.Form.Prices` — the number of a form
- `Json.Form.Answers`, `Json.Form.Files` — the entries of an answer, the bases of a rate file
- `Entries.Capitalizes` — entries under the names of others in capital letters
- `RateTable.IsExact`, `RateBook.IsExact` — the rates of entries, as they are written

## Main statements

- `Json.Form.gives_iff` — which forms give a decimal above zero
- `Json.Form.lists_value_iff` — which forms list rates
- `RateTable.isExact_capitalized` — a table of listed rates has them as they are written
-/

namespace Cambio

namespace Json.Form

variable {f : Form} {figure : Decimal.Figure} {d : Decimal} {depth : Nat}

/-! ## Figures in a document -/

/-- A form that stands for a figure: a number as it is written, or a text that is one, but for
    blanks, underscores and the script of its digits. -/
inductive Denotes : Form → Decimal.Figure → Prop
  | number (figure : Decimal.Figure) : Denotes (.number figure) figure
  | text {s : String} {figure : Decimal.Figure}
    (h : Decimal.plainText s.toList = some figure.text) : Denotes (.text s) figure

/-- A form that stands for a rate: a figure above zero with a power of ten in range. -/
def IsRate (f : Form) : Prop :=
  ∃ figure, f.Denotes figure ∧ 0 < figure.value ∧ figure.decimal.IsHeld

/-- A decimal is the number of a form: it is finite and above zero, and equal to the figure that
    the form stands for. -/
def Prices (f : Form) (rate : Decimal) : Prop :=
  ∃ figure, f.Denotes figure ∧ rate.isFinite = true ∧ 0 < rate.value ∧ rate.value = figure.value

/-! ## Entries of a document -/

/-- A form that is an object, with its entries. -/
def HasEntries (f : Form) (entries : Entries Form) : Prop :=
  ∃ members, f = .object members ∧ Entries.Settles members entries

/-- A form that is an answer of the rate service, with the entries of its data. -/
def Answers (f : Form) (entries : Entries Form) : Prop :=
  ∃ members data, f = .object members ∧ Entries.LastWhere (· = "data") data members ∧
    data.HasEntries entries

/-- A form that is a rate file, with its time and its bases. It may have no bases at all. -/
def Files (f : Form) (timestamp : String) (bases : Entries Form) : Prop :=
  ∃ members, f = .object members ∧
    Entries.LastWhere (· = "timestamp") (.text timestamp) members ∧
      ("rates" ∉ Entries.names members ∧ bases = [] ∨
        ∃ rates : Form, Entries.LastWhere (· = "rates") rates members ∧ rates.HasEntries bases)

/-- A form that is a table of rates. -/
def IsTable (f : Form) : Prop :=
  ∃ entries, f.HasEntries entries ∧ ∀ entry ∈ entries, entry.2.IsRate

/-! ## Decimals of figures -/

/-- A form yields a decimal above zero: the one with the digits of its figure. -/
def Yields (f : Form) (d : Decimal) : Prop :=
  d.isPositive = true ∧ ∃ figure, f.Denotes figure ∧ figure.decimal.IsHeld ∧ d = figure.decimal

theorem Yields.prices (h : f.Yields d) : f.Prices d := by
  obtain ⟨hpositive, figure, hdenotes, -, rfl⟩ := h
  exact ⟨figure, hdenotes, rfl, Decimal.isPositive_iff_value_pos.mp hpositive,
    figure.value_decimal⟩

theorem isRate_iff : f.IsRate ↔ ∃ d, f.Yields d := by
  constructor
  · rintro ⟨figure, hdenotes, hpositive, hheld⟩
    rw [← figure.value_decimal, ← Decimal.isPositive_iff_value_pos] at hpositive
    exact ⟨_, hpositive, figure, hdenotes, hheld, rfl⟩
  · rintro ⟨_, hpositive, figure, hdenotes, hheld, rfl⟩
    rw [Decimal.isPositive_iff_value_pos, figure.value_decimal] at hpositive
    exact ⟨figure, hdenotes, hpositive, hheld⟩

theorem decimal_of_isWhole (h : IsWhole figure) :
    figure.decimal = .finite figure.sign.isMinus (Decimal.digitsValue 0 figure.whole) 0 := by
  obtain ⟨sign, whole, fraction, power, hdigits, hnil⟩ := figure
  obtain ⟨hfraction, hpower⟩ := h
  subst hfraction hpower
  simp [Decimal.Figure.decimal, Decimal.Figure.exponent, Decimal.Figure.numeral,
    Decimal.Numeral.digits, Decimal.Numeral.places]

/-- A number within the limits for what is read is held by a decimal. -/
theorem isHeld_of_fitsNumber (h : FitsNumber figure) : figure.decimal.IsHeld := by
  by_cases hwhole : IsWhole figure
  · rw [FitsNumber, if_pos hwhole] at h
    rw [decimal_of_isWhole hwhole]
    have hdigits : ∀ c ∈ figure.whole, Decimal.isBasicDigit c = true :=
      fun c hc => figure.isBasicDigit_of_mem c (List.mem_append_left _ hc)
    exact isHeld_ofInt (n := Decimal.digitsValue 0 figure.whole) h (Decimal.digitsValue_lt hdigits)
  · rwa [FitsNumber, if_neg hwhole] at h

/-- The value of a number, if it is above zero, is the decimal with its digits. -/
theorem numberValue_gives_iff (hpositive : d.isPositive = true) :
    (numberValue figure).Gives d ↔ d = figure.decimal := by
  by_cases hwhole : IsWhole figure
  · rw [numberValue, if_pos hwhole, decimal_of_isWhole hwhole]
    cases hminus : figure.sign.isMinus with
    | true =>
      rw [if_pos rfl]
      constructor
      · intro h
        cases h
        simp [Decimal.ofInt, Decimal.isPositive] at hpositive
      · rintro rfl
        cases hpositive
    | false =>
      rw [if_neg Bool.false_ne_true]
      exact ⟨fun h => by cases h; simp [Decimal.ofInt], fun h => h ▸ .whole _⟩
  · rw [numberValue, if_neg hwhole]
    exact ⟨fun h => by cases h; rfl, fun h => h ▸ .decimal _⟩

theorem parse_special :
    Decimal.parse (Binary64.write Binary64.display .nan) = .ok (.nan false false 0) ∧
      ∀ negative, Decimal.parse (Binary64.write Binary64.display (.infinite negative)) =
        .ok (.infinite negative) := by
  decide

/-- No constant is a decimal above zero. -/
theorem not_gives_constant (k : Constant) (hpositive : d.isPositive = true) :
    ¬ k.value.Gives d := by
  intro h
  cases k with
  | null | yes | no => cases h
  | nan =>
    cases h with
    | binary hparse =>
      cases parse_special.1.symm.trans hparse
      cases hpositive
  | infinity | minusInfinity =>
    cases h with
    | binary hparse =>
      cases (parse_special.2 _).symm.trans hparse
      cases hpositive

/-- The value of a form gives a decimal above zero exactly if the form yields it. -/
theorem gives_iff (hfits : f.Fits depth) :
    d.isPositive = true ∧ f.value.Gives d ↔ f.Yields d := by
  refine and_congr_right fun hpositive => ?_
  cases f with
  | constant k =>
    rw [Form.value]
    exact iff_of_false (not_gives_constant k hpositive) fun ⟨_, h, _⟩ => nomatch h
  | number figure =>
    rw [Form.value, numberValue_gives_iff hpositive]
    rw [Form.Fits] at hfits
    constructor
    · exact fun h => ⟨figure, .number figure, isHeld_of_fitsNumber hfits, h⟩
    · rintro ⟨_, ⟨⟩, -, h⟩
      exact h
  | text s =>
    have hread : (Json.text s).Gives d ↔ Decimal.parse s.toList = .ok d ∧ d.isFinite = true :=
      ⟨fun h => by cases h with | text h => exact ⟨h, Decimal.isFinite_of_isPositive hpositive⟩,
        fun h => .text h.1⟩
    rw [Form.value, hread, Decimal.parse_eq_ok_iff_figure]
    constructor
    · rintro ⟨figure, hplain, hheld, hd⟩
      exact ⟨figure, .text hplain, hheld, hd⟩
    · rintro ⟨figure, htext, hheld, hd⟩
      cases htext with
      | text hplain => exact ⟨figure, hplain, hheld, hd⟩
  | list items =>
    rw [Form.value]
    exact iff_of_false nofun fun ⟨_, h, _⟩ => nomatch h
  | object members =>
    rw [Form.value]
    exact iff_of_false nofun fun ⟨_, h, _⟩ => nomatch h

/-! ## Members of a document -/

variable {members : List (String × Form)} {entries bases : Entries Form}

theorem get?_memberValues_iff {name : String} {v : Json} :
    Entries.get? name (Entries.ofPairs (memberValues members)) = some v ↔
      ∃ x : Form, Entries.LastWhere (· = name) x members ∧ x.value = v := by
  rw [Entries.get?_ofPairs_eq_some_iff, memberValues_eq_map]
  exact Entries.lastWhere_map_iff (f := id)

theorem get?_memberValues_eq_none_iff {name : String} :
    Entries.get? name (Entries.ofPairs (memberValues members)) = none ↔
      name ∉ Entries.names members := by
  rw [← Option.not_isSome_iff_eq_none, ← Entries.has, Entries.has_iff_mem_names,
    Entries.names_ofPairs, List.mem_eraseDups, memberValues_eq_map, Entries.names, List.map_map]
  rfl

theorem eq_text_of_value {s : String} (h : f.value = .text s) : f = .text s := by
  cases f with
  | text t =>
    rw [Form.value] at h
    cases h
    rfl
  | constant k => cases k <;> cases h
  | number figure =>
    rw [Form.value, numberValue] at h
    split at h <;> cases h
  | list | object =>
    rw [Form.value] at h
    cases h

theorem fits_of_mem (h : MembersFit depth members) : ∀ member ∈ members, member.2.Fits depth := by
  induction members with
  | nil => nofun
  | cons member rest ih =>
    rw [MembersFit] at h
    exact List.forall_mem_cons.mpr ⟨h.1, ih h.2⟩

theorem fits_of_lastWhere {p : String → Prop} {x : Form} (h : MembersFit depth members)
    (hx : Entries.LastWhere p x members) : x.Fits depth := by
  obtain ⟨name, hmem, -⟩ := hx.exists_mem
  exact fits_of_mem h _ hmem

theorem HasEntries.unique {others : Entries Form} (h : f.HasEntries entries)
    (hothers : f.HasEntries others) : others = entries := by
  obtain ⟨members, rfl, hsettles⟩ := h
  obtain ⟨_, ⟨⟩, hsettles'⟩ := hothers
  rw [Entries.settles_iff.mp hsettles, Entries.settles_iff.mp hsettles']

theorem Answers.unique {others : Entries Form} (h : f.Answers entries)
    (hothers : f.Answers others) : others = entries := by
  obtain ⟨members, data, rfl, hdata, hentries⟩ := h
  obtain ⟨_, data', ⟨⟩, hdata', hothers⟩ := hothers
  obtain rfl := hdata'.unique hdata
  exact hentries.unique hothers

/-- The decimals that entries yield, under their names. -/
def RatesOf (rates : List (String × Decimal)) (entries : Entries Form) : Prop :=
  List.Forall₂ (fun rate entry => rate.1 = entry.1 ∧ entry.2.Yields rate.2) rates entries

theorem value_object (members : List (String × Form)) :
    (Form.object members).value =
      .object ((Entries.ofPairs members).map fun entry => (entry.1, entry.2.value)) := by
  rw [Form.value, memberValues_eq_map, Entries.ofPairs_map]

theorem exists_members_of_value {ms : List (String × Json)} (h : f.value = .object ms) :
    ∃ members, f = .object members := by
  cases f with
  | object members => exact ⟨members, rfl⟩
  | constant k => cases k <;> cases h
  | number figure =>
    rw [Form.value, numberValue] at h
    split at h <;> cases h
  | text | list =>
    rw [Form.value] at h
    cases h

/-- What is read off the entries of an object, given what is read off each of them. -/
theorem forall₂_value_iff {α : Type} {r : Json → α → Prop} {r' : Form → α → Prop}
    {as : List (String × α)} (hfits : f.Fits depth)
    (h : ∀ g : Form, g.Fits (depth - 1) → ∀ a, r g.value a ↔ r' g a) :
    (∃ ms, f.value = .object ms ∧ List.Forall₂ (fun a m => a.1 = m.1 ∧ r m.2 a.2) as ms) ↔
      ∃ entries, f.HasEntries entries ∧
        List.Forall₂ (fun a entry => a.1 = entry.1 ∧ r' entry.2 a.2) as entries := by
  have hentries (members : List (String × Form)) (hmembers : MembersFit (depth - 1) members) :
      List.Forall₂ (fun a m => a.1 = m.1 ∧ r m.2 a.2) as
          ((Entries.ofPairs members).map fun entry => (entry.1, entry.2.value)) ↔
        List.Forall₂ (fun a entry => a.1 = entry.1 ∧ r' entry.2 a.2) as
          (Entries.ofPairs members) := by
    rw [List.forall₂_map_right_iff]
    refine Entries.forall₂_congr_right fun entry hentry a => and_congr_right fun _ => h _ ?_ _
    exact fits_of_mem hmembers _ (Entries.mem_of_mem_ofPairs hentry)
  constructor
  · rintro ⟨ms, hvalue, hall⟩
    obtain ⟨members, rfl⟩ := exists_members_of_value hvalue
    rw [value_object] at hvalue
    cases hvalue
    rw [Form.Fits] at hfits
    exact ⟨_, ⟨members, rfl, Entries.settles_ofPairs members⟩, (hentries members hfits.2).mp hall⟩
  · rintro ⟨entries, ⟨members, rfl, hsettles⟩, hall⟩
    rw [Entries.settles_iff] at hsettles
    rw [Form.Fits] at hfits
    exact ⟨_, value_object members, (hentries members hfits.2).mpr (hsettles ▸ hall)⟩

/-- Which forms list rates. -/
theorem lists_value_iff {rates : List (String × Decimal)} (hfits : f.Fits depth) :
    f.value.Lists rates ↔ ∃ entries, f.HasEntries entries ∧ RatesOf rates entries := by
  have hlists : f.value.Lists rates ↔ ∃ ms, f.value = .object ms ∧
      List.Forall₂ (fun rate m => rate.1 = m.1 ∧ rate.2.isPositive = true ∧ m.2.Gives rate.2)
        rates ms :=
    exists_congr fun ms => and_congr_right fun _ =>
      Entries.forall₂_congr_right fun _ _ _ => and_left_comm
  rw [hlists]
  exact forall₂_value_iff (r := fun v d => d.isPositive = true ∧ v.Gives d) hfits
    fun _ hg _ => gives_iff hg

theorem exists_ratesOf_iff :
    (∃ rates, RatesOf rates entries) ↔ ∀ entry ∈ entries, entry.2.IsRate := by
  simp only [isRate_iff]
  exact Entries.exists_forall₂_iff

end Json.Form

/-! ## Codes in capital letters -/

/-- Entries come from others whose names are put in capital letters: all of these and no other ones,
    each once and with the value of the last name that becomes it. -/
structure Entries.Capitalizes {α β : Type} (r : α → β → Prop) (es : Entries α) (fs : Entries β) :
    Prop where
  different : (names fs).Nodup
  names : ∀ code, code ∈ Entries.names fs ↔ ∃ entry ∈ es, Text.upperString entry.1 = code
  last : ∀ code y, (code, y) ∈ fs →
    ∃ x, LastWhere (fun name => Text.upperString name = code) x es ∧ r x y

/-- A table has the rates of entries, as they are written. -/
def RateTable.IsExact (entries : Entries Json.Form) (table : RateTable) : Prop :=
  Entries.Capitalizes Json.Form.Prices entries table

/-- A book has the tables of bases, each with the rates of its entries. -/
def RateBook.IsExact (bases : Entries Json.Form) (book : RateBook) : Prop :=
  Entries.Capitalizes
    (fun f table => ∃ entries, f.HasEntries entries ∧ RateTable.IsExact entries table) bases book

theorem Entries.capitalizes_ofPairs {α β γ : Type} {r : α → γ → Prop} {g : β → γ}
    {pairs : List (String × β)} {es : Entries α}
    (h : List.Forall₂ (fun pair entry => pair.1 = entry.1 ∧ r entry.2 (g pair.2)) pairs es) :
    Capitalizes r es (ofPairs (pairs.map fun pair => (Text.upperString pair.1, g pair.2))) := by
  have hnames : names pairs = names es := names_eq_of_forall₂ (h.imp fun _ _ hr => hr.1)
  constructor
  · exact nodup_names_ofPairs _
  · intro code
    have hcapitals : names (pairs.map fun pair => (Text.upperString pair.1, g pair.2)) =
        (names es).map Text.upperString := by
      rw [← hnames, names, names, List.map_map, List.map_map]
      rfl
    rw [names_ofPairs, List.mem_eraseDups, hcapitals, names, List.map_map, List.mem_map]
    rfl
  · intro code y hy
    obtain ⟨x, hx, rfl⟩ := lastWhere_map_iff.mp ((settles_ofPairs _).last code y |>.mp hy)
    exact hx.of_forall₂ (r := fun b a => r a (g b)) h

theorem Entries.Capitalizes.ne_nil {α β : Type} {r : α → β → Prop} {es : Entries α}
    {fs : Entries β} (h : Capitalizes r es fs) (hes : es ≠ []) : fs ≠ [] := by
  rintro rfl
  obtain ⟨entry, rest, rfl⟩ := List.exists_cons_of_ne_nil hes
  cases (h.names _).mpr ⟨entry, List.mem_cons_self, rfl⟩

theorem RateTable.isExact_capitalized {rates : List (String × Decimal)}
    {entries : Entries Json.Form} (h : Json.Form.RatesOf rates entries) :
    RateTable.IsExact entries (RateTable.capitalized rates) :=
  Entries.capitalizes_ofPairs (g := id) (h.imp fun _ _ hr => ⟨hr.1, hr.2.prices⟩)

end Cambio
