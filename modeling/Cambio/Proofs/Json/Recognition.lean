import Cambio.Proofs.Json.Grammar

/-!
# Documents, recognized

The exact reader recognizes the grammar of documents. What is written by the grammar is read with
the value of its syntax tree, if it stays within the limits, and is not read otherwise; and
everything that is read was written by the grammar. The first part goes by the derivation of the
text, the second one by the fuel of the reader.

## Main definitions

- `Json.Part.IsRead` — a part of a document that is read with its value, within the limits
- `Json.SpelledAt` — everything that is read with some fuel is written by the grammar

## Main statements

- `Json.exists_form_of_readDocument` — what is read is a document
- `Json.readDocument_eq_ok_iff`, `Json.read_eq_ok_iff` — the value of a document
-/

namespace Cambio.Json

variable {p : Part} {s t b rest : List Char} {c : Char} {v : Json} {f : Form} {fuel depth : Nat}

/-! ## First characters -/

/-- The characters with which a part of a document may start. -/
def Part.StartsWith (c : Char) : Part → Prop
  | .value _ | .items _ => isSpace c = false ∧ c ≠ ']' ∧ c ≠ '\uFEFF'
  | .moreItems _ => c = ']' ∨ c = ','
  | .members _ => c = '"'
  | .moreMembers _ => c = '\x7d' ∨ c = ','

/-- A number starts with a digit or a minus, hence with no character out of their range. -/
theorem IsLiteral.exists_cons {figure : Decimal.Figure} (h : IsLiteral figure) :
    ∃ c s, figure.text = c :: s ∧ 45 ≤ c.toNat ∧ c.toNat ≤ 57 := by
  have hnil : figure.numeral.text ≠ [] :=
    List.append_ne_nil_of_right_ne_nil _ (figure.numeral.body_ne_nil figure.digits_ne_nil)
  obtain ⟨c, s, hc⟩ := List.exists_cons_of_ne_nil hnil
  have hplain : Decimal.IsPlain c :=
    figure.numeral.isPlain_of_mem_text (hc ▸ List.mem_cons_self)
  exact ⟨c, s ++ figure.powerText, by rw [h.text_eq, hc]; rfl, hplain.toNat_mem⟩

theorem IsLiteral.head?_ne {figure : Decimal.Figure} (h : IsLiteral figure) (rest : List Char)
    (hc : c.toNat < 45 ∨ 57 < c.toNat) : (figure.text ++ rest).head? ≠ some c := by
  obtain ⟨d, s, hd, hlow, hhigh⟩ := h.exists_cons
  rw [hd]
  rintro heq
  cases heq
  omega

theorem Constant.head?_ne (k : Constant) (rest : List Char)
    (hc : c ∉ ['n', 't', 'f', 'N', 'I', '-']) : (k.word ++ rest).head? ≠ some c := by
  intro h
  cases k <;> cases h <;> exact absurd hc (by decide)

theorem Part.startsWith_value (h : isSpace c = false ∧ c ≠ ']' ∧ c ≠ '\uFEFF') :
    (Part.value f).StartsWith c :=
  h

theorem Writes.exists_cons (h : Writes p s) : ∃ c t, s = c :: t ∧ p.StartsWith c := by
  induction h with
  | constant k =>
    cases k <;> exact ⟨_, _, rfl, Part.startsWith_value (by decide)⟩
  | number h =>
    obtain ⟨c, s, htext, hlow, hhigh⟩ := h.exists_cons
    refine ⟨c, s, htext, Part.startsWith_value ⟨?_, ?_, ?_⟩⟩
    · simp only [isSpace, Bool.or_eq_false_iff, decide_eq_false_iff_not]
      refine ⟨⟨⟨?_, ?_⟩, ?_⟩, ?_⟩ <;> rintro rfl <;> exact absurd hlow (by decide)
    all_goals
      rintro rfl
      exact absurd hhigh (by decide)
  | text | emptyList | list | emptyObject | object =>
    exact ⟨_, _, rfl, Part.startsWith_value (by decide)⟩
  | item _ _ _ ih _ =>
    obtain ⟨c, t, rfl, hc⟩ := ih
    exact ⟨c, _, rfl, hc⟩
  | endItems | endMembers => exact ⟨_, _, rfl, .inl rfl⟩
  | nextItem | nextMember => exact ⟨_, _, rfl, .inr rfl⟩
  | member => exact ⟨_, _, rfl, rfl⟩

theorem Writes.length_pos (h : Writes p s) : 0 < s.length := by
  obtain ⟨c, t, rfl, -⟩ := h.exists_cons
  exact Nat.succ_pos _

theorem Part.StartsWith.not_isSpace (h : p.StartsWith c) : isSpace c = false := by
  cases p with
  | value | items => exact h.1
  | members =>
    cases h
    decide
  | moreItems | moreMembers => rcases h with rfl | rfl <;> decide

/-- No part of a document starts with a blank. -/
theorem Writes.skip_append (h : Writes p s) (rest : List Char) :
    skip (s ++ rest) = s ++ rest := by
  obtain ⟨c, t, rfl, hc⟩ := h.exists_cons
  exact skip_cons hc.not_isSpace

theorem Writes.skip_spaces_append (h : Writes p s) (hb : IsSpaces b) (rest : List Char) :
    skip (b ++ (s ++ rest)) = s ++ rest := by
  rw [Json.skip_append hb, h.skip_append]

theorem endsNumber_cons (h : c = ',' ∨ c = ']' ∨ c = '\x7d') (s : List Char) :
    EndsNumber (c :: s) := by
  intro d hd
  cases hd
  rcases h with rfl | rfl | rfl <;> decide

theorem Writes.endsNumber_items {fs : List Form} (h : Writes (.moreItems fs) s) (hb : IsSpaces b)
    (rest : List Char) : EndsNumber (b ++ (s ++ rest)) := by
  obtain ⟨c, t, rfl, hc⟩ := h.exists_cons
  exact .append_spaces hb (endsNumber_cons (by rcases hc with rfl | rfl <;> simp) _)

theorem Writes.endsNumber_members {ms : List (String × Form)} (h : Writes (.moreMembers ms) s)
    (hb : IsSpaces b) (rest : List Char) : EndsNumber (b ++ (s ++ rest)) := by
  obtain ⟨c, t, rfl, hc⟩ := h.exists_cons
  exact .append_spaces hb (endsNumber_cons (by rcases hc with rfl | rfl <;> simp) _)

/-! ## What is written is read -/

/-- A part of a document is read with its value if it stays within the limits, and not at all
    otherwise, given fuel for its characters. -/
def Part.IsRead (t : List Char) : Part → Prop
  | .value f => ∀ ⦃fuel depth rest⦄, EndsNumber rest → t.length ≤ fuel →
    Except.GivesIf (readValue .exact fuel depth (t ++ rest)) (f.Fits depth) (f.value, rest)
  | .items fs => ∀ ⦃fuel depth rest⦄, t.length ≤ fuel →
    Except.GivesIf (readItems .exact fuel depth (t ++ rest)) (ItemsFit depth fs)
      (itemValues fs, rest)
  | .moreItems fs => ∀ ⦃fuel depth rest⦄ (v : Json), t.length ≤ fuel + 1 →
    Except.GivesIf (afterItem .exact fuel depth v (t ++ rest)) (ItemsFit depth fs)
      (v :: itemValues fs, rest)
  | .members ms => ∀ ⦃fuel depth rest⦄, t.length ≤ fuel →
    Except.GivesIf (readMembers .exact fuel depth (t ++ rest)) (MembersFit depth ms)
      (memberValues ms, rest)
  | .moreMembers ms => ∀ ⦃fuel depth rest⦄ (m : String × Json), t.length ≤ fuel + 1 →
    Except.GivesIf (afterMember .exact fuel depth m (t ++ rest)) (MembersFit depth ms)
      (m :: memberValues ms, rest)

theorem readValue_scalar (hquote : s.head? ≠ some '"') (hlist : s.head? ≠ some '[')
    (hobject : s.head? ≠ some '\x7b') (rule : NumberRule) (fuel depth : Nat) :
    readValue rule (fuel + 1) depth s = readScalar rule s := by
  rw [readValue]
  · rintro rest rfl
    exact hquote rfl
  · rintro rest rfl
    exact hlist rfl
  · rintro rest rfl
    exact hobject rfl

theorem readValue_list (h : (skip s).head? ≠ some ']') (rule : NumberRule) (fuel depth : Nat) :
    readValue rule (fuel + 1) (depth + 1) ('[' :: s) =
      (readItems rule fuel depth (skip s)).map fun (vs, rest) => (.list vs, rest) := by
  rw [readValue]
  split
  · next hs =>
    rw [hs] at h
    exact absurd rfl h
  · rfl

theorem readValue_object (h : (skip s).head? ≠ some '\x7d') (rule : NumberRule)
    (fuel depth : Nat) :
    readValue rule (fuel + 1) (depth + 1) ('\x7b' :: s) =
      (readMembers rule fuel depth (skip s)).map fun (ms, rest) =>
        (.object (Entries.ofPairs ms), rest) := by
  rw [readValue]
  split
  · next hs =>
    rw [hs] at h
    exact absurd rfl h
  · rfl

theorem readItems_succ (rule : NumberRule) (fuel depth : Nat) (s : List Char) :
    readItems rule (fuel + 1) depth s =
      readValue rule fuel depth s >>= fun r => afterItem rule fuel depth r.1 (skip r.2) := by
  rw [readItems]
  cases readValue rule fuel depth s <;> rfl

theorem readMembers_succ {q : List Char} {name : String} (hname : SpellsText q name)
    (hb : IsSpaces b) (rule : NumberRule) (fuel depth : Nat) (s : List Char) :
    readMembers rule (fuel + 1) depth ('"' :: (q ++ '"' :: (b ++ ':' :: s))) =
      readValue rule fuel depth (skip s) >>= fun r =>
        afterMember rule fuel depth (name, r.1) (skip r.2) := by
  rw [readMembers, readText_of_spells hname]
  dsimp only
  rw [skip_append hb, skip_cons (by decide)]
  cases hvalue : readValue rule fuel depth (skip s) <;> simp only [hvalue] <;> rfl

theorem isRead_constant (k : Constant) : (Part.value (.constant k)).IsRead k.word := by
  intro fuel depth rest _ hfuel
  have hlength := (Writes.constant k).length_pos
  obtain ⟨fuel, rfl⟩ : ∃ n, fuel = n + 1 := ⟨fuel - 1, by omega⟩
  have hread : readValue .exact (fuel + 1) depth (k.word ++ rest) = .ok (k.value, rest) := by
    rw [readValue_scalar (k.head?_ne rest (by decide)) (k.head?_ne rest (by decide))
      (k.head?_ne rest (by decide)), readScalar_constant]
  rw [hread, Form.Fits, Form.value]
  exact .ok trivial

theorem isRead_number {figure : Decimal.Figure} (h : IsLiteral figure) :
    (Part.value (.number figure)).IsRead figure.text := by
  intro fuel depth rest hrest hfuel
  obtain ⟨c, t, hc, -⟩ := h.exists_cons
  have hlength := congrArg List.length hc
  obtain ⟨fuel, rfl⟩ : ∃ n, fuel = n + 1 := ⟨fuel - 1, by rw [List.length_cons] at hlength; omega⟩
  rw [readValue_scalar (h.head?_ne rest (by decide)) (h.head?_ne rest (by decide))
    (h.head?_ne rest (by decide)), Form.Fits, Form.value]
  exact fun r => readScalar_figure h hrest

theorem isRead_text {q : List Char} {t : String} (h : SpellsText q t) :
    (Part.value (.text t)).IsRead ('"' :: (q ++ ['"'])) := by
  intro fuel depth rest _ hfuel
  rw [List.length_cons] at hfuel
  obtain ⟨fuel, rfl⟩ : ∃ n, fuel = n + 1 := ⟨fuel - 1, by omega⟩
  rw [List.cons_append, List.append_assoc, readValue, Form.Fits, Form.value]
  have hread := readText_of_spells h rest
  rw [List.singleton_append, hread]
  exact .ok trivial

theorem isRead_list {fs : List Form} (hb : IsSpaces b) (h : Writes (.items fs) s)
    (ih : (Part.items fs).IsRead s) : (Part.value (.list fs)).IsRead ('[' :: (b ++ s)) := by
  intro fuel depth rest _ hfuel
  rw [List.length_cons, List.length_append] at hfuel
  obtain ⟨fuel, rfl⟩ : ∃ n, fuel = n + 1 := ⟨fuel - 1, by omega⟩
  rw [Form.Fits, Form.value, List.cons_append, List.append_assoc]
  cases depth with
  | zero => exact .error fun hdepth => absurd hdepth.1 (Nat.lt_irrefl 0)
  | succ depth =>
    have hskip := h.skip_spaces_append hb rest
    have hbracket : (skip (b ++ (s ++ rest))).head? ≠ some ']' := by
      obtain ⟨c, t, rfl, -, hc, -⟩ := h.exists_cons
      rw [hskip]
      exact fun heq => hc (Option.some.inj heq)
    rw [readValue_list hbracket, hskip, and_iff_right (Nat.succ_pos depth)]
    exact (ih (by omega)).map _

theorem isRead_object {ms : List (String × Form)} (hb : IsSpaces b) (h : Writes (.members ms) s)
    (ih : (Part.members ms).IsRead s) :
    (Part.value (.object ms)).IsRead ('\x7b' :: (b ++ s)) := by
  intro fuel depth rest _ hfuel
  rw [List.length_cons, List.length_append] at hfuel
  obtain ⟨fuel, rfl⟩ : ∃ n, fuel = n + 1 := ⟨fuel - 1, by omega⟩
  rw [Form.Fits, Form.value, List.cons_append, List.append_assoc]
  cases depth with
  | zero => exact .error fun hdepth => absurd hdepth.1 (Nat.lt_irrefl 0)
  | succ depth =>
    have hskip := h.skip_spaces_append hb rest
    have hbrace : (skip (b ++ (s ++ rest))).head? ≠ some '\x7d' := by
      obtain ⟨c, t, rfl, rfl⟩ := h.exists_cons
      rw [hskip]
      exact nofun
    rw [readValue_object hbrace, hskip, and_iff_right (Nat.succ_pos depth)]
    exact (ih (by omega)).map _

theorem isRead_emptyList (hb : IsSpaces b) :
    (Part.value (.list [])).IsRead ('[' :: (b ++ [']'])) := by
  intro fuel depth rest _ hfuel
  rw [List.length_cons] at hfuel
  obtain ⟨fuel, rfl⟩ : ∃ n, fuel = n + 1 := ⟨fuel - 1, by omega⟩
  rw [Form.Fits, Form.value, List.cons_append, List.append_assoc]
  cases depth with
  | zero => exact .error fun hdepth => absurd hdepth.1 (Nat.lt_irrefl 0)
  | succ depth =>
    have hskip : skip (b ++ ([']'] ++ rest)) = ']' :: rest := skip_append hb _
    rw [readValue, hskip]
    exact .ok ⟨Nat.succ_pos depth, trivial⟩

theorem isRead_emptyObject (hb : IsSpaces b) :
    (Part.value (.object [])).IsRead ('\x7b' :: (b ++ ['\x7d'])) := by
  intro fuel depth rest _ hfuel
  rw [List.length_cons] at hfuel
  obtain ⟨fuel, rfl⟩ : ∃ n, fuel = n + 1 := ⟨fuel - 1, by omega⟩
  rw [Form.Fits, Form.value, List.cons_append, List.append_assoc]
  cases depth with
  | zero => exact .error fun hdepth => absurd hdepth.1 (Nat.lt_irrefl 0)
  | succ depth =>
    have hskip : skip (b ++ (['\x7d'] ++ rest)) = '\x7d' :: rest := skip_append hb _
    rw [readValue, hskip]
    exact .ok ⟨Nat.succ_pos depth, trivial⟩

theorem isRead_item {more : List Char} {fs : List Form} (h : Writes (.value f) s) (hb : IsSpaces b)
    (hmore : Writes (.moreItems fs) more) (ih : (Part.value f).IsRead s)
    (ihmore : (Part.moreItems fs).IsRead more) :
    (Part.items (f :: fs)).IsRead (s ++ (b ++ more)) := by
  intro fuel depth rest hfuel
  have hs := h.length_pos
  have hlast := hmore.length_pos
  rw [List.length_append, List.length_append] at hfuel
  obtain ⟨fuel, rfl⟩ : ∃ n, fuel = n + 1 := ⟨fuel - 1, by omega⟩
  rw [List.append_assoc, List.append_assoc, ItemsFit, itemValues, readItems_succ]
  refine (ih (hmore.endsNumber_items hb rest) (by omega)).bind ?_
  rw [hmore.skip_spaces_append hb]
  exact ihmore f.value (by omega)

theorem isRead_nextItem {fs : List Form} (hb : IsSpaces b) (h : Writes (.items fs) s)
    (ih : (Part.items fs).IsRead s) : (Part.moreItems fs).IsRead (',' :: (b ++ s)) := by
  intro fuel depth rest v hfuel
  rw [List.length_cons, List.length_append] at hfuel
  rw [List.cons_append, List.append_assoc]
  show Except.GivesIf ((readItems .exact fuel depth (skip (b ++ (s ++ rest)))).map _) _ _
  rw [h.skip_spaces_append hb]
  exact (ih (by omega)).map _

theorem isRead_member {q b' b'' more : List Char} {name : String} {ms : List (String × Form)}
    (hname : SpellsText q name) (hb : IsSpaces b) (hb' : IsSpaces b') (h : Writes (.value f) s)
    (hb'' : IsSpaces b'') (hmore : Writes (.moreMembers ms) more) (ih : (Part.value f).IsRead s)
    (ihmore : (Part.moreMembers ms).IsRead more) :
    (Part.members ((name, f) :: ms)).IsRead
      ('"' :: (q ++ '"' :: (b ++ ':' :: (b' ++ (s ++ (b'' ++ more)))))) := by
  intro fuel depth rest hfuel
  simp only [List.length_cons, List.length_append] at hfuel
  obtain ⟨fuel, rfl⟩ : ∃ n, fuel = n + 1 := ⟨fuel - 1, by omega⟩
  simp only [List.cons_append, List.append_assoc]
  rw [MembersFit, memberValues, readMembers_succ hname hb, h.skip_spaces_append hb']
  refine (ih (hmore.endsNumber_members hb'' rest) (by omega)).bind ?_
  rw [hmore.skip_spaces_append hb'']
  exact ihmore (name, f.value) (by omega)

theorem isRead_nextMember {ms : List (String × Form)} (hb : IsSpaces b)
    (h : Writes (.members ms) s) (ih : (Part.members ms).IsRead s) :
    (Part.moreMembers ms).IsRead (',' :: (b ++ s)) := by
  intro fuel depth rest m hfuel
  rw [List.length_cons, List.length_append] at hfuel
  rw [List.cons_append, List.append_assoc]
  show Except.GivesIf ((readMembers .exact fuel depth (skip (b ++ (s ++ rest)))).map _) _ _
  rw [h.skip_spaces_append hb]
  exact (ih (by omega)).map _

/-- **What is written is read**: every part of a document is read with its value if it stays within
the limits, and not at all otherwise. -/
theorem Writes.isRead (h : Writes p s) : p.IsRead s := by
  induction h with
  | constant k => exact isRead_constant k
  | number h => exact isRead_number h
  | text h => exact isRead_text h
  | emptyList hb => exact isRead_emptyList hb
  | list hb h ih => exact isRead_list hb h ih
  | emptyObject hb => exact isRead_emptyObject hb
  | object hb h ih => exact isRead_object hb h ih
  | item h hb hmore ih ihmore => exact isRead_item h hb hmore ih ihmore
  | endItems => exact fun _ _ _ _ _ => .ok trivial
  | nextItem hb h ih => exact isRead_nextItem hb h ih
  | member hname hb hb' h hb'' hmore ih ihmore =>
    exact isRead_member hname hb hb' h hb'' hmore ih ihmore
  | endMembers => exact fun _ _ _ _ _ => .ok trivial
  | nextMember hb h ih => exact isRead_nextMember hb h ih

/-! ## What is read is written -/

/-- Everything that is read with some fuel is written by the grammar, up to the rest. -/
structure SpelledAt (fuel : Nat) : Prop where
  value : ∀ {depth s v rest}, readValue .exact fuel depth s = .ok (v, rest) →
    ∃ f t, Writes (.value f) t ∧ s = t ++ rest
  items : ∀ {depth s vs rest}, readItems .exact fuel depth s = .ok (vs, rest) →
    ∃ fs t, Writes (.items fs) t ∧ s = t ++ rest
  members : ∀ {depth s ms rest}, readMembers .exact fuel depth s = .ok (ms, rest) →
    ∃ ms t, Writes (.members ms) t ∧ s = t ++ rest

theorem SpelledAt.readValue (h : SpelledAt fuel)
    (hread : Json.readValue .exact (fuel + 1) depth s = .ok (v, rest)) :
    ∃ f t, Writes (.value f) t ∧ s = t ++ rest := by
  unfold Json.readValue at hread
  split at hread
  · obtain ⟨⟨t, after⟩, htext, heq⟩ := Except.map_eq_ok_iff.mp hread
    cases heq
    obtain ⟨q, rfl, hspells⟩ := spells_of_readText htext
    exact ⟨_, _, .text hspells, by simp⟩
  · next more =>
    obtain ⟨b, hb, hmore⟩ := exists_skip more
    split at hread
    · cases hread
    · split at hread
      · next after hskip =>
        cases hread
        exact ⟨_, _, .emptyList hb, by rw [hmore, hskip]; simp⟩
      · obtain ⟨⟨vs, after⟩, hitems, heq⟩ := Except.map_eq_ok_iff.mp hread
        cases heq
        obtain ⟨fs, t, ht, hskip⟩ := h.items hitems
        exact ⟨_, _, .list hb ht, by rw [hmore, hskip]; simp⟩
  · next more =>
    obtain ⟨b, hb, hmore⟩ := exists_skip more
    split at hread
    · cases hread
    · split at hread
      · next after hskip =>
        cases hread
        exact ⟨_, _, .emptyObject hb, by rw [hmore, hskip]; simp⟩
      · obtain ⟨⟨ms, after⟩, hmembers, heq⟩ := Except.map_eq_ok_iff.mp hread
        cases heq
        obtain ⟨fs, t, ht, hskip⟩ := h.members hmembers
        exact ⟨_, _, .object hb ht, by rw [hmore, hskip]; simp⟩
  · exact writes_of_readScalar hread

theorem SpelledAt.readItems (h : SpelledAt fuel) {vs : List Json}
    (hread : Json.readItems .exact (fuel + 1) depth s = .ok (vs, rest)) :
    ∃ fs t, Writes (.items fs) t ∧ s = t ++ rest := by
  unfold Json.readItems at hread
  split at hread
  · cases hread
  · next first after hfirst =>
    obtain ⟨f, t, hf, hs⟩ := h.value hfirst
    obtain ⟨b, hb, hafter⟩ := exists_skip after
    split at hread
    · next last hskip =>
      cases hread
      exact ⟨_, _, .item hf hb .endItems, by rw [hs, hafter, hskip]; simp⟩
    · next more hskip =>
      obtain ⟨⟨others, last⟩, hmore, heq⟩ := Except.map_eq_ok_iff.mp hread
      cases heq
      obtain ⟨fs, t', hfs, hothers⟩ := h.items hmore
      obtain ⟨b', hb', hspaces⟩ := exists_skip more
      exact ⟨_, _, .item hf hb (.nextItem hb' hfs), by
        rw [hs, hafter, hskip, hspaces, hothers]
        simp⟩
    · cases hread

theorem SpelledAt.readMembers (h : SpelledAt fuel) {ms : List (String × Json)}
    (hread : Json.readMembers .exact (fuel + 1) depth s = .ok (ms, rest)) :
    ∃ ms t, Writes (.members ms) t ∧ s = t ++ rest := by
  unfold Json.readMembers at hread
  split at hread
  · split at hread
    · cases hread
    · next name afterName hname =>
      obtain ⟨q, rfl, hq⟩ := spells_of_readText hname
      obtain ⟨b, hb, hafterName⟩ := exists_skip afterName
      split at hread
      · next afterColon hcolon =>
        obtain ⟨b', hb', hafterColon⟩ := exists_skip afterColon
        split at hread
        · cases hread
        · next first after hfirst =>
          obtain ⟨f, t, hf, hs⟩ := h.value hfirst
          obtain ⟨b'', hb'', hafter⟩ := exists_skip after
          split at hread
          · next last hskip =>
            cases hread
            exact ⟨_, _, .member hq hb hb' hf hb'' .endMembers, by
              rw [hafterName, hcolon, hafterColon, hs, hafter, hskip]
              simp⟩
          · next more hskip =>
            obtain ⟨⟨others, last⟩, hmore, heq⟩ := Except.map_eq_ok_iff.mp hread
            cases heq
            obtain ⟨fs, t', hfs, hothers⟩ := h.members hmore
            obtain ⟨b₃, hb₃, hspaces⟩ := exists_skip more
            exact ⟨_, _, .member hq hb hb' hf hb'' (.nextMember hb₃ hfs), by
              rw [hafterName, hcolon, hafterColon, hs, hafter, hskip, hspaces, hothers]
              simp⟩
          · cases hread
      · cases hread
  · cases hread

/-- The three readers call each other with less fuel, so one induction carries them all. -/
theorem spelledAt (fuel : Nat) : SpelledAt fuel := by
  induction fuel with
  | zero =>
    constructor
    · intro depth s v rest h
      rw [readValue] at h
      cases h
    · intro depth s vs rest h
      rw [readItems] at h
      cases h
    · intro depth s ms rest h
      rw [readMembers] at h
      cases h
  | succ fuel ih => exact ⟨ih.readValue, ih.readItems, ih.readMembers⟩

/-! ## Documents -/

/-- What is read is a document. -/
theorem exists_form_of_readDocument (h : readDocument .exact s = .ok v) : ∃ f, IsDocument f s := by
  unfold readDocument at h
  split at h
  · cases h
  · next after hvalue =>
    obtain ⟨f, t, hf, hskip⟩ := (spelledAt _).value hvalue
    obtain ⟨b, hb, hs⟩ := exists_skip s
    split at h
    · next hend =>
      obtain ⟨b', hb', hafter⟩ := exists_skip after
      rw [hend, List.append_nil] at hafter
      exact ⟨f, b, t, after, hb, hf, hafter ▸ hb', by rw [← hskip]; exact hs⟩
    · cases h

/-- **Documents**: a document has the value of its syntax tree if it stays within the limits, and
none otherwise. -/
theorem readDocument_eq_ok_iff (h : IsDocument f s) :
    readDocument .exact s = .ok v ↔ f.Fits depthLimit ∧ v = f.value := by
  obtain ⟨b, t, b', hb, hf, hb', rfl⟩ := h
  have hends : EndsNumber b' := by
    have happend := EndsNumber.append_spaces hb' endsNumber_nil
    rwa [List.append_nil] at happend
  have hread : Except.GivesIf
      (readValue .exact (2 * (b ++ (t ++ b')).length + 2) depthLimit (t ++ b'))
      (f.Fits depthLimit) (f.value, b') :=
    hf.isRead hends (by
      simp only [List.length_append]
      omega)
  unfold readDocument
  rw [hf.skip_spaces_append hb]
  constructor
  · intro h
    split at h
    · cases h
    · next value after hvalue =>
      obtain ⟨hfits, heq⟩ := (hread _).mp hvalue
      cases heq
      split at h <;> cases h
      exact ⟨hfits, rfl⟩
  · rintro ⟨hfits, rfl⟩
    rw [(hread _).mpr ⟨hfits, rfl⟩]
    dsimp only
    rw [skip_eq_nil hb']

/-- No document starts with a byte order mark. -/
theorem IsDocument.head?_ne (h : IsDocument f s) : s.head? ≠ some '\uFEFF' := by
  obtain ⟨b, t, b', hb, hf, -, rfl⟩ := h
  cases b with
  | nil =>
    obtain ⟨c, t, rfl, -, -, hc⟩ := hf.exists_cons
    exact fun heq => hc (Option.some.inj heq)
  | cons c b =>
    intro heq
    cases heq
    exact absurd (hb _ List.mem_cons_self) (by decide)

theorem exists_form_of_read (h : read .exact s = .ok v) : ∃ f, IsDocument f s := by
  unfold read at h
  split at h
  · cases h
  · exact exists_form_of_readDocument (Except.mapError_eq_ok_iff.mp h)

theorem read_eq_ok_iff (h : IsDocument f s) :
    read .exact s = .ok v ↔ f.Fits depthLimit ∧ v = f.value := by
  rw [read, if_neg h.head?_ne, Except.mapError_eq_ok_iff, readDocument_eq_ok_iff h]

/-- The bytes of a text in the encoding that they suggest. -/
theorem readBytes_eq_ok_iff {bytes : List UInt8} (hbytes : Text.decodeDetected? bytes = .ok s) :
    readBytes .exact bytes = .ok v ↔ readDocument .exact s = .ok v := by
  rw [readBytes, hbytes]
  exact Except.mapError_eq_ok_iff

end Cambio.Json
