import Cambio.Proofs.Entries
import Cambio.Proofs.Json.Scalar
import Cambio.Proofs.Json.Text

/-!
# Documents, read back

A document that is written over several lines is read back as it was, from its scalars up through
lists and objects whose names are all different.

## Main definitions

- `Json.ReadsBack` — a value that is read back from what is written for it

## Main statements

- `Json.readsBack_text`, `Json.readsBack_list`, `Json.readsBack_object` — texts, lists and objects
- `Json.read_writeIndented` — a whole document
-/

namespace Cambio.Json

variable {style : Style} {rule : NumberRule} {c : Char} {s rest : List Char} {v : Json}
  {level depth fuel : Nat} {name : String} {vs : List Json} {ms : List (String × Json)}

/-! ## Blanks -/

theorem skip_cons (h : isSpace c = false) : skip (c :: s) = c :: s := by
  rw [skip, List.dropWhile_cons, h]
  rfl

theorem skip_cons_space (h : isSpace c = true) : skip (c :: s) = skip s := by
  rw [skip, List.dropWhile_cons, h]
  rfl

theorem skip_newLine (level : Nat) (s : List Char) : skip (newLine level ++ s) = skip s := by
  have hblanks (n : Nat) : skip (List.replicate n ' ' ++ s) = skip s := by
    induction n with
    | zero => rfl
    | succ n ih => exact (skip_cons_space (by decide)).trans ih
  exact (skip_cons_space (by decide)).trans (hblanks _)

/-! ## Values -/

theorem endsNumber_nil : EndsNumber [] :=
  fun _ h => nomatch h

theorem endsNumber_comma (s : List Char) : EndsNumber (',' :: s) := by
  intro c hc
  cases hc
  decide

theorem endsNumber_newLine (level : Nat) (s : List Char) : EndsNumber (newLine level ++ s) := by
  intro c hc
  cases hc
  decide

/-- A value is read back from what is written for it, at a level of blanks and of nesting. -/
def ReadsBack (style : Style) (rule : NumberRule) (level depth : Nat) (v : Json) : Prop :=
  ∀ fuel rest, EndsNumber rest → (writeAt style level v).length ≤ fuel →
    readValue rule fuel depth (skip (writeAt style level v ++ rest)) = .ok (v, rest)

theorem writeText_append (style : Style) (t : String) (s : List Char) :
    writeText style t ++ s = '"' :: (t.toList.flatMap (writeChar style) ++ '"' :: s) := by
  simp [writeText]

theorem readsBack_text {t : String} (h : ReadsText style t) (rule : NumberRule)
    (level depth : Nat) : ReadsBack style rule level depth (.text t) := by
  intro fuel rest _ hfuel
  have hwrite : writeAt style level (.text t) = writeText style t := by
    rw [writeAt, writeScalar]
    all_goals simp
  rw [hwrite] at hfuel ⊢
  cases fuel with
  | zero => simp [writeText] at hfuel
  | succ fuel =>
    rw [writeText_append, skip_cons (by decide), readValue, h]
    rfl

/-! ## Lists -/

/-- No item starts with the bracket that ends a list. -/
theorem readItems_closing (rule : NumberRule) (fuel depth : Nat) (s : List Char)
    (r : List Json × List Char) : readItems rule fuel depth (']' :: s) ≠ .ok r := by
  intro h
  have hscalar : readScalar rule (']' :: s) = .error (.form .expectedValue (s.length + 1)) := rfl
  cases fuel with
  | zero => cases h
  | succ fuel =>
    cases fuel with
    | zero => cases h
    | succ fuel =>
      rw [readItems, readValue, hscalar] at h
      · cases h
      · simp
      · simp
      · simp

/-- What is read of the items of a list after one of them. -/
def afterItem (rule : NumberRule) (fuel depth : Nat) (v : Json) :
    List Char → Except Stop (List Json × List Char)
  | ']' :: rest => .ok ([v], rest)
  | ',' :: rest => (readItems rule fuel depth (skip rest)).map fun (vs, rest) => (v :: vs, rest)
  | rest => .error (.form .expectedComma rest.length)

theorem readItems_item (hv : ReadsBack style rule level depth v)
    (hfuel : (writeAt style level v).length ≤ fuel) (hrest : EndsNumber rest) :
    readItems rule (fuel + 1) depth (skip (writeAt style level v ++ rest)) =
      afterItem rule fuel depth v (skip rest) := by
  rw [readItems, hv fuel rest hrest hfuel]
  rfl

/-- What is written for the items of a list between its brackets, but for the blanks. -/
def itemLines (style : Style) (level : Nat) (vs : List Json) : List Char :=
  separated (',' :: newLine level) (writeItemsAt style level vs)

theorem itemLines_singleton (style : Style) (level : Nat) (v : Json) :
    itemLines style level [v] = writeAt style level v := by
  rw [itemLines, writeItemsAt, writeItemsAt, separated]

theorem itemLines_cons (style : Style) (level : Nat) (v : Json) (hnil : vs ≠ []) :
    itemLines style level (v :: vs) =
      writeAt style level v ++ ',' :: (newLine level ++ itemLines style level vs) := by
  obtain ⟨w, more, rfl⟩ := List.exists_cons_of_ne_nil hnil
  rw [itemLines, itemLines, writeItemsAt, writeItemsAt, separated, List.append_assoc]
  · rfl
  · simp

/-- The items of a list up to its closing bracket. -/
theorem readItems_itemLines (hnil : vs ≠ []) (hvs : ∀ v ∈ vs, ReadsBack style rule level depth v)
    (hfuel : (itemLines style level vs).length < fuel) (above : Nat) (rest : List Char) :
    readItems rule fuel depth
        (skip (itemLines style level vs ++ (newLine above ++ ']' :: rest))) = .ok (vs, rest) := by
  induction vs generalizing fuel with
  | nil => exact absurd rfl hnil
  | cons v more ih =>
    have hv : ReadsBack style rule level depth v := hvs v List.mem_cons_self
    obtain ⟨fuel, rfl⟩ : ∃ n, fuel = n + 1 := ⟨fuel - 1, by omega⟩
    by_cases hmore : more = []
    · subst hmore
      rw [itemLines_singleton] at hfuel ⊢
      rw [readItems_item hv (by omega) (endsNumber_newLine _ _), skip_newLine,
        skip_cons (by decide)]
      rfl
    · rw [itemLines_cons style level v hmore, List.length_append, List.length_cons,
        List.length_append] at hfuel
      have hrest := ih hmore (fun w hw => hvs w (List.mem_cons_of_mem _ hw))
        (show (itemLines style level more).length < fuel by omega)
      rw [itemLines_cons style level v hmore, List.append_assoc, List.cons_append,
        readItems_item hv (by omega) (endsNumber_comma _), skip_cons (by decide)]
      show (readItems rule fuel depth (skip (newLine level ++ itemLines style level more ++ _))).map
        _ = _
      rw [List.append_assoc, skip_newLine, hrest]
      rfl

theorem writeAt_list_of_ne_nil (hnil : vs ≠ []) (level : Nat) :
    writeAt style level (.list vs) =
      '[' :: (newLine (level + 1) ++
        (itemLines style (level + 1) vs ++ (newLine level ++ [']']))) := by
  obtain ⟨v, more, rfl⟩ := List.exists_cons_of_ne_nil hnil
  rw [writeAt, writeItemsAt, enclosed]
  · simp [itemLines, writeItemsAt]
  · simp

/-- A list is read back if its items are, a level further in. -/
theorem readsBack_list (hvs : ∀ v ∈ vs, ReadsBack style rule (level + 1) depth v) :
    ReadsBack style rule level (depth + 1) (.list vs) := by
  intro fuel rest _ hfuel
  by_cases hnil : vs = []
  · subst hnil
    have hwrite : writeAt style level (.list []) = ['[', ']'] := by
      rw [writeAt, writeItemsAt, enclosed]
    rw [hwrite] at hfuel ⊢
    obtain ⟨fuel, rfl⟩ : ∃ n, fuel = n + 1 := ⟨fuel - 1, by simp at hfuel; omega⟩
    rw [List.cons_append, skip_cons (by decide), readValue]
    rfl
  · rw [writeAt_list_of_ne_nil hnil, List.length_cons, List.length_append,
      List.length_append] at hfuel
    obtain ⟨fuel, rfl⟩ : ∃ n, fuel = n + 1 := ⟨fuel - 1, by omega⟩
    have hread := readItems_itemLines hnil hvs
      (show (itemLines style (level + 1) vs).length < fuel by
        simp [newLine] at hfuel
        omega) level rest
    rw [writeAt_list_of_ne_nil hnil, List.cons_append, skip_cons (by decide), readValue,
      List.append_assoc, skip_newLine, List.append_assoc, List.append_assoc]
    change readItems rule fuel depth (skip (itemLines style (level + 1) vs ++
      (newLine level ++ ([']'] ++ rest)))) = _ at hread
    generalize skip (itemLines style (level + 1) vs ++ (newLine level ++ ([']'] ++ rest))) = s
      at hread ⊢
    dsimp only
    split
    · exact absurd hread (readItems_closing rule fuel depth _ _)
    · rw [hread]
      rfl

/-! ## Members -/

/-- What is read of the members of an object after one of them. -/
def afterMember (rule : NumberRule) (fuel depth : Nat) (m : String × Json) :
    List Char → Except Stop (List (String × Json) × List Char)
  | '\x7d' :: rest => .ok ([m], rest)
  | ',' :: rest => (readMembers rule fuel depth (skip rest)).map fun (ms, rest) => (m :: ms, rest)
  | rest => .error (.form .expectedComma rest.length)

theorem readMembers_member (hname : ReadsText style name)
    (hv : ReadsBack style rule level depth v) (hfuel : (writeAt style level v).length ≤ fuel)
    (hrest : EndsNumber rest) :
    readMembers rule (fuel + 1) depth
        (writeText style name ++ ':' :: ' ' :: writeAt style level v ++ rest) =
      afterMember rule fuel depth (name, v) (skip rest) := by
  have hread : readValue rule fuel depth (skip (' ' :: (writeAt style level v ++ rest))) =
      .ok (v, rest) := by
    rw [skip_cons_space (by decide), hv fuel rest hrest hfuel]
  rw [List.append_assoc, writeText_append, readMembers, hname]
  dsimp only
  rw [List.cons_append, List.cons_append, skip_cons (by decide)]
  simp only [hread]
  rfl

/-- What is written for the members of an object between its braces, but for the blanks. -/
def memberLines (style : Style) (level : Nat) (ms : List (String × Json)) : List Char :=
  separated (',' :: newLine level) (writeMembersAt style level ms)

theorem memberLines_singleton (style : Style) (level : Nat) (name : String) (v : Json) :
    memberLines style level [(name, v)] =
      writeText style name ++ ':' :: ' ' :: writeAt style level v := by
  rw [memberLines, writeMembersAt, writeMembersAt, separated]

theorem memberLines_cons (style : Style) (level : Nat) (name : String) (v : Json) (hnil : ms ≠ []) :
    memberLines style level ((name, v) :: ms) =
      writeText style name ++ ':' :: ' ' :: writeAt style level v ++
        ',' :: (newLine level ++ memberLines style level ms) := by
  obtain ⟨⟨n, w⟩, more, rfl⟩ := List.exists_cons_of_ne_nil hnil
  rw [memberLines, memberLines, writeMembersAt, writeMembersAt, separated, List.append_assoc]
  · rfl
  · simp

theorem exists_memberLines (style : Style) (hnil : ms ≠ []) (level : Nat) :
    ∃ s, memberLines style level ms = '"' :: s := by
  obtain ⟨⟨name, v⟩, more, rfl⟩ := List.exists_cons_of_ne_nil hnil
  by_cases hmore : more = []
  · rw [hmore, memberLines_singleton]
    exact ⟨_, rfl⟩
  · rw [memberLines_cons style level name v hmore]
    exact ⟨_, rfl⟩

theorem skip_memberLines (style : Style) (hnil : ms ≠ []) (level : Nat) (s : List Char) :
    skip (memberLines style level ms ++ s) = memberLines style level ms ++ s := by
  obtain ⟨body, hbody⟩ := exists_memberLines style hnil level
  rw [hbody]
  exact skip_cons (by decide)

/-- The members of an object up to its closing brace. -/
theorem readMembers_memberLines (hnil : ms ≠ [])
    (hms : ∀ m ∈ ms, ReadsText style m.1 ∧ ReadsBack style rule level depth m.2)
    (hfuel : (memberLines style level ms).length ≤ fuel) (above : Nat) (rest : List Char) :
    readMembers rule fuel depth
        (memberLines style level ms ++ (newLine above ++ '\x7d' :: rest)) = .ok (ms, rest) := by
  induction ms generalizing fuel with
  | nil => exact absurd rfl hnil
  | cons m more ih =>
    obtain ⟨name, v⟩ := m
    obtain ⟨hname, hv⟩ : ReadsText style name ∧ ReadsBack style rule level depth v :=
      hms (name, v) List.mem_cons_self
    by_cases hmore : more = []
    · subst hmore
      rw [memberLines_singleton, List.length_append, List.length_cons, List.length_cons] at hfuel
      obtain ⟨fuel, rfl⟩ : ∃ n, fuel = n + 1 := ⟨fuel - 1, by omega⟩
      rw [memberLines_singleton, readMembers_member hname hv (by omega) (endsNumber_newLine _ _),
        skip_newLine, skip_cons (by decide)]
      rfl
    · -- A member is longer than the one step it takes, so the fuel lasts for those after it.
      rw [memberLines_cons style level name v hmore, List.length_append, List.length_append,
        List.length_cons, List.length_cons, List.length_cons, List.length_append] at hfuel
      obtain ⟨fuel, rfl⟩ : ∃ n, fuel = n + 1 := ⟨fuel - 1, by omega⟩
      have hrest := ih hmore (fun m hm => hms m (List.mem_cons_of_mem _ hm))
        (show (memberLines style level more).length ≤ fuel by omega)
      rw [memberLines_cons style level name v hmore, List.append_assoc, List.cons_append,
        readMembers_member hname hv (by omega) (endsNumber_comma _), skip_cons (by decide)]
      show (readMembers rule fuel depth
        (skip (newLine level ++ memberLines style level more ++ _))).map _ = _
      rw [List.append_assoc, skip_newLine, skip_memberLines style hmore, hrest]
      rfl

/-! ## Objects and documents -/

theorem writeAt_object_of_ne_nil (style : Style) (hnil : ms ≠ []) (level : Nat) :
    writeAt style level (.object ms) =
      '\x7b' :: (newLine (level + 1) ++ (memberLines style (level + 1) ms ++
        (newLine level ++ ['\x7d']))) := by
  obtain ⟨m, more, rfl⟩ := List.exists_cons_of_ne_nil hnil
  rw [writeAt, writeMembersAt, enclosed]
  · simp [memberLines, writeMembersAt]
  · simp

/-- An object whose names are all different is read back if its members are, a level further in. -/
theorem readsBack_object (hnames : (Entries.names ms).Nodup)
    (hms : ∀ m ∈ ms, ReadsText style m.1 ∧ ReadsBack style rule (level + 1) depth m.2) :
    ReadsBack style rule level (depth + 1) (.object ms) := by
  intro fuel rest _ hfuel
  by_cases hnil : ms = []
  · subst hnil
    have hwrite : writeAt style level (.object []) = ['\x7b', '\x7d'] := by
      rw [writeAt, writeMembersAt, enclosed]
    rw [hwrite] at hfuel ⊢
    obtain ⟨fuel, rfl⟩ : ∃ n, fuel = n + 1 := ⟨fuel - 1, by simp at hfuel; omega⟩
    rw [List.cons_append, skip_cons (by decide), readValue]
    rfl
  · rw [writeAt_object_of_ne_nil style hnil, List.length_cons, List.length_append,
      List.length_append] at hfuel
    obtain ⟨fuel, rfl⟩ : ∃ n, fuel = n + 1 := ⟨fuel - 1, by omega⟩
    have hread := readMembers_memberLines hnil hms
      (show (memberLines style (level + 1) ms).length ≤ fuel by omega) level rest
    obtain ⟨body, hbody⟩ := exists_memberLines style hnil (level + 1)
    rw [writeAt_object_of_ne_nil style hnil, List.cons_append, skip_cons (by decide), readValue,
      List.append_assoc, skip_newLine, List.append_assoc, skip_memberLines style hnil,
      List.append_assoc]
    rw [hbody] at hread ⊢
    show (readMembers rule fuel depth
      ('"' :: body ++ (newLine level ++ '\x7d' :: rest))).map _ = _
    rw [hread]
    show Except.ok (Json.object (Entries.ofPairs ms), rest) = _
    rw [Entries.ofPairs_of_nodup hnames]

/-- A document is read back; the first character of an object is no byte order mark. -/
theorem read_writeIndented (hread : ReadsBack style rule 0 depthLimit (.object ms)) :
    read rule (writeIndented style (.object ms)) = .ok (.object ms) := by
  have hhead : (writeIndented style (.object ms)).head? = some '\x7b' := by
    by_cases hnil : ms = []
    · rw [hnil, writeIndented, writeAt, writeMembersAt, enclosed]
      rfl
    · rw [writeIndented, writeAt_object_of_ne_nil style hnil]
      rfl
  have hvalue := hread (2 * (writeIndented style (.object ms)).length + 2) [] endsNumber_nil (by
    show (writeIndented style (.object ms)).length ≤ _
    omega)
  rw [List.append_nil] at hvalue
  rw [read, hhead, if_neg (by decide), readDocument, writeIndented]
  rw [writeIndented] at hvalue
  rw [hvalue]
  rfl

end Cambio.Json
