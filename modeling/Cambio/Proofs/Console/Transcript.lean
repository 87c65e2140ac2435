import Cambio.Console
import Mathlib.Data.List.TakeWhile

/-!
# Whole runs of the console

A run takes lines up to the first that asks to quit, or to the first whose answer cannot be written,
whichever comes first. A line gets stuck exactly if it is to show a conversion for which there is no
room, either when a result is told or at its end.

## Main definitions

- `Console.asksToQuit`, `Console.outcome` — what a line asks for and what comes of it
- `Console.after`, `Console.answers` — the session after lines and their answers
- `Console.AllAnswered` — no line gets stuck
- `Console.Course.shown` — the sessions of which a command shows the conversion

## Main statements

- `Console.attempt_isStuck_iff` — when a command gets stuck
- `Console.transcript_of_allAnswered`, `Console.transcript_of_isStuck` — the two kinds of runs
- `Console.status_eq_zero_iff` — which of them ends well
-/

namespace Cambio.Console

variable {s : Session} {command : Command} {line : List Char} {lines done rest : List (List Char)}

/-! ## One command -/

/-- The sessions of which a command shows the conversion, in order: those in which a result is told,
    and the last one if the panel is shown. -/
def Course.shown (c : Course) : List Session :=
  (c.told.filter fun note => note.property = .converted).map Session.Note.seen ++
    match c.view with
    | .lines _ => []
    | .panel _ => [c.session]

/-- A note gets stuck on what is seen of a conversion when it is told. -/
theorem exists_isStuck_iff (told : List Session.Note) :
    (∃ note ∈ told, note.isStuck = true) ↔
      ∃ seen ∈ (told.filter fun note => note.property = .converted).map Session.Note.seen,
        seen.isShowable = false := by
  simp only [Session.Note.isStuck, List.mem_map, List.mem_filter, Bool.and_eq_true,
    decide_eq_true_eq, Bool.not_eq_true']
  constructor
  · rintro ⟨note, hnote, hconverted, hshowable⟩
    exact ⟨note.seen, ⟨note, ⟨hnote, hconverted⟩, rfl⟩, hshowable⟩
  · rintro ⟨_, ⟨note, ⟨hnote, hconverted⟩, rfl⟩, hshowable⟩
    exact ⟨note, hnote, hconverted, hshowable⟩

/-- A command gets stuck exactly if there is no room for one of the conversions that it shows. -/
theorem attempt_isStuck_iff :
    (attempt s command).isStuck = true ↔
      ∃ seen ∈ (course s command).shown, seen.isShowable = false := by
  have htold := exists_isStuck_iff (course s command).told
  unfold attempt Course.shown
  dsimp only
  cases hfind : (course s command).told.find? Session.Note.isStuck with
  | some note =>
    refine iff_of_true rfl ?_
    obtain ⟨seen, hseen, hshowable⟩ :=
      htold.mp ⟨note, List.mem_of_find?_eq_some hfind, List.find?_some hfind⟩
    exact ⟨seen, List.mem_append_left _ hseen, hshowable⟩
  | none =>
    have hnone : ¬ ∃ seen ∈ ((course s command).told.filter fun note =>
        note.property = .converted).map Session.Note.seen, seen.isShowable = false := by
      rw [← htold]
      rintro ⟨note, hnote, hstuck⟩
      exact List.find?_eq_none.mp hfind note hnote hstuck
    cases (course s command).view with
    | lines answer =>
      rw [List.append_nil]
      exact iff_of_false Bool.false_ne_true hnone
    | panel before =>
      dsimp only
      constructor
      · intro hstuck
        refine ⟨(course s command).session, List.mem_append_right _ List.mem_cons_self, ?_⟩
        split_ifs at hstuck with hshowable
        simpa using hshowable
      · rintro ⟨seen, hseen, hshowable⟩
        rcases List.mem_append.mp hseen with htold | hlast
        · exact absurd ⟨seen, htold, hshowable⟩ hnone
        · rw [List.mem_singleton.mp hlast] at hshowable
          rw [hshowable]
          rfl

/-- A command that does not get stuck runs its whole course. -/
theorem attempt_of_not_isStuck (h : (attempt s command).isStuck = false) :
    attempt s command = ⟨(run s command).1, (run s command).2, false⟩ := by
  unfold attempt run Course.answer at *
  dsimp only at h ⊢
  split at h
  · cases h
  · next hview => rw [hview]
  · next hview =>
    split_ifs at h ⊢
    rw [hview]

/-! ## Lines -/

/-- A line asks to quit. -/
def asksToQuit (line : List Char) : Bool :=
  Command.ofLine? line = some .quit

/-- What comes of a line; of a blank one nothing does. -/
def outcome (s : Session) (line : List Char) : Outcome :=
  match Command.ofLine? line with
  | some command => attempt s command
  | none => ⟨s, [], false⟩

/-- The session after lines. -/
def after (s : Session) (lines : List (List Char)) : Session :=
  lines.foldl (fun s line => (outcome s line).session) s

/-- The answers to lines. -/
def answers (s : Session) : List (List Char) → List Answer
  | [] => []
  | line :: rest => (outcome s line).answer :: answers (outcome s line).session rest

/-- No line gets stuck, each in the session that the lines before it leave. -/
def AllAnswered (s : Session) : List (List Char) → Prop
  | [] => True
  | line :: rest =>
    (outcome s line).isStuck = false ∧ AllAnswered (outcome s line).session rest

/-- The lines before the first that asks to quit. -/
def untilQuit (lines : List (List Char)) : List (List Char) :=
  lines.takeWhile fun line => !asksToQuit line

/-- The lines after the first that asks to quit. -/
def afterQuit (lines : List (List Char)) : List (List Char) :=
  (lines.dropWhile fun line => !asksToQuit line).tail

theorem outcome_of_asksToQuit (h : asksToQuit line = true) : outcome s line = ⟨s, [], false⟩ := by
  rw [outcome, of_decide_eq_true h]
  rfl

/-- What a line that goes on gives to the transcript. -/
theorem transcript_cons (h : asksToQuit line = false) :
    transcript s ((line :: rest).map some) =
      if (outcome s line).isStuck then
        ⟨(outcome s line).session, [], (outcome s line).answer, .broken, rest.length⟩
      else
        { transcript (outcome s line).session (rest.map some) with
          answers := (outcome s line).answer ::
            (transcript (outcome s line).session (rest.map some)).answers } := by
  have hquit : Command.ofLine? line ≠ some .quit := of_decide_eq_false h
  rw [List.map_cons, transcript, outcome]
  cases hline : Command.ofLine? line with
  | none => rfl
  | some command =>
    rw [hline] at hquit
    cases command with
    | quit => exact absurd rfl hquit
    | _ => rw [List.length_map]

/-- Where not all lines are answered there is a first that gets stuck. -/
theorem exists_of_not_allAnswered (h : ¬ AllAnswered s lines) :
    ∃ done line rest, lines = done ++ line :: rest ∧ AllAnswered s done ∧
      (outcome (after s done) line).isStuck = true := by
  induction lines generalizing s with
  | nil => exact absurd trivial h
  | cons line rest ih =>
    cases hstuck : (outcome s line).isStuck with
    | true => exact ⟨[], line, rest, rfl, trivial, hstuck⟩
    | false =>
      obtain ⟨done, last, more, rfl, hdone, hlast⟩ := ih fun hrest => h ⟨hstuck, hrest⟩
      exact ⟨line :: done, last, more, rfl, ⟨hstuck, hdone⟩, hlast⟩

/-! ## Whole runs -/

/-- If no line gets stuck, all are answered up to the first that asks to quit. -/
theorem transcript_of_allAnswered (h : AllAnswered s (untilQuit lines)) :
    transcript s (lines.map some) =
      ⟨after s (untilQuit lines), answers s (untilQuit lines), [],
        if lines.any asksToQuit then .quit else .endOfInput, (afterQuit lines).length⟩ := by
  induction lines generalizing s with
  | nil => rfl
  | cons line rest ih =>
    cases hquit : asksToQuit line with
    | true =>
      have hline : Command.ofLine? line = some .quit := of_decide_eq_true hquit
      simp [transcript, hline, untilQuit, afterQuit, hquit, after, answers]
    | false =>
      have huntil : untilQuit (line :: rest) = line :: untilQuit rest := by
        rw [untilQuit, List.takeWhile_cons, hquit]
        rfl
      have hafter : afterQuit (line :: rest) = afterQuit rest := by
        rw [afterQuit, List.dropWhile_cons, hquit]
        rfl
      rw [huntil] at h ⊢
      obtain ⟨hgoes, hmore⟩ := h
      rw [transcript_cons hquit, if_neg (by simp [hgoes]), ih hmore, hafter, List.any_cons, hquit,
        Bool.false_or]
      rfl

/-- A line that gets stuck ends the run; the lines after it stay unread. -/
theorem transcript_of_isStuck (hquit : ∀ line ∈ done, asksToQuit line = false)
    (hdone : AllAnswered s done) (hstuck : (outcome (after s done) line).isStuck = true) :
    transcript s ((done ++ line :: rest).map some) =
      ⟨(outcome (after s done) line).session, answers s done, (outcome (after s done) line).answer,
        .broken, rest.length⟩ := by
  induction done generalizing s with
  | nil =>
    have hgoes : asksToQuit line = false := by
      by_contra hasks
      rw [outcome_of_asksToQuit (by simpa using hasks)] at hstuck
      cases hstuck
    rw [List.nil_append, transcript_cons hgoes]
    exact if_pos hstuck
  | cons first done ih =>
    obtain ⟨hfirst, hmore⟩ := hdone
    rw [List.cons_append, transcript_cons (hquit first List.mem_cons_self),
      if_neg (by simp [hfirst]),
      ih (fun line hline => hquit line (List.mem_cons_of_mem _ hline)) hmore hstuck]
    rfl

theorem asksToQuit_of_mem_untilQuit (h : line ∈ untilQuit lines) : asksToQuit line = false := by
  simpa using List.mem_takeWhile_imp h

/-- A run ends well exactly if no line gets stuck before one asks to quit. -/
theorem status_eq_zero_iff :
    (transcript s (lines.map some)).ending.status = 0 ↔ AllAnswered s (untilQuit lines) := by
  constructor
  · intro hstatus
    by_contra hnot
    obtain ⟨done, line, rest, hsplit, hdone, hstuck⟩ := exists_of_not_allAnswered hnot
    have hquit : ∀ l ∈ done, asksToQuit l = false := by
      intro l hl
      have hmem : l ∈ untilQuit lines := hsplit ▸ List.mem_append_left _ hl
      exact asksToQuit_of_mem_untilQuit hmem
    have hlines := List.takeWhile_append_dropWhile (p := fun line => !asksToQuit line) (l := lines)
    rw [← untilQuit, hsplit, List.append_assoc, List.cons_append] at hlines
    rw [← hlines, transcript_of_isStuck hquit hdone hstuck] at hstatus
    cases hstatus
  · intro hall
    rw [transcript_of_allAnswered hall]
    dsimp only
    split <;> rfl

end Cambio.Console
