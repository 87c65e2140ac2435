import Cambio.Proofs.Console.Course
import Cambio.Proofs.Keypad.Room
import Cambio.Proofs.Settings.Passes

/-!
# Room for what the console shows

A converted amount is a product, so there is always room for it. The amount itself is shown with two
places, and an amount that was entered as a power of ten may have no room for them: a conversion of
such an amount that is shown without an error is overfull, and this alone gets a line stuck. On the
keypad a number grows by a character with each key, so a run of lines in which no such amount is
entered ends well, as long as the lines are not longer than there is room.

## Main definitions

- `Session.IsOverfull` — a conversion that is shown for an amount without room
- `Console.RunRules` — how lines are worked through

## Main statements

- `Console.outcome_isStuck_iff` — a line gets stuck exactly if it is to show such a conversion
- `Console.allAnswered_of_room` — lines without such amounts are answered
- `Console.runRules_of_load` — all runs of a program that has started
-/

namespace Cambio

open Decimal (longestResult mostDigits)

/-! ## Converters -/

namespace Converter

variable {P : Decimal → Prop} {c d : Converter}

/-- There is room for the converted amount, and the amount has some property. -/
structure HasRoom (P : Decimal → Prop) (c : Converter) : Prop where
  places : c.settings.display.places ≤ 10
  converted : c.converted.hasPlaces c.settings.display.places = true
  amount : P c.amount

theorem SameView.hasRoom (hview : SameView c d) (h : c.HasRoom P) : d.HasRoom P := by
  refine ⟨?_, ?_, ?_⟩
  · rw [hview.settings]
    exact h.places
  · rw [hview.settings, hview.converted]
    exact h.converted
  · rw [hview.amount]
    exact h.amount

/-- Whatever changes, there is room for the converted amount. -/
theorem isKept_hasRoom (P : Decimal → Prop) : IsKept (HasRoom P) where
  fromCurrency _ _ h := ⟨h.places, h.converted, h.amount⟩
  toCurrency _ _ h := ⟨h.places, h.converted, h.amount⟩
  reportError _ _ h := ⟨h.places, rfl, h.amount⟩
  convert c o h := by
    obtain ⟨hsame, hyields⟩ := convert_selection c o
    refine ⟨hsame.settings ▸ h.places, ?_, hsame.amount ▸ h.amount⟩
    rw [hsame.settings]
    rcases hyields with hbefore | hzero | ⟨rate, hproduct⟩
    · rw [hbefore]
      exact h.converted
    · rw [hzero]
      rfl
    · exact Decimal.hasPlaces_of_mul hproduct h.places

theorem HasRoom.withAmount (h : c.HasRoom P) {amount : Decimal} (hamount : P amount) :
    HasRoom P { c with amount := amount } :=
  ⟨h.places, h.converted, hamount⟩

end Converter

namespace Session

variable {P : Decimal → Prop} {s : Session}

/-- A conversion is shown without an error, but there is no room for its amount. -/
structure IsOverfull (s : Session) : Prop where
  error : s.converter.error = none
  fromCurrency : s.converter.fromCurrency ≠ none
  toCurrency : s.converter.toCurrency ≠ none
  amount : s.converter.amount.hasPlaces 2 = false

theorem isShowable_eq_false_iff (h : s.converter.HasRoom P) :
    s.isShowable = false ↔ s.IsOverfull := by
  have hconverted : s.converter.converted.hasPlaces s.settings.display.places = true := h.converted
  simp only [isShowable, Converter.hasError, hconverted, Bool.and_true, Bool.or_eq_false_iff,
    Option.isSome_eq_false_iff, Option.isNone_iff_eq_none, Option.isNone_eq_false_iff,
    Option.isSome_iff_ne_none]
  constructor
  · rintro ⟨⟨⟨herror, hfrom⟩, hto⟩, hamount⟩
    exact ⟨herror, hfrom, hto, hamount⟩
  · intro h
    exact ⟨⟨⟨h.error, h.fromCurrency⟩, h.toCurrency⟩, h.amount⟩

end Session

namespace Console

variable {P : Decimal → Prop} {s : Session} {command : Command}
  {line : List Char} {lines done : List (List Char)} {room : Nat}

/-! ## Lines -/

/-- There is room for all converted amounts, whatever amounts are entered. -/
theorem kept_entry (e? : Option Converter.Entry) :
    KeepsEntry (Converter.HasRoom fun _ => True) e? :=
  fun _ _ _ _ _ h => h.withAmount trivial

theorem hasRoom_after (h : s.converter.HasRoom fun _ => True) :
    (after s lines).converter.HasRoom fun _ => True := by
  induction lines generalizing s with
  | nil => exact h
  | cons line rest ih =>
    refine ih (s := (outcome s line).session) ?_
    unfold outcome
    split
    · exact (kept_attempt (Converter.isKept_hasRoom _) h (kept_entry _)).1
    · exact h

/-- **Stuck lines**: a line gets stuck exactly if it is to show a conversion for whose amount there
    is no room. -/
theorem outcome_isStuck_iff (h : s.converter.HasRoom fun _ => True) :
    (outcome s line).isStuck = true ↔ ∃ command, Command.ofLine? line = some command ∧
      ∃ seen ∈ (course s command).shown, seen.IsOverfull := by
  unfold outcome
  cases Command.ofLine? line with
  | none => exact iff_of_false Bool.false_ne_true (by rintro ⟨_, ⟨⟩, _⟩)
  | some command =>
    have hshown := (kept_attempt (Converter.isKept_hasRoom _) h
      (kept_entry (command.entered? s))).2
    dsimp only
    rw [attempt_isStuck_iff]
    constructor
    · rintro ⟨seen, hseen, hshowable⟩
      exact ⟨command, rfl, seen, hseen,
        (Session.isShowable_eq_false_iff (hshown seen hseen)).mp hshowable⟩
    · rintro ⟨_, hsame, seen, hseen, hoverfull⟩
      cases hsame
      exact ⟨seen, hseen, (Session.isShowable_eq_false_iff (hshown seen hseen)).mpr hoverfull⟩

/-! ## The length of lines -/

theorem fits_pressKeys {text : List Char} (h : s.keypad.Fits room) (hroom : longestResult ≤ room) :
    (pressKeys s text).1.keypad.Fits (room + text.length) := by
  induction text generalizing s room with
  | nil => exact h
  | cons c rest ih =>
    unfold pressKeys
    split
    · next key _ =>
      have hpressed : (s.press key).1.keypad.Fits (room + 1) := h.press hroom key
      rw [List.length_cons, ← Nat.add_assoc, Nat.add_right_comm]
      exact ih hpressed (hroom.trans (Nat.le_succ _))
    · exact h.mono (Nat.le_add_right _ _)

theorem length_flatten_splitBy_le (p : Char → Bool) (line : List Char) :
    (Text.splitBy p line).flatten.length ≤ line.length := by
  induction line with
  | nil => rfl
  | cons c rest ih =>
    rw [Text.splitBy]
    split
    · exact Nat.succ_le_succ (Nat.zero_le _)
    · next piece pieces hpieces =>
      rw [hpieces] at ih
      rw [List.length_cons]
      split
      · rw [List.flatten_cons, List.nil_append]
        omega
      · rw [List.flatten_cons, List.cons_append, List.length_cons]
        rw [List.flatten_cons] at ih
        omega

/-- A line presses no more keys than it has characters. -/
theorem keyCount_le (h : Command.ofLine? line = some command) : command.keyCount ≤ line.length := by
  have hwords := length_flatten_splitBy_le Text.isBlank line
  unfold Command.ofLine? at h
  split at h
  · cases h
  · next first rest hfirst =>
    have htext : (first :: rest).flatten.length ≤ line.length := by
      rw [← hfirst, Text.words, List.flatten_filter_not_isEmpty]
      exact hwords
    have hline : 1 ≤ line.length := by
      rcases line with _ | ⟨c, line⟩
      · cases hfirst
      · exact Nat.succ_le_succ (Nat.zero_le _)
    dsimp only at h
    split at h
    · next hfound =>
      have hnone : ∀ entry ∈ commandWords, entry.2.keyCount = 0 := by decide
      obtain ⟨before, later, htable, -⟩ := List.lookup_eq_some_iff.mp hfound
      have hcount := hnone _ (htable ▸ List.mem_append_right _ List.mem_cons_self)
      rw [← Option.some.inj h]
      exact hcount.trans_le (Nat.zero_le _)
    · cases h
      exact hline
    · split_ifs at h
      · split at h
        · cases h
          exact Nat.zero_le _
        · cases h
          exact Nat.zero_le _
      · cases h
        exact htext

/-- A command takes at most one character more on the keypad for each key. -/
theorem fits_course (h : s.keypad.Fits room) (hroom : longestResult ≤ room) :
    (course s command).session.keypad.Fits (room + command.keyCount) := by
  by_cases hkeys : command.keyCount = 0
  · have hkeypad := (throughout_course (Q := fun _ => True)
      ⟨fun _ _ _ => trivial, fun _ _ _ => trivial, fun _ _ _ => trivial, fun _ _ _ => trivial⟩
      (s := s) trivial (fun _ _ _ _ _ _ => trivial) hkeys).keypad
    change (course s command).changes.1.keypad.Fits _
    rw [hkeypad, hkeys]
    exact h
  · cases command with
    | key key => exact h.press hroom key
    | keys text => exact fits_pressKeys h hroom
    | _ => exact absurd rfl hkeys

/-! ## Lines without large amounts -/

/-- There is room for the amount that a line enters, if it is an exchange. -/
def EntersRoom (line : List Char) : Prop :=
  ∀ amount fromCode toCode, Command.ofLine? line = some (.exchange amount fromCode toCode) →
    ∀ d, (Converter.Entry.ofText amount).value = .ok d → d.hasPlaces 2 = true

/-- There is room for what a session shows, and for the number on its keypad. -/
structure IsRoomy (s : Session) (room : Nat) : Prop where
  converter : s.converter.HasRoom fun amount => amount.hasPlaces 2 = true
  keypad : s.keypad.Fits room

/-- There is room for the number that the keypad sends. -/
theorem hasPlaces_of_sendable? (h : s.keypad.Fits room)
    (hroom : (room : Int) + 2 ≤ mostDigits) {e : Converter.Entry} {amount : Decimal}
    (he : s.sendable? = some e) (hvalue : e.value = .ok amount) :
    amount.hasPlaces 2 = true := by
  obtain ⟨d, herror, hnumber, hd⟩ := exists_of_sendable? he
  cases hd.symm.trans hvalue
  exact h.hasPlaces herror hnumber hroom

/-- A line without a large amount is answered, and takes no more of the room than its length. -/
theorem IsRoomy.outcome (h : IsRoomy s room) (hline : EntersRoom line)
    (hroom : longestResult ≤ room) (hmost : (room : Int) + 2 ≤ mostDigits) :
    (outcome s line).isStuck = false ∧ IsRoomy (outcome s line).session (room + line.length) := by
  unfold Console.outcome
  cases hcommand : Command.ofLine? line with
  | none => exact ⟨rfl, h.converter, h.keypad.mono (Nat.le_add_right _ _)⟩
  | some command =>
    have hentry : KeepsEntry (Converter.HasRoom fun amount => amount.hasPlaces 2 = true)
        (command.entered? s) := by
      intro e amount c he hvalue hc
      refine hc.withAmount ?_
      cases command with
      | exchange text fromCode toCode =>
        cases he
        exact hline text fromCode toCode hcommand amount hvalue
      | send | panel => exact hasPlaces_of_sendable? h.keypad hmost he hvalue
      | _ => cases he
    obtain ⟨hconverter, hshown⟩ := kept_attempt (Converter.isKept_hasRoom _) h.converter hentry
    have hgoes : (attempt s command).isStuck = false := by
      by_contra hstuck
      obtain ⟨seen, hseen, hshowable⟩ := attempt_isStuck_iff.mp (by simpa using hstuck)
      have hoverfull := (Session.isShowable_eq_false_iff (hshown seen hseen)).mp hshowable
      exact Bool.false_ne_true (hoverfull.amount.symm.trans (hshown seen hseen).amount)
    have hpressed : (course s command).session.keypad.Fits (room + command.keyCount) :=
      fits_course h.keypad hroom
    have hkeypad := hpressed.mono (Nat.add_le_add_left (keyCount_le hcommand) room)
    refine ⟨hgoes, hconverter, ?_⟩
    dsimp only
    rw [attempt_of_not_isStuck hgoes]
    exact hkeypad

/-- Lines without large amounts are answered, as long as there is room for all their characters. -/
theorem allAnswered_of_room (h : IsRoomy s room) (hlines : ∀ line ∈ lines, EntersRoom line)
    (hroom : longestResult ≤ room)
    (hmost : (room : Int) + lines.flatten.length + 2 ≤ mostDigits) : AllAnswered s lines := by
  induction lines generalizing s room with
  | nil => trivial
  | cons line rest ih =>
    rw [List.flatten_cons, List.length_append] at hmost
    obtain ⟨hgoes, hroomy⟩ := h.outcome (hlines line List.mem_cons_self) hroom (by omega)
    refine ⟨hgoes, ih hroomy (fun l hl => hlines l (List.mem_cons_of_mem _ hl)) (by omega) ?_⟩
    push_cast at hmost ⊢
    omega

/-! ## Runs of the program -/

/-- How lines are worked through. -/
structure RunRules (s : Session) (lines : List (List Char)) : Prop where
  /-- A run ends well exactly if every line before the first that asks to quit is answered. -/
  status : (transcript s (lines.map some)).ending.status = 0 ↔ AllAnswered s (untilQuit lines)
  /-- Then all these are answered, and exactly the lines after the one that asks stay unread. -/
  answered : AllAnswered s (untilQuit lines) → transcript s (lines.map some) =
    ⟨after s (untilQuit lines), answers s (untilQuit lines), [],
      if lines.any asksToQuit then .quit else .endOfInput, (afterQuit lines).length⟩
  /-- Otherwise the run ends at the first line that gets stuck. -/
  stuck : ∀ done line rest, lines = done ++ line :: rest →
    (∀ earlier ∈ done, asksToQuit earlier = false) → AllAnswered s done →
    (outcome (after s done) line).isStuck = true →
    transcript s (lines.map some) =
      ⟨(outcome (after s done) line).session, answers s done, (outcome (after s done) line).answer,
        .broken, rest.length⟩
  /-- In whatever state lines leave a session, another line gets stuck exactly if it is to show a
      conversion for whose amount there is no room. -/
  stuck_iff : ∀ done line, (outcome (after s done) line).isStuck = true ↔
    ∃ command, Command.ofLine? line = some command ∧
      ∃ seen ∈ (course (after s done) command).shown, seen.IsOverfull
  /-- Lines that enter no such amount are answered, whatever keys they press. -/
  room : (∀ line ∈ untilQuit lines, EntersRoom line) →
    ((untilQuit lines).flatten.length : Int) + longestResult + 2 ≤ mostDigits →
    AllAnswered s (untilQuit lines)

theorem runRules_of_isRoomy (h : IsRoomy s longestResult) (lines : List (List Char)) :
    RunRules s lines where
  status := status_eq_zero_iff
  answered := transcript_of_allAnswered
  stuck := by
    rintro done line rest rfl hquit hdone hstuck
    exact transcript_of_isStuck hquit hdone hstuck
  stuck_iff _ _ := outcome_isStuck_iff
    (hasRoom_after ⟨h.converter.places, h.converter.converted, trivial⟩)
  room hlines hmost := allAnswered_of_room h hlines le_rfl (by omega)

/-- There is room for everything in a session at its start. -/
theorem isRoomy_ofSettings {settings : Settings} {o : Outside} (hsettings : settings.Passes)
    (hstart : Session.ofSettings settings o = .ok s) : IsRoomy s longestResult := by
  obtain ⟨config, -, rfl⟩ := Except.map_eq_ok_iff.mp hstart
  have hplaces := (Schema.wholeBetween_whole_iff.mp hsettings.display.places).2
  exact ⟨⟨hplaces, rfl, rfl⟩, Keypad.fits_fresh le_rfl⟩

theorem IsRoomy.warmedUp (h : IsRoomy s room) : IsRoomy s.warmedUp.2 room :=
  ⟨(Converter.sameView_warmUp s.converter s.outside).hasRoom h.converter, h.keypad⟩

/-- The settings file of a program that keeps no rates and asks once for them. -/
def quickDisk : Disk :=
  ⟨[([Settings.fileName], .file (Text.encodeUtf8
    ("\x7b\"currency_api\":\x7b\"max_retries\":0,\"retry_delay\":0.0\x7d," ++
      "\"rate_cache\":\x7b\"enable_persistent_storage\":false\x7d\x7d").toList))]⟩

/-- The settings of this program. -/
def quickSettings : Settings :=
  { Settings.default with
    service := ⟨{ Settings.Service.default.client with maxRetries := 0, retryDelay := .zero },
      Settings.Service.default.supported⟩
    rates := { Settings.Rates.default with isPersistent := false } }

/-- A rate service that answers every request with a tiny rate of the dollar. -/
def tinyRates : Outside :=
  ⟨⟨.earliest, [⟨.zero, .status 200 (Text.encodeUtf8
    "\x7b\"data\":\x7b\"USD\":1e-999999999999999999\x7d\x7d".toList)⟩], [], []⟩, quickDisk⟩

/-- The session at the start of this program. -/
def quickSession : Session where
  keypad := .fresh
  converter := .ofSettings quickSettings (.ofConfig quickSettings.service.client)
    (some quickSettings.rates.path) (Converter.baselineCache .earliest)
  panelShown := false
  isBusy := false
  outside := tinyRates

theorem load_quickDisk :
    (Settings.load [] quickDisk (.ofText Settings.fileName)).1.result = .ok quickSettings := by
  decide +kernel

theorem ofSettings_quickSettings :
    Session.ofSettings quickSettings tinyRates = .ok quickSession := by
  have haccepted : quickSettings.service.client.accept = .ok quickSettings.service.client := by
    decide +kernel
  rw [Session.ofSettings, haccepted]
  rfl

end Console

end Cambio
