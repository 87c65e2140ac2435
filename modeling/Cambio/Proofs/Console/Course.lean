import Cambio.Proofs.Console.Transcript
import Cambio.Proofs.Decimal.Scientific
import Cambio.Proofs.Keypad.Reading
import Cambio.Proofs.Session.Invariant

/-!
# What commands keep

A command asks some operations of the session, one after the other, so it keeps what the changes of
a converter keep. Only the amount that it enters has to be looked at: that of an exchange is read
from the line, and the others are the number on the keypad.

## Main definitions

- `Console.Command.entered?`, `Console.Command.keyCount` — the amount that a command enters, and the
  keys that it presses
- `Console.KeepsEntry` — a property that is kept when this amount is entered

## Main statements

- `Console.throughout_course` — commands without keys
- `Console.kept_course`, `Console.kept_attempt` — what is kept after every command, and when
  conversions were shown
-/

namespace Cambio.Console

open Session (Throughout throughout_nil)

variable {Q : Converter → Prop} {s : Session} {command : Command}

/-! ## Commands -/

/-- The amount that a command enters, if it enters one. -/
def Command.entered? (s : Session) : Command → Option Converter.Entry
  | .exchange amount _ _ => some (.ofText amount)
  | .send => s.sendable?
  | .panel => s.sendable?
  | _ => none

/-- The number of keys that a command presses at most. -/
def Command.keyCount : Command → Nat
  | .key _ => 1
  | .keys text => text.length
  | _ => 0

theorem pressKeys_leaves (s : Session) (text : List Char) :
    (pressKeys s text).1.converter = s.converter ∧ (pressKeys s text).1.outside = s.outside := by
  induction text generalizing s with
  | nil => exact ⟨rfl, rfl⟩
  | cons c rest ih =>
    unfold pressKeys
    split
    · exact ih (s.press _).1
    · exact ⟨rfl, rfl⟩

theorem throughout_convertIfNeeded (hQ : Converter.IsKept Q) (h : Q s.converter) :
    Throughout s.keypad Q (convertIfNeeded s) := by
  unfold convertIfNeeded
  split
  · exact throughout_nil h
  · exact Session.throughout_convert hQ h

/-- What a command that enters an amount needs for a property to be kept. -/
def KeepsEntry (Q : Converter → Prop) (e? : Option Converter.Entry) : Prop :=
  ∀ e amount c, e? = some e → e.value = .ok amount → Q c → Q { c with amount := amount }

/-- The session after a command, and what was told meanwhile. -/
def Course.changes (c : Course) : Session × List Session.Note :=
  (c.session, c.told)

theorem throughout_exchange (hQ : Converter.IsKept Q) (h : Q s.converter)
    {amount fromCode toCode : List Char} (hentry : KeepsEntry Q (some (.ofText amount))) :
    Throughout s.keypad Q (Course.ofExchange s amount fromCode toCode).changes := by
  unfold Course.ofExchange
  split
  · exact throughout_nil h
  · next fromCurrency toCurrency _ =>
    have hfirst := Session.throughout_selectFrom hQ h (.currency fromCurrency)
    have hsecond := Session.throughout_selectTo hQ hfirst.last (.currency toCurrency)
    have hthird := Session.throughout_enterAmount hQ hsecond.last
      fun a ha => hentry (.ofText amount) a _ rfl ha hsecond.last
    have hlast := throughout_convertIfNeeded hQ hthird.last
    rw [hthird.keypad] at hlast
    rw [hsecond.keypad] at hthird hlast
    rw [hfirst.keypad] at hsecond hthird hlast
    exact ((hfirst.append hsecond).append hthird).append hlast

/-- What the changes of a converter keep holds throughout a command without keys, if the amount that
    it enters keeps it as well. -/
theorem throughout_course (hQ : Converter.IsKept Q) (h : Q s.converter)
    (hentry : KeepsEntry Q (command.entered? s)) (hkeys : command.keyCount = 0) :
    Throughout s.keypad Q (course s command).changes := by
  cases command with
  | quit | help | exchangeUsage | rates => exact throughout_nil h
  | key key => cases hkeys
  | keys text =>
    rw [List.eq_nil_of_length_eq_zero hkeys]
    exact throughout_nil h
  | exchange amount fromCode toCode => exact throughout_exchange hQ h hentry
  | swap =>
    have hfirst := Session.throughout_swap hQ h
    have hlast := throughout_convertIfNeeded hQ hfirst.last
    rw [hfirst.keypad] at hlast
    exact hfirst.append hlast
  | send =>
    have hsend := Session.throughout_send hQ h fun e a he ha => hentry e a s.converter he ha h
    unfold course
    generalize s.send = sent at hsend ⊢
    obtain ⟨_ | _, after, told⟩ := sent
    · exact hsend
    · exact hsend
  | panel =>
    have htoggle := Session.throughout_togglePanel hQ h
      fun e a he ha => hentry e a s.converter he ha h
    unfold course
    dsimp only
    split
    · exact htoggle
    · exact htoggle

/-- Keys leave the converter alone. -/
theorem course_of_keys (hkeys : command.keyCount ≠ 0) :
    (course s command).session.converter = s.converter ∧ (course s command).told = [] := by
  cases command with
  | key key => exact ⟨rfl, rfl⟩
  | keys text => exact ⟨(pressKeys_leaves s text).1, rfl⟩
  | _ => exact absurd rfl hkeys

/-- What is kept holds after a command, and it held whenever something was told. -/
theorem kept_course (hQ : Converter.IsKept Q) (h : Q s.converter)
    (hentry : KeepsEntry Q (command.entered? s)) :
    Q (course s command).session.converter ∧
      ∀ note ∈ (course s command).told, Q note.seen.converter := by
  by_cases hkeys : command.keyCount = 0
  · have hthroughout := throughout_course hQ h hentry hkeys
    exact ⟨hthroughout.last, hthroughout.told⟩
  · obtain ⟨hconverter, htold⟩ := course_of_keys (s := s) hkeys
    rw [hconverter, htold]
    exact ⟨h, fun _ hnote => absurd hnote List.not_mem_nil⟩

/-- It holds also if the command gets stuck, and it held when the conversions were shown. -/
theorem kept_attempt (hQ : Converter.IsKept Q) (h : Q s.converter)
    (hentry : KeepsEntry Q (command.entered? s)) :
    Q (attempt s command).session.converter ∧
      ∀ seen ∈ (course s command).shown, Q seen.converter := by
  obtain ⟨hlast, htold⟩ := kept_course hQ h hentry
  constructor
  · unfold attempt
    dsimp only
    split
    · next hfind => exact htold _ (List.mem_of_find?_eq_some hfind)
    · exact hlast
    · split <;> exact hlast
  · intro seen hseen
    unfold Course.shown at hseen
    rcases List.mem_append.mp hseen with htell | hview
    · obtain ⟨note, hnote, rfl⟩ := List.mem_map.mp htell
      exact htold note (List.mem_filter.mp hnote).1
    · split at hview
      · cases hview
      · rw [List.mem_singleton.mp hview]
        exact hlast

/-! ## The number on the keypad -/

theorem value_ofDecimal {d : Decimal} (h : d.IsHeld) :
    (Converter.Entry.ofDecimal d).value = .ok d := by
  rw [Converter.Entry.value, Converter.Entry.ofDecimal, Decimal.parse_scientific h]
  exact if_pos (Decimal.isFinite_of_isHeld h)

/-- The number that the keypad sends is entered as it is. -/
theorem exists_of_sendable? {e : Converter.Entry} (h : s.sendable? = some e) :
    ∃ d, s.keypad.hasError = false ∧ Keypad.parseNumber s.keypad.display = .ok d ∧
      e.value = .ok d := by
  unfold Session.sendable? at h
  split_ifs at h with herror
  cases hnumber : Keypad.parseNumber s.keypad.display with
  | error f =>
    rw [hnumber] at h
    cases h
  | ok d =>
    rw [hnumber] at h
    cases h
    obtain ⟨hparse, hfinite⟩ := Keypad.parseNumber_eq_ok_iff.mp hnumber
    exact ⟨d, by simpa using herror, rfl, value_ofDecimal (Decimal.isHeld_of_parse hparse hfinite)⟩

end Cambio.Console
