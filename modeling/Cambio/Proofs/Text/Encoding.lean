import Cambio.Text.Encoding
import Mathlib.Data.List.TakeWhile
import Mathlib.Tactic.SplitIfs

/-!
# Texts as bytes, read back

Every text is read back from its UTF-8 bytes, and only the bytes of a text are read as one. The
halves of pairs that a text keeps are written as the characters that are kept for them, and read as
those.

## Main statements

- `Text.charOfPoint_half?` — the code point of a character, or the half it is kept for
- `Text.decodeUtf8?_encodeUtf8` — a text, read back from its bytes
- `Text.decodeUtf8?_eq_ok_iff` — which bytes are a text
-/

namespace Cambio.Text

/-! ## Halves of pairs -/

theorem toNat_valid (c : Char) : c.toNat < 0xD800 ∨ 0xDFFF < c.toNat ∧ c.toNat < 0x110000 :=
  c.valid

theorem half?_eq_some_iff {c : Char} {n : Nat} :
    half? c = some n ↔ c.toNat = halfDistance + n ∧ firstHalf ≤ n ∧ n ≤ lastHalf := by
  unfold half?
  split_ifs with h
  · rw [Option.some.injEq]
    omega
  · refine iff_of_false (by simp) ?_
    rintro ⟨hc, hfirst, hlast⟩
    exact h ⟨by omega, by omega⟩

theorem charOfPoint_toNat (c : Char) : charOfPoint c.toNat = c := by
  have hvalid := toNat_valid c
  rw [charOfPoint, if_neg (by unfold firstHalf lastHalf; omega), Char.ofNat_toNat]

/-- The code point of a character, or the half of a pair that it is kept for, gives it back. -/
theorem charOfPoint_half? (c : Char) : charOfPoint ((half? c).getD c.toNat) = c := by
  cases hhalf : half? c with
  | some n =>
    obtain ⟨hc, hn⟩ := half?_eq_some_iff.mp hhalf
    rw [Option.getD_some, charOfPoint, if_pos hn, ← hc, Char.ofNat_toNat]
  | none => exact charOfPoint_toNat c

/-! ## The bytes of one character -/

variable {lead second : UInt8} {follow : List UInt8} {n k : Nat}

theorem toNat_toUInt8 (h : n < 256) : n.toUInt8.toNat = n :=
  Nat.mod_eq_of_lt h

theorem isContinuation_iff :
    isContinuation second = true ↔ 0x80 ≤ second.toNat ∧ second.toNat ≤ 0xBF := by
  unfold isContinuation
  rw [Bool.and_eq_true, decide_eq_true_iff, decide_eq_true_iff, UInt8.le_iff_toNat_le,
    UInt8.le_iff_toNat_le]
  rfl

theorem isContinuation_toUInt8 (n : Nat) : isContinuation (0x80 + n % 64).toUInt8 = true := by
  rw [isContinuation_iff, toNat_toUInt8 (by omega)]
  omega

theorem utf8Width?_toUInt8 (h : n < 256) :
    utf8Width? n.toUInt8 =
      if n < 0x80 then some 1
      else if 0xC2 ≤ n ∧ n ≤ 0xDF then some 2
      else if 0xE0 ≤ n ∧ n ≤ 0xEF then some 3
      else if 0xF0 ≤ n ∧ n ≤ 0xF4 then some 4
      else none := by
  simp only [utf8Width?, UInt8.lt_iff_toNat_lt, UInt8.le_iff_toNat_le, toNat_toUInt8 h,
    Bool.and_eq_true, decide_eq_true_iff]
  rfl

theorem admitsSecond_toUInt8 (surrogates : Bool) (h : n < 256) (hk : k < 64)
    (hlow : n = 0xE0 → 0x20 ≤ k) (hhalf : n = 0xED → k < 0x20) (hwide : n = 0xF0 → 0x10 ≤ k)
    (hhigh : n = 0xF4 → k < 0x10) :
    admitsSecond surrogates n.toUInt8 (0x80 + k).toUInt8 = true := by
  have hcontinuation : isContinuation (0x80 + k).toUInt8 = true := by
    rw [isContinuation_iff, toNat_toUInt8 (by omega)]
    omega
  have hsecond := toNat_toUInt8 (n := 0x80 + k) (by omega)
  unfold admitsSecond
  rw [hcontinuation, Bool.true_and]
  simp only [← UInt8.toNat_inj, UInt8.le_iff_toNat_le, toNat_toUInt8 h, hsecond]
  split_ifs with h1 h2 h3 h4
  · exact decide_eq_true (Nat.add_le_add_left (hlow h1) 0x80)
  · have hk' := hhalf h2
    rw [Bool.or_eq_true]
    exact .inr (decide_eq_true (show 0x80 + k ≤ 0x9F by omega))
  · exact decide_eq_true (Nat.add_le_add_left (hwide h3) 0x80)
  · have hk' := hhigh h4
    exact decide_eq_true (show 0x80 + k ≤ 0x8F by omega)
  · rfl

/-- A character of more than one byte, each of which continues it. -/
theorem utf8Chunk_of_width (surrogates : Bool) (hwidth : utf8Width? lead = some (k + 2))
    (hsecond : ∀ b, admitsSecond b lead second = true) (hlength : follow.length = k)
    (hfollow : ∀ b ∈ follow, isContinuation b = true)
    (hvalue : (second :: follow).foldl (fun n b => n * 64 + b.toNat % 64)
      (lead.toNat % Nat.pow 2 (7 - (k + 2))) = n) (rest : List UInt8) :
    utf8Chunk surrogates lead (second :: follow ++ rest) = ⟨.ok (charOfPoint n), k + 2⟩ := by
  have htake : ((follow ++ rest).take k).takeWhile isContinuation = follow := by
    rw [← hlength, List.take_left, List.takeWhile_eq_self_iff.mpr hfollow]
  unfold utf8Chunk
  rw [hwidth]
  simp only [List.cons_append, hsecond, if_true, Nat.add_sub_cancel, htake, List.length_cons,
    hlength, hvalue]

/-- The bytes of a character are its chunk, whatever follows them. -/
theorem exists_utf8Chunk (surrogates : Bool) (c : Char) :
    ∃ lead follow, encodeUtf8Char c = lead :: follow ∧
      ∀ rest, utf8Chunk surrogates lead (follow ++ rest) = ⟨.ok c, follow.length + 1⟩ := by
  have hvalid := toNat_valid c
  have hc := charOfPoint_toNat c
  unfold encodeUtf8Char
  dsimp only
  generalize c.toNat = n at hvalid hc ⊢
  -- From two bytes on, the bounds of the number are what the second byte has to obey.
  split_ifs with h1 h2 h3
  · refine ⟨_, [], rfl, fun rest => ?_⟩
    rw [utf8Chunk, utf8Width?_toUInt8 (by omega), if_pos h1]
    show (⟨.ok (charOfPoint n.toUInt8.toNat), 1⟩ : Chunk) = ⟨.ok c, 1⟩
    rw [toNat_toUInt8 (by omega), hc]
  · refine ⟨_, [_], rfl, fun rest => ?_⟩
    rw [← hc]
    refine utf8Chunk_of_width surrogates ?_ (fun b => ?_) rfl (by simp) ?_ rest
    · rw [utf8Width?_toUInt8 (by omega), if_neg (by omega), if_pos (by omega)]
      rfl
    · exact admitsSecond_toUInt8 b (by omega) (by omega) (by omega) (by omega) (by omega) (by omega)
    · show (0xC0 + n / 64).toUInt8.toNat % 32 * 64 + (0x80 + n % 64).toUInt8.toNat % 64 = n
      rw [toNat_toUInt8 (by omega), toNat_toUInt8 (by omega)]
      omega
  · refine ⟨_, [_, _], rfl, fun rest => ?_⟩
    rw [← hc]
    refine utf8Chunk_of_width surrogates ?_ (fun b => ?_) rfl ?_ ?_ rest
    · rw [utf8Width?_toUInt8 (by omega), if_neg (by omega), if_neg (by omega), if_pos (by omega)]
      rfl
    · exact admitsSecond_toUInt8 b (by omega) (by omega) (by omega) (by omega) (by omega) (by omega)
    · exact List.forall_mem_singleton.mpr (isContinuation_toUInt8 n)
    · show ((0xE0 + n / 4096).toUInt8.toNat % 16 * 64 +
        (0x80 + n / 64 % 64).toUInt8.toNat % 64) * 64 +
        (0x80 + n % 64).toUInt8.toNat % 64 = n
      rw [toNat_toUInt8 (by omega), toNat_toUInt8 (by omega), toNat_toUInt8 (by omega)]
      omega
  · refine ⟨_, [_, _, _], rfl, fun rest => ?_⟩
    rw [← hc]
    refine utf8Chunk_of_width surrogates ?_ (fun b => ?_) rfl ?_ ?_ rest
    · rw [utf8Width?_toUInt8 (by omega), if_neg (by omega), if_neg (by omega), if_neg (by omega),
        if_pos (by omega)]
      rfl
    · exact admitsSecond_toUInt8 b (by omega) (by omega) (by omega) (by omega) (by omega) (by omega)
    · exact List.forall_mem_cons.mpr ⟨isContinuation_toUInt8 _,
        List.forall_mem_singleton.mpr (isContinuation_toUInt8 n)⟩
    · show (((0xF0 + n / 262144).toUInt8.toNat % 8 * 64 +
        (0x80 + n / 4096 % 64).toUInt8.toNat % 64) * 64 +
        (0x80 + n / 64 % 64).toUInt8.toNat % 64) * 64 + (0x80 + n % 64).toUInt8.toNat % 64 = n
      rw [toNat_toUInt8 (by omega), toNat_toUInt8 (by omega), toNat_toUInt8 (by omega),
        toNat_toUInt8 (by omega)]
      omega

/-! ## The bytes of a text -/

theorem readChunks_encodeUtf8 (onFlaw : Flaw → Except Flaw Char) (surrogates : Bool) (s : List Char)
    (position fuel : Nat) (hfuel : (encodeUtf8 s).length ≤ fuel) :
    readChunks .utf8 surrogates onFlaw fuel position (encodeUtf8 s) = .ok s := by
  induction s generalizing position fuel with
  | nil => simp [encodeUtf8, readChunks]
  | cons c s ih =>
    obtain ⟨lead, follow, hbytes, hchunk⟩ := exists_utf8Chunk surrogates c
    have hcons : encodeUtf8 (c :: s) = lead :: (follow ++ encodeUtf8 s) := by
      rw [encodeUtf8, List.flatMap_cons, hbytes]
      rfl
    rw [hcons, List.length_cons, List.length_append] at hfuel
    obtain ⟨fuel, rfl⟩ : ∃ more, fuel = more + 1 := ⟨fuel - 1, by omega⟩
    have hchunk' : Charset.chunk .utf8 surrogates lead (follow ++ encodeUtf8 s) =
        ⟨.ok c, follow.length + 1⟩ := hchunk _
    have hdrop : (lead :: (follow ++ encodeUtf8 s)).drop (follow.length + 1) = encodeUtf8 s := by
      rw [List.drop_succ_cons, List.drop_left]
    rw [hcons, readChunks, hchunk']
    dsimp only
    rw [Nat.max_eq_right (by omega), hdrop, ih _ _ (by omega)]

/-- A text is read back from its bytes. -/
theorem decodeUtf8?_encodeUtf8 (s : List Char) : decodeUtf8? (encodeUtf8 s) = .ok s :=
  readChunks_encodeUtf8 _ _ s _ _ (Nat.le_refl _)

/-! ## Bytes, written back -/

theorem toNat_charOfPoint (h : n < 0xD800 ∨ 0xDFFF < n ∧ n < 0x110000) :
    (charOfPoint n).toNat = n := by
  rw [charOfPoint, if_neg (by unfold firstHalf lastHalf; omega), Char.toNat, Char.ofNat, dif_pos h]
  rfl

theorem utf8Width?_cases (h : utf8Width? lead = some k) :
    (k = 1 ∧ lead.toNat < 0x80) ∨ (k = 2 ∧ 0xC2 ≤ lead.toNat ∧ lead.toNat ≤ 0xDF) ∨
      (k = 3 ∧ 0xE0 ≤ lead.toNat ∧ lead.toNat ≤ 0xEF) ∨
      (k = 4 ∧ 0xF0 ≤ lead.toNat ∧ lead.toNat ≤ 0xF4) := by
  have hlead : lead.toNat.toUInt8 = lead := UInt8.ofNat_toNat
  rw [← hlead, utf8Width?_toUInt8 lead.toNat_lt] at h
  split_ifs at h <;> simp only [Option.some.injEq] at h <;> omega

/-- What the second byte of a character has to obey where no halves of pairs pass. -/
theorem admitsSecond_bounds (h : admitsSecond false lead second = true) :
    0x80 ≤ second.toNat ∧ second.toNat ≤ 0xBF ∧ (lead.toNat = 0xE0 → 0xA0 ≤ second.toNat) ∧
      (lead.toNat = 0xED → second.toNat ≤ 0x9F) ∧ (lead.toNat = 0xF0 → 0x90 ≤ second.toNat) ∧
      (lead.toNat = 0xF4 → second.toNat ≤ 0x8F) := by
  unfold admitsSecond at h
  rw [Bool.and_eq_true, isContinuation_iff] at h
  obtain ⟨⟨hlow, hhigh⟩, hrest⟩ := h
  simp only [← UInt8.toNat_inj, UInt8.le_iff_toNat_le, Bool.false_or, UInt8.reduceToNat] at hrest
  refine ⟨hlow, hhigh, ?_⟩
  split_ifs at hrest <;> simp only [decide_eq_true_iff] at hrest <;> omega

theorem toUInt8_eq_iff (h : n < 256) (b : UInt8) : n.toUInt8 = b ↔ n = b.toNat := by
  rw [← UInt8.toNat_inj, toNat_toUInt8 h]

/-- A continued character is written with the bytes that it was read from. -/
theorem encodeUtf8Char_of_two {b1 : UInt8} (hlead : 0xC2 ≤ lead.toNat ∧ lead.toNat ≤ 0xDF)
    (h1 : isContinuation b1 = true) :
    encodeUtf8Char (charOfPoint (lead.toNat % 32 * 64 + b1.toNat % 64)) = [lead, b1] := by
  rw [isContinuation_iff] at h1
  rw [encodeUtf8Char, toNat_charOfPoint (by omega)]
  rw [if_neg (by omega), if_pos (by omega), List.cons.injEq, List.cons.injEq,
    toUInt8_eq_iff (by omega), toUInt8_eq_iff (by omega)]
  exact ⟨by omega, by omega, rfl⟩

theorem encodeUtf8Char_of_three {b1 b2 : UInt8} (hlead : 0xE0 ≤ lead.toNat ∧ lead.toNat ≤ 0xEF)
    (h1 : admitsSecond false lead b1 = true) (h2 : isContinuation b2 = true) :
    encodeUtf8Char (charOfPoint ((lead.toNat % 16 * 64 + b1.toNat % 64) * 64 + b2.toNat % 64)) =
      [lead, b1, b2] := by
  have hbounds := admitsSecond_bounds h1
  rw [isContinuation_iff] at h2
  rw [encodeUtf8Char, toNat_charOfPoint (by omega)]
  rw [if_neg (by omega), if_neg (by omega), if_pos (by omega), List.cons.injEq, List.cons.injEq,
    List.cons.injEq, toUInt8_eq_iff (by omega), toUInt8_eq_iff (by omega),
    toUInt8_eq_iff (by omega)]
  exact ⟨by omega, by omega, by omega, rfl⟩

theorem encodeUtf8Char_of_four {b1 b2 b3 : UInt8} (hlead : 0xF0 ≤ lead.toNat ∧ lead.toNat ≤ 0xF4)
    (h1 : admitsSecond false lead b1 = true) (h2 : isContinuation b2 = true)
    (h3 : isContinuation b3 = true) :
    encodeUtf8Char (charOfPoint
      (((lead.toNat % 8 * 64 + b1.toNat % 64) * 64 + b2.toNat % 64) * 64 + b3.toNat % 64)) =
      [lead, b1, b2, b3] := by
  have hbounds := admitsSecond_bounds h1
  rw [isContinuation_iff] at h2 h3
  rw [encodeUtf8Char, toNat_charOfPoint (by omega)]
  rw [if_neg (by omega), if_neg (by omega), if_neg (by omega), List.cons.injEq, List.cons.injEq,
    List.cons.injEq, List.cons.injEq, toUInt8_eq_iff (by omega), toUInt8_eq_iff (by omega),
    toUInt8_eq_iff (by omega), toUInt8_eq_iff (by omega)]
  exact ⟨by omega, by omega, by omega, by omega, rfl⟩

/-- Bytes that all continue a character, as many as were asked for, are what comes first. -/
theorem take_of_takeWhile_length {more : List UInt8}
    (h : ((more.take k).takeWhile isContinuation).length = k) :
    (more.take k).takeWhile isContinuation = more.take k :=
  (List.takeWhile_prefix _).eq_of_length_le (by rw [h]; exact List.length_take_le k more)

/-- A continued character is written with the bytes that it was read from, however many. -/
theorem encodeUtf8Char_of_width (hwidth : utf8Width? lead = some (follow.length + 2))
    (hsecond : admitsSecond false lead second = true)
    (hfollow : ∀ b ∈ follow, isContinuation b = true) :
    encodeUtf8Char (charOfPoint ((second :: follow).foldl (fun n b => n * 64 + b.toNat % 64)
      (lead.toNat % Nat.pow 2 (7 - (follow.length + 2))))) = lead :: second :: follow := by
  have hwidths := utf8Width?_cases hwidth
  match follow with
  | [] =>
    have hcontinuation := (Bool.and_eq_true_iff.mp hsecond).1
    exact encodeUtf8Char_of_two (by simpa using hwidths) hcontinuation
  | [b2] => exact encodeUtf8Char_of_three (by simpa using hwidths) hsecond (hfollow b2 (by simp))
  | [b2, b3] =>
    exact encodeUtf8Char_of_four (by simpa using hwidths) hsecond (hfollow b2 (by simp))
      (hfollow b3 (by simp))
  | _ :: _ :: _ :: _ =>
    simp only [List.length_cons] at hwidths
    omega

/-- A chunk that is a character took the bytes of that character. -/
theorem bytes_of_utf8Chunk {rest : List UInt8} {c : Char} {width : Nat}
    (h : utf8Chunk false lead rest = ⟨.ok c, width⟩) :
    ∃ follow tail, rest = follow ++ tail ∧ encodeUtf8Char c = lead :: follow ∧
      width = follow.length + 1 := by
  unfold utf8Chunk at h
  split at h
  · cases h
  · next hwidth =>
    rcases utf8Width?_cases hwidth with ⟨-, hlead⟩ | ⟨⟨⟩, -⟩ | ⟨⟨⟩, -⟩ | ⟨⟨⟩, -⟩
    cases h
    refine ⟨[], rest, rfl, ?_, rfl⟩
    rw [encodeUtf8Char, toNat_charOfPoint (by omega), if_pos hlead, List.cons.injEq,
      toUInt8_eq_iff (by omega)]
    exact ⟨rfl, rfl⟩
  · next width' hone hwidth =>
    have hmany : 2 ≤ width' := by
      have hwidths := utf8Width?_cases hwidth
      have hnot : width' ≠ 1 := hone
      omega
    cases rest with
    | nil =>
      simp only [List.length_nil] at h
      rw [if_neg (by omega)] at h
      cases h
    | cons second more =>
      simp only [Bool.false_and] at h
      by_cases hsecond : admitsSecond false lead second = true
      · rw [if_pos hsecond] at h
        by_cases htaken : ((more.take (width' - 2)).takeWhile isContinuation).length = width' - 2
        · have hall : ∀ b ∈ more.take (width' - 2), isContinuation b = true := by
            rw [← take_of_takeWhile_length htaken]
            exact fun b hb => List.mem_takeWhile_imp hb
          rw [take_of_takeWhile_length htaken] at h htaken
          rw [if_pos (by rw [List.length_cons, htaken]; omega)] at h
          cases h
          have hlength : width = (more.take (width - 2)).length + 2 := by omega
          refine ⟨second :: more.take (width - 2), more.drop (width - 2), ?_, ?_, ?_⟩
          · rw [List.cons_append, List.take_append_drop]
          · have hwritten := encodeUtf8Char_of_width (hlength ▸ hwidth) hsecond hall
            rwa [← hlength] at hwritten
          · rw [List.length_cons]
            omega
        · rw [if_neg (by rw [List.length_cons]; omega)] at h
          split at h <;> cases h
      · rw [if_neg hsecond, List.length_nil, if_neg (by omega)] at h
        split at h <;> cases h

theorem encodeUtf8_of_readChunks {fuel position : Nat} {bytes : List UInt8} {s : List Char}
    (hfuel : bytes.length ≤ fuel)
    (h : readChunks .utf8 false .error fuel position bytes = .ok s) : encodeUtf8 s = bytes := by
  induction fuel generalizing position bytes s with
  | zero =>
    have hnone : bytes = [] := List.length_eq_zero_iff.mp (by omega)
    subst hnone
    cases h
    rfl
  | succ fuel ih =>
    cases bytes with
    | nil =>
      cases h
      rfl
    | cons lead rest =>
      rw [readChunks] at h
      cases hchunk : utf8Chunk false lead rest with
      | mk content length =>
        have hchunk' : Charset.chunk .utf8 false lead rest = ⟨content, length⟩ := hchunk
        rw [hchunk'] at h
        cases content with
        | error reason => cases h
        | ok c =>
          obtain ⟨follow, tail, rfl, hbytes, rfl⟩ := bytes_of_utf8Chunk hchunk
          dsimp only at h
          rw [Nat.max_eq_right (by omega), List.drop_succ_cons, List.drop_left] at h
          split at h
          · cases h
          · next cs hrest =>
            cases h
            rw [List.length_cons, List.length_append] at hfuel
            have htail := ih (by omega) hrest
            rw [encodeUtf8, List.flatMap_cons, hbytes, ← encodeUtf8, htail]
            rfl

/-- Bytes that are a text are the bytes of that text. -/
theorem decodeUtf8?_eq_ok_iff {bytes : List UInt8} {s : List Char} :
    decodeUtf8? bytes = .ok s ↔ bytes = encodeUtf8 s := by
  constructor
  · exact fun h => (encodeUtf8_of_readChunks (Nat.le_refl _) h).symm
  · rintro rfl
    exact decodeUtf8?_encodeUtf8 s

end Cambio.Text
