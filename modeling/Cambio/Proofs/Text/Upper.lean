import Cambio.Text.Upper
import Mathlib.Data.List.Basic
import Mathlib.Data.Nat.Bitwise

/-!
# Upper case twice

The upper case of a text has no letter that has an upper case of its own, so a text in upper case
stays as it is. The tables list the letters that change and those they become; that no letter is in
both lists is checked on two numbers with one bit for each letter.

## Main definitions

- `Text.smallLetters`, `Text.capitalLetters` — the letters that change and those they become

## Main statements

- `Text.upperChar_of_notMem` — all other letters stay
- `Text.upperString_upperString` — the upper case of a text in upper case
-/

namespace Cambio.Text

/-! ## The tables -/

/-- The letters of a run, by number. -/
def runLetters (run : Nat × Nat × Nat × Int) : List Nat :=
  (List.range ((run.2.1 - run.1) / run.2.2.1 + 1)).map fun k => run.1 + k * run.2.2.1

/-- The numbers of the letters that have an upper case, the basic ones first. -/
def smallLetters : List Nat :=
  List.range' 0x61 26 ++ (upperExpansions.map Prod.fst ++ upperRuns.flatMap runLetters)

/-- The numbers of the letters that those beyond the basic characters become. -/
def capitalLetters : List Nat :=
  upperExpansions.flatMap Prod.snd ++
    upperRuns.flatMap fun run => (runLetters run).map fun n : Nat => (n + run.2.2.2).toNat

/-- The number that has a bit for each of some numbers. -/
def bits (ns : List Nat) : Nat :=
  ns.foldr (fun n m => 1 <<< n ||| m) 0

theorem testBit_bits (ns : List Nat) (n : Nat) : (bits ns).testBit n = decide (n ∈ ns) := by
  induction ns with
  | nil => simp [bits]
  | cons m ns ih =>
    rw [bits, List.foldr_cons, ← bits, Nat.testBit_or, ih, Nat.one_shiftLeft, Nat.testBit_two_pow]
    simp only [List.mem_cons, Bool.decide_or, eq_comm]

theorem notMem_of_bits {ms ns : List Nat} {n : Nat} (h : bits ms &&& bits ns = 0) (hn : n ∈ ms) :
    n ∉ ns := by
  have hbit : (bits ms &&& bits ns).testBit n = false := by rw [h, Nat.zero_testBit]
  rw [Nat.testBit_and, testBit_bits, testBit_bits, decide_eq_true hn, Bool.true_and] at hbit
  exact of_decide_eq_false hbit

-- Two numbers are compared at once, where the lists would be compared letter by letter.
theorem bits_capitalLetters : bits capitalLetters &&& bits smallLetters = 0 := by
  decide +kernel

theorem isValidChar_capitalLetters : ∀ n ∈ capitalLetters, n.isValidChar := by
  decide +kernel

/-! ## Characters -/

variable {c d : Char}

theorem mem_runLetters {run : Nat × Nat × Nat × Int} {n : Nat}
    (h : (run.1 ≤ n && n ≤ run.2.1 && (n - run.1) % run.2.2.1 == 0) = true) :
    n ∈ runLetters run := by
  simp only [Bool.and_eq_true, decide_eq_true_eq, beq_iff_eq] at h
  obtain ⟨⟨hfirst, hlast⟩, hstep⟩ := h
  refine List.mem_map.mpr ⟨(n - run.1) / run.2.2.1, List.mem_range.mpr ?_, ?_⟩
  · exact Nat.lt_succ_of_le (Nat.div_le_div_right (by omega))
  · rw [Nat.div_mul_cancel (Nat.dvd_of_mod_eq_zero hstep)]
    omega

theorem upperChar_of_lt (h : c.toNat < 0x80) : upperChar c = [c.toUpper] :=
  if_pos h

/-- The basic characters and their upper case. -/
theorem toUpper_basic : ∀ n < 0x80, (Char.ofNat n).toUpper.toNat < 0x80 ∧
    (Char.ofNat n).toUpper.toUpper = (Char.ofNat n).toUpper ∧
      (n ∉ List.range' 0x61 26 → (Char.ofNat n).toUpper = Char.ofNat n) := by
  decide +kernel

theorem upperChar_of_notMem (h : c.toNat ∉ smallLetters) : upperChar c = [c] := by
  obtain ⟨hbasic, hlater⟩ := not_or.mp (mt List.mem_append.mpr h)
  obtain ⟨hkeys, hruns⟩ := not_or.mp (mt List.mem_append.mpr hlater)
  by_cases hc : c.toNat < 0x80
  · have hstays := (toUpper_basic c.toNat hc).2.2 hbasic
    rw [Char.ofNat_toNat] at hstays
    rw [upperChar_of_lt hc, hstays]
  · have hexpansion : upperExpansions.lookup c.toNat = none := by
      refine List.lookup_eq_none_iff.mpr fun entry hentry => bne_iff_ne.mpr ?_
      intro hn
      exact hkeys (List.mem_map.mpr ⟨entry, hentry, hn.symm⟩)
    have hrun : (upperRuns.find? fun r => r.1 ≤ c.toNat && c.toNat ≤ r.2.1 &&
        (c.toNat - r.1) % r.2.2.1 == 0) = none := by
      refine List.find?_eq_none.mpr fun run hrun hin => ?_
      exact hruns (List.mem_flatMap.mpr ⟨run, hrun, mem_runLetters hin⟩)
    unfold upperChar
    dsimp only
    rw [if_neg hc, hexpansion]
    dsimp only
    rw [hrun]

/-- What a letter beyond the basic ones becomes is listed, or the letter stays. -/
theorem mem_capitalLetters (hc : 0x80 ≤ c.toNat) (hd : d ∈ upperChar c) :
    d = c ∧ upperChar c = [c] ∨ ∃ n ∈ capitalLetters, d = Char.ofNat n := by
  unfold upperChar at hd ⊢
  dsimp only at hd ⊢
  rw [if_neg (by omega)] at hd ⊢
  split at hd
  · next letters hlookup =>
    obtain ⟨n, hn, rfl⟩ := List.mem_map.mp hd
    obtain ⟨before, after, hlist, -⟩ := List.lookup_eq_some_iff.mp hlookup
    have hentry : (c.toNat, letters) ∈ upperExpansions := by simp [hlist]
    exact .inr ⟨n, List.mem_append_left _ (List.mem_flatMap.mpr ⟨_, hentry, hn⟩), rfl⟩
  · split at hd
    · next run hrun =>
      have hin := List.find?_some hrun
      have hletter : c.toNat ∈ runLetters run := mem_runLetters hin
      rw [List.mem_singleton.mp hd]
      refine .inr ⟨_, List.mem_append_right _ (List.mem_flatMap.mpr ?_), rfl⟩
      exact ⟨run, List.mem_of_find?_eq_some hrun, List.mem_map.mpr ⟨c.toNat, hletter, rfl⟩⟩
    · exact .inl ⟨List.mem_singleton.mp hd, rfl⟩

/-- The letters of an upper case stay. -/
theorem upperChar_of_mem (hd : d ∈ upperChar c) : upperChar d = [d] := by
  by_cases hc : c.toNat < 0x80
  · obtain ⟨hbasic, hstays, -⟩ := toUpper_basic c.toNat hc
    rw [Char.ofNat_toNat] at hbasic hstays
    rw [upperChar_of_lt hc, List.mem_singleton] at hd
    rw [hd, upperChar_of_lt hbasic, hstays]
  · rcases mem_capitalLetters (by omega) hd with ⟨rfl, hstays⟩ | ⟨n, hn, rfl⟩
    · exact hstays
    · -- What a letter becomes is listed as a capital one, so it is no small one and stays.
      have htoNat : (Char.ofNat n).toNat = n := by
        rw [Char.ofNat, dif_pos (isValidChar_capitalLetters n hn)]
        rfl
      refine upperChar_of_notMem ?_
      rw [htoNat]
      exact notMem_of_bits bits_capitalLetters hn

/-! ## Texts -/

theorem upper_upper (s : List Char) : upper (upper s) = upper s := by
  have hstays : ∀ d ∈ upper s, upperChar d = [d] := by
    intro d hd
    obtain ⟨c, -, hmem⟩ := List.mem_flatMap.mp hd
    exact upperChar_of_mem hmem
  rw [upper, List.flatMap_congr hstays]
  exact List.flatMap_singleton' _

theorem upperString_upperString (s : String) : upperString (upperString s) = upperString s := by
  rw [upperString, upperString, String.toList_ofList, upper_upper]

end Cambio.Text
