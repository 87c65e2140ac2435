import Cambio.Proofs.Except
import Cambio.Proofs.Service.Config
import Cambio.Settings.Rules

/-!
# Addresses and codes that settings accept

An address that settings accept begins with its scheme, in letters of either case, if no blanks
are in it. So it is an address as the service needs it exactly if those letters are small. A code
that settings accept makes a currency of the catalog.

## Main statements

- `Rule.address_eq_ok` — the parts of an address that is accepted
- `Rule.hasScheme_iff_of_plain` — which of these addresses the service takes
- `Rule.isCode_of_codes`, `Currency.catalogOf_of_isCode` — codes that are accepted
-/

namespace Cambio

/-! ## Addresses -/

namespace Text

/-- A character that does not satisfy `p` ends the trimming. -/
theorem trimEndBy_append_cons {p : Char → Bool} {c : Char} (hc : p c = false)
    (before after : List Char) :
    trimEndBy p (before ++ c :: after) = before ++ c :: trimEndBy p after := by
  unfold trimEndBy
  have hreverse : (before ++ c :: after).reverse = after.reverse ++ c :: before.reverse := by simp
  rw [hreverse, List.dropWhile_append]
  split_ifs with hnone
  · rw [List.isEmpty_iff.mp hnone, List.dropWhile_cons_of_neg (by simp [hc])]
    simp
  · simp

end Text

namespace Rule

open Service.Config (HasScheme withoutEndSlashes)

variable {s a : String}

/-- The parts of an address that is accepted. -/
theorem address_eq_ok {schemes : List String} (h : address schemes s = .ok a) :
    a = withoutEndSlashes s ∧ ∃ parts, Address.split? s.toList = .ok parts ∧
      String.ofList parts.scheme ∈ schemes ∧ parts.scheme ≠ [] ∧ parts.host ≠ [] := by
  unfold address at h
  split_ifs at h
  split at h
  · cases h
  · next parts hsplit =>
    split_ifs at h with hscheme hknown hhost
    cases h
    exact ⟨rfl, parts, hsplit, hknown, hscheme, hhost⟩

/-- A text that has a scheme begins with it, in letters of either case. -/
theorem exists_of_splitScheme {t : List Char} (h : (Address.splitScheme t).1 ≠ []) :
    ∃ letters, ':' ∉ letters ∧ t = letters ++ ':' :: (Address.splitScheme t).2 ∧
      (Address.splitScheme t).1 = letters.map Char.toLower := by
  unfold Address.splitScheme at h ⊢
  dsimp only at h ⊢
  split at h
  · next rest hrest =>
    split_ifs at h with hform
    · rw [if_pos hform]
      refine ⟨t.takeWhile (· ≠ ':'), fun hmem => ?_, ?_, rfl⟩
      · have hcolon := List.mem_takeWhile_imp hmem
        simp at hcolon
      · rw [← hrest, List.takeWhile_append_dropWhile]
    · exact absurd rfl h
  · exact absurd rfl h

theorem exists_of_hostPart {t : List Char} (h : Address.hostPart t ≠ []) :
    ∃ c more, t = '/' :: '/' :: c :: more ∧ c ≠ '/' := by
  unfold Address.hostPart at h
  split at h
  · next rest =>
    cases rest with
    | nil => exact absurd rfl h
    | cons c more =>
      refine ⟨c, more, rfl, ?_⟩
      rintro rfl
      exact h (List.takeWhile_cons_of_neg (by decide))
  · exact absurd rfl h

theorem isIgnored_of_isLeading {c : Char} (h : Address.isLeading c = false) :
    Address.isIgnored c = false := by
  by_contra hignored
  rw [Bool.not_eq_false, Address.isIgnored] at hignored
  simp only [Bool.or_eq_true, decide_eq_true_eq] at hignored
  rcases hignored with (rfl | rfl) | rfl <;> exact absurd h (by decide)

/-- An address without blanks is looked at as it is. -/
theorem split?_of_plain {t : List Char} {parts : Address} (h : Address.split? t = .ok parts)
    (hplain : ∀ c ∈ t, Address.isLeading c = false) :
    parts = ⟨(Address.splitScheme t).1, Address.hostPart (Address.splitScheme t).2⟩ := by
  have hdrop : t.dropWhile Address.isLeading = t := by
    cases t with
    | nil => rfl
    | cons c rest => exact List.dropWhile_cons_of_neg (by simp [hplain c])
  have hfilter : t.filter (!Address.isIgnored ·) = t := by
    refine List.filter_eq_self.mpr fun c hc => ?_
    rw [isIgnored_of_isLeading (hplain c hc)]
    rfl
  unfold Address.split? at h
  rw [hdrop, hfilter] at h
  dsimp only at h
  split at h
  · cases h
  · cases h
    rfl

/-- The address keeps the scheme, the two slashes and the first character of the host. -/
theorem exists_of_address (h : address webSchemes s = .ok a)
    (hplain : ∀ c ∈ a.toList, Address.isLeading c = false) :
    ∃ letters host, ':' ∉ letters ∧ a.toList = letters ++ "://".toList ++ host ∧
      String.ofList (letters.map Char.toLower) ∈ webSchemes := by
  obtain ⟨rfl, parts, hsplit, hknown, hscheme, hhost⟩ := address_eq_ok h
  -- Nothing but slashes was taken off, so the whole text is plain.
  have hwhole : ∀ c ∈ s.toList, Address.isLeading c = false := by
    intro c hc
    rcases Service.Config.mem_withoutEndSlashes_or hc with hkept | rfl
    · exact hplain c hkept
    · decide
  rw [split?_of_plain hsplit hwhole] at hknown hscheme hhost
  obtain ⟨letters, hcolon, htext, hlower⟩ := exists_of_splitScheme hscheme
  obtain ⟨c, more, hrest, hslash⟩ := exists_of_hostPart hhost
  refine ⟨letters, c :: Text.trimEndBy (· = '/') more, hcolon, ?_, hlower ▸ hknown⟩
  have hbefore : s.toList = letters ++ "://".toList ++ c :: more := by
    rw [htext, hrest]
    simp
  rw [withoutEndSlashes, String.toList_ofList, hbefore,
    Text.trimEndBy_append_cons (decide_eq_false hslash)]

/-- Of an address without blanks the second rule asks that the letters of its scheme are small. -/
theorem hasScheme_iff_of_plain (h : address webSchemes s = .ok a)
    (hplain : ∀ c ∈ a.toList, Address.isLeading c = false) :
    HasScheme a ↔ ∀ c ∈ a.toList.takeWhile (· ≠ ':'), c.isUpper = false := by
  unfold Service.Config.HasScheme
  rw [String.startsWith_string_iff, String.startsWith_string_iff]
  constructor
  · rintro (⟨rest, htext⟩ | ⟨rest, htext⟩)
    · rw [← htext]
      exact (by simp : ∀ c ∈ "http".toList, c.isUpper = false)
    · rw [← htext]
      exact (by simp : ∀ c ∈ "https".toList, c.isUpper = false)
  · intro hsmall
    obtain ⟨letters, host, hcolon, htext, hknown⟩ := exists_of_address h hplain
    have hletters : a.toList.takeWhile (· ≠ ':') = letters := by
      have hpass : ∀ c ∈ letters, decide (c ≠ ':') = true := by
        rintro c hc
        exact decide_eq_true fun hsame => hcolon (hsame ▸ hc)
      rw [htext, List.append_assoc, List.takeWhile_append_of_pos hpass]
      exact List.append_nil letters
    -- The rule compares the letters after making them small, which changes none of these.
    have hsame : ∀ c ∈ letters, c.toLower = c := fun c hc =>
      dif_neg (of_decide_eq_false (hsmall c (hletters ▸ hc)))
    have hlower : letters.map Char.toLower = letters :=
      (List.map_congr_left hsame).trans (List.map_id letters)
    rw [hlower, webSchemes, List.mem_cons, List.mem_singleton] at hknown
    rw [htext, ← String.toList_ofList (l := letters)]
    rcases hknown with hhttp | hhttps
    · rw [hhttp]
      exact .inl ⟨host, rfl⟩
    · rw [hhttps]
      exact .inr ⟨host, rfl⟩

/-! ## Codes -/

theorem isCode_of_code {s a : String} (h : code s = .ok a) : Currency.isCode a.toList = true := by
  unfold code at h
  dsimp only at h
  split_ifs at h with hempty hcode hreserved
  cases h
  rw [String.toList_ofList]
  simpa using hcode

theorem isCode_of_codeOf {v : Json} {a : String} (h : codeOf v = .accepted a) :
    Currency.isCode a.toList = true := by
  unfold codeOf onText at h
  split at h
  · next s =>
    dsimp only at h
    cases hcode : code s with
    | error r =>
      rw [hcode] at h
      cases h
    | ok b =>
      rw [hcode] at h
      cases h
      exact isCode_of_code hcode
  · split_ifs at h

/-- The codes of a list are codes, if those were that had been found before. -/
theorem isCode_of_codesOf {found codes : List String} {items : List Json}
    (h : codesOf found items = .accepted codes)
    (hfound : ∀ a ∈ found, Currency.isCode a.toList = true) :
    ∀ a ∈ codes, Currency.isCode a.toList = true := by
  induction items generalizing found with
  | nil =>
    rw [codesOf] at h
    split_ifs at h
    cases h
    exact hfound
  | cons v rest ih =>
    rw [codesOf] at h
    split at h
    · next b hcode =>
      refine ih h fun a ha => ?_
      unfold addCode at ha
      split_ifs at ha
      · exact hfound a ha
      · rcases List.mem_append.mp ha with hbefore | hnew
        · exact hfound a hbefore
        · cases List.mem_singleton.mp hnew
          exact isCode_of_codeOf hcode
    · cases h
    · cases h

theorem isCode_of_codes {v : Json} {found : List String} (h : codes v = .accepted found) :
    ∀ a ∈ found, Currency.isCode a.toList = true := by
  unfold codes at h
  split at h
  · exact isCode_of_codesOf h nofun
  · cases h

end Rule

namespace Currency

theorem toNat_of_isCapital {c : Char} (h : isCapital c = true) : 65 ≤ c.toNat ∧ c.toNat ≤ 90 := by
  rw [isCapital, Bool.and_eq_true, decide_eq_true_eq, decide_eq_true_eq] at h
  exact h

theorem isCapital_of_isCode {letters : List Char} (h : isCode letters = true) :
    ∀ c ∈ letters, isCapital c = true :=
  List.all_eq_true.mp (Bool.and_eq_true_iff.mp h).2

/-- A code of three capital letters passes the check of a currency. -/
theorem checkedCode_of_isCode {a : String} (h : isCode a.toList = true) :
    checkedCode a = .valid a := by
  have hwhole : Text.hasHalf a = false := by
    refine List.any_eq_false.mpr fun c hc => ?_
    have hbounds := toNat_of_isCapital (isCapital_of_isCode h c hc)
    rw [Text.half?, if_neg (by unfold Text.halfDistance; omega)]
    nofun
  rw [checkedCode, hwhole, h]
  rfl

theorem catalogOf_of_isCode {codes : List String} (h : ∀ a ∈ codes, isCode a.toList = true) :
    catalogOf codes = .ok (catalog codes) := by
  refine Except.mapM_eq_ok_iff.mpr ?_
  rw [catalog, List.forall₂_map_right_iff, List.forall₂_same]
  intro a ha
  rw [checkedCode_of_isCode (h a ha)]
  rfl

end Currency

end Cambio
