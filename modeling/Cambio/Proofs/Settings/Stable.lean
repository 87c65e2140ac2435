import Cambio.Proofs.Decimal.Numeral
import Cambio.Proofs.Settings.Rules
import Cambio.Proofs.Text.Upper
import Cambio.Settings.Basic

/-!
# Rules on what they have accepted

A rule brings a value into its usual form, and a value in this form is accepted as it is. So what
was read off a record stays the same when it is written back and read again.

## Main statements

- `Rule.code_code`, `Rule.codes_codes` — currency codes and lists of them
- `Rule.address_address` — addresses, of which only slashes at the end are dropped
- `Rule.filePath_filePath` — file paths
- `Rule.level_name`, `Rule.layout_name`, `Rule.environment_name` — the words for choices
-/

namespace Cambio

/-! ## Codes -/

namespace Text

theorem upper_of_isCapital {s : List Char} (h : ∀ c ∈ s, Currency.isCapital c = true) :
    upper s = s := by
  have hstays : ∀ c ∈ s, upperChar c = [c] := by
    intro c hc
    have hbounds := Currency.toNat_of_isCapital (h c hc)
    have hnone : c.toNat ∉ List.range' 0x61 26 := by
      rw [List.mem_range'_1]
      omega
    have hsame := (toUpper_basic c.toNat (by omega)).2.2 hnone
    rw [Char.ofNat_toNat] at hsame
    rw [upperChar_of_lt (by omega), hsame]
  rw [upper, List.flatMap_congr hstays]
  exact List.flatMap_singleton' _

theorem isBlank_of_isCapital {c : Char} (h : Currency.isCapital c = true) : isBlank c = false := by
  have hbounds := Currency.toNat_of_isCapital h
  simp only [isBlank, Bool.or_eq_false_iff, Bool.and_eq_false_iff, decide_eq_false_iff_not,
    beq_eq_false_iff_ne]
  omega

theorem trim_of_isCapital {s : List Char} (h : ∀ c ∈ s, Currency.isCapital c = true) :
    trim s = s :=
  Decimal.trim_of_forall fun c hc => isBlank_of_isCapital (h c hc)

end Text

namespace Rule

variable {s a : String}

/-- A code in capital letters is accepted as it is, unless it is reserved. -/
theorem code_of_isCode (h : Currency.isCode a.toList = true) (hreserved : a ∉ reservedCodes) :
    code a = .ok a := by
  have hcapital := Currency.isCapital_of_isCode h
  have hletters : Text.trim (Text.upper a.toList) = a.toList := by
    rw [Text.upper_of_isCapital hcapital, Text.trim_of_isCapital hcapital]
  have hempty : a ≠ "" := by
    rintro rfl
    cases h
  rw [code, if_neg hempty]
  dsimp only
  rw [hletters, String.ofList_toList, h, if_neg (by simp), if_neg hreserved]

theorem code_code (h : code s = .ok a) : code a = .ok a := by
  refine code_of_isCode (isCode_of_code h) ?_
  unfold code at h
  dsimp only at h
  split_ifs at h with hempty hcode hreserved
  cases h
  exact hreserved

theorem code_of_codeOf {v : Json} (h : codeOf v = .accepted a) : code a = .ok a := by
  unfold codeOf onText at h
  split at h
  · next s =>
    dsimp only at h
    cases hcode : code s with
    | error r =>
      rw [hcode] at h
      cases h
    | ok b =>
      rw [hcode] at h
      cases h
      exact code_code hcode
  · split_ifs at h

/-- A list of codes as a rule makes it: some codes, each once. -/
structure AreCodes (codes : List String) : Prop where
  code : ∀ a ∈ codes, Rule.code a = .ok a
  once : codes.Nodup

theorem areCodes_nil : AreCodes [] :=
  ⟨nofun, List.nodup_nil⟩

theorem AreCodes.addCode {codes : List String} (h : AreCodes codes) (ha : Rule.code a = .ok a) :
    AreCodes (addCode codes a) := by
  unfold Rule.addCode
  split_ifs with hmem
  · exact h
  · refine ⟨fun b hb => ?_, ?_⟩
    · rcases List.mem_append.mp hb with hb | hb
      · exact h.code b hb
      · rw [List.mem_singleton.mp hb]
        exact ha
    · rw [List.nodup_append]
      refine ⟨h.once, List.nodup_singleton a, fun b hb c hc => ?_⟩
      rw [List.mem_singleton.mp hc]
      exact fun hsame => hmem (hsame ▸ hb)

theorem areCodes_of_codesOf {found codes : List String} {items : List Json}
    (h : codesOf found items = .accepted codes) (hfound : AreCodes found) :
    AreCodes codes ∧ codes ≠ [] := by
  induction items generalizing found with
  | nil =>
    rw [codesOf] at h
    split_ifs at h with hempty
    cases h
    exact ⟨hfound, by simpa using hempty⟩
  | cons v rest ih =>
    rw [codesOf] at h
    split at h
    · next b hcode => exact ih h (hfound.addCode (code_of_codeOf hcode))
    · cases h
    · cases h

/-- Codes that come once each are all taken over, in their order. -/
theorem codesOf_texts {found more : List String} (h : AreCodes (found ++ more))
    (hsome : found ++ more ≠ []) :
    codesOf found (more.map .text) = .accepted (found ++ more) := by
  induction more generalizing found with
  | nil =>
    rw [List.append_nil] at hsome ⊢
    rw [List.map_nil, codesOf, if_neg (by simpa using hsome)]
  | cons a more ih =>
    have hcode : codeOf (.text a) = .accepted a := by
      change Outcome.ofExcept (code a) = _
      rw [h.code a (by simp)]
      rfl
    have hnew : a ∉ found := by
      have hdisjoint := (List.nodup_append.mp h.once).2.2
      exact fun hmem => hdisjoint a hmem a List.mem_cons_self rfl
    have hadd : addCode found a = found ++ [a] := if_neg hnew
    rw [List.map_cons, codesOf, hcode]
    dsimp only
    rw [List.append_cons] at h hsome ⊢
    rw [hadd, ih h hsome]

theorem areCodes_of_codes {v : Json} {found : List String} (h : codes v = .accepted found) :
    AreCodes found ∧ found ≠ [] := by
  unfold codes at h
  split at h
  · exact areCodes_of_codesOf h areCodes_nil
  · cases h

/-- A list of codes that was accepted is accepted as it is. -/
theorem codes_codes {v : Json} {found : List String} (h : codes v = .accepted found) :
    codes (Settings.codesJson found) = .accepted found := by
  obtain ⟨hcodes, hsome⟩ := areCodes_of_codes h
  rw [← List.nil_append found] at hcodes hsome
  exact codesOf_texts hcodes hsome

/-! ## Addresses -/

open Service.Config (withoutEndSlashes)

theorem exists_slashes (s : String) :
    ∃ n, s.toList = (withoutEndSlashes s).toList ++ List.replicate n '/' := by
  refine ⟨(s.toList.rtakeWhile (· = '/')).length, ?_⟩
  have hslashes : s.toList.rtakeWhile (· = '/') =
      List.replicate (s.toList.rtakeWhile (· = '/')).length '/' :=
    List.eq_replicate_length.mpr fun c hc => by simpa using List.mem_rtakeWhile_imp hc
  rw [withoutEndSlashes, String.toList_ofList, Text.trimEndBy_eq_rdropWhile, ← hslashes,
    List.rdropWhile_append_rtakeWhile]

/-- A text as it is looked at for the parts of an address. -/
def cleaned (t : List Char) : List Char :=
  (t.dropWhile Address.isLeading).filter (!Address.isIgnored ·)

theorem cleaned_append_slashes (t : List Char) (n : Nat) :
    cleaned (t ++ List.replicate n '/') = cleaned t ++ List.replicate n '/' := by
  have hkept : (List.replicate n '/').dropWhile Address.isLeading = List.replicate n '/' := by
    cases n with
    | zero => rfl
    | succ n => rfl
  have hfilter : (List.replicate n '/').filter (!Address.isIgnored ·) = List.replicate n '/' :=
    List.filter_eq_self.mpr fun c hc => by
      rw [List.eq_of_mem_replicate hc]
      rfl
  rw [cleaned, cleaned, List.dropWhile_append]
  split_ifs with hempty
  · rw [List.isEmpty_iff.mp hempty, hkept, hfilter]
    rfl
  · rw [List.filter_append, hfilter]

/-- A character that is there is found before all that follows, which stays behind it. -/
theorem span_append_of_mem {t : List Char} {c : Char} (h : c ∈ t) (more : List Char) :
    (t ++ more).takeWhile (· ≠ c) = t.takeWhile (· ≠ c) ∧
      (t ++ more).dropWhile (· ≠ c) = t.dropWhile (· ≠ c) ++ more := by
  have hstop : ¬ ∀ x ∈ t, (decide (x ≠ c)) = true := by
    intro hall
    simpa using hall c h
  constructor
  · rw [List.takeWhile_append, if_neg]
    intro hlength
    rw [← List.takeWhile_eq_self_iff] at hstop
    exact hstop ((List.takeWhile_prefix _).eq_of_length hlength)
  · rw [List.dropWhile_append, if_neg]
    intro hempty
    rw [List.isEmpty_iff, List.dropWhile_eq_nil_iff] at hempty
    exact hstop hempty

theorem splitScheme_append_slashes {t : List Char} {n : Nat}
    (h : (Address.splitScheme (t ++ List.replicate n '/')).1 ≠ []) :
    Address.splitScheme (t ++ List.replicate n '/') =
      ((Address.splitScheme t).1, (Address.splitScheme t).2 ++ List.replicate n '/') := by
  obtain ⟨letters, hcolon, htext, -⟩ := exists_of_splitScheme h
  have hmem : ':' ∈ t := by
    have hwhole : ':' ∈ t ++ List.replicate n '/' := by
      rw [htext]
      exact List.mem_append_right _ List.mem_cons_self
    rcases List.mem_append.mp hwhole with ht | hslash
    · exact ht
    · cases List.eq_of_mem_replicate hslash
  obtain ⟨htake, hdrop⟩ := span_append_of_mem hmem (List.replicate n '/')
  unfold Address.splitScheme at h ⊢
  rw [htake, hdrop] at h ⊢
  cases hrest : t.dropWhile (· ≠ ':') with
  | nil =>
    rw [List.dropWhile_eq_nil_iff] at hrest
    simpa using hrest ':' hmem
  | cons c rest =>
    have hc : c = ':' := by
      have hfirst := List.head?_dropWhile_not (· ≠ ':') t
      rw [hrest] at hfirst
      simpa using hfirst
    subst hc
    rw [hrest] at h
    dsimp only [List.cons_append] at h ⊢
    split_ifs at h ⊢ with hform
    · rfl
    · exact absurd rfl h

theorem hostPart_append_slashes {t : List Char} {n : Nat}
    (h : Address.hostPart (t ++ List.replicate n '/') ≠ []) :
    Address.hostPart (t ++ List.replicate n '/') = Address.hostPart t := by
  obtain ⟨c, more, htext, hc⟩ := exists_of_hostPart h
  have hthird : (t ++ List.replicate n '/')[2]? = some c := by
    rw [htext]
    rfl
  -- the first character of the host is no slash, so the host begins before them
  have hlong : 2 < t.length := by
    by_contra hshort
    rw [List.getElem?_append_right (by omega)] at hthird
    exact hc (List.eq_of_mem_replicate (List.mem_of_getElem? hthird))
  obtain ⟨x, y, rest, rfl⟩ : ∃ x y rest, t = x :: y :: rest := by
    match t, hlong with
    | x :: y :: rest, _ => exact ⟨x, y, rest, rfl⟩
  rw [List.cons_append, List.cons_append] at htext ⊢
  obtain ⟨rfl, hrest⟩ := List.cons.inj htext
  obtain ⟨rfl, -⟩ := List.cons.inj hrest
  simp only [Address.hostPart]
  rw [List.takeWhile_append]
  split_ifs with hall
  · have hstops : ((List.replicate n '/').takeWhile
        fun c => c ≠ '/' && c ≠ '?' && c ≠ '#') = [] := by
      cases n <;> rfl
    rw [hstops, List.append_nil]
    exact ((List.takeWhile_prefix _).eq_of_length hall).symm
  · rfl

theorem split?_eq (t : List Char) :
    Address.split? t =
      match Address.hostFlaw? (Address.hostPart (Address.splitScheme (cleaned t)).2) with
      | some flaw => .error flaw
      | none => .ok ⟨(Address.splitScheme (cleaned t)).1,
          Address.hostPart (Address.splitScheme (cleaned t)).2⟩ :=
  rfl

/-- Without the slashes at its end an address has the same parts. -/
theorem split?_withoutEndSlashes {parts : Address} (h : Address.split? s.toList = .ok parts)
    (hscheme : parts.scheme ≠ []) (hhost : parts.host ≠ []) :
    Address.split? (withoutEndSlashes s).toList = .ok parts := by
  obtain ⟨n, hslashes⟩ := exists_slashes s
  rw [hslashes, split?_eq, cleaned_append_slashes] at h
  rw [split?_eq]
  split at h
  · cases h
  · next hflaw =>
    obtain rfl := Except.ok.inj h
    dsimp only at hscheme hhost
    rw [splitScheme_append_slashes hscheme] at hhost hflaw ⊢
    rw [hostPart_append_slashes hhost] at hflaw ⊢
    rw [hflaw]

/-- An address that was accepted is accepted as it is. -/
theorem address_address {schemes : List String} (h : address schemes s = .ok a) :
    address schemes a = .ok a := by
  obtain ⟨rfl, parts, hsplit, hknown, hscheme, hhost⟩ := address_eq_ok h
  have hagain := split?_withoutEndSlashes hsplit hscheme hhost
  have hempty : withoutEndSlashes s ≠ "" := by
    intro hempty
    have hnothing : Address.split? "".toList = .ok ⟨[], []⟩ := by decide +kernel
    rw [hempty, hnothing, Except.ok.injEq] at hagain
    exact hscheme (congrArg Address.scheme hagain).symm
  rw [address, if_neg hempty, hagain]
  dsimp only
  rw [if_neg hscheme, if_neg (not_not.mpr hknown), if_neg hhost,
    Service.Config.withoutEndSlashes_withoutEndSlashes]

/-! ## Paths and choices -/

theorem filePath_filePath (h : filePath s = .ok a) : filePath a = .ok a := by
  have hsame : s = a := by
    unfold filePath at h
    dsimp only at h
    split_ifs at h
    cases h
    rfl
  rwa [hsame] at h

theorem level_name (l : Level) : level l.name = .ok l := by
  cases l <;> decide +kernel

theorem layout_name (l : Layout) : layout l.name = .ok l := by
  cases l <;> decide +kernel

theorem environment_name (e : Environment) : environment e.name = .ok e := by
  cases e <;> decide +kernel

end Rule

end Cambio
