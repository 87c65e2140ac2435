import Cambio.Proofs.Settings.Starting
import Cambio.Settings.Review

/-!
# What the review of settings tells

The review has eight rules. It warns of every list that has codes which are not supported, whatever
else is broken. The other six rules are gone through in order, first those about the default pair
and then those about the environment, and only the first broken one is told of: the rest stay
unsaid, so that an unusable pair hides what is wrong with the environment.

## Main definitions

- `Settings.Check` — the rules of the review, `Settings.Check.isBroken` when they are broken
- `Settings.ReviewRules` — which of them settings are warned of

## Main statements

- `Settings.warnings_eq` — the warnings of a review
- `Settings.reviewRules` — the rules that are told of whatever else is broken, and the others
- `Settings.not_warns_of_debug` — a rule about the environment that a default currency hides
-/

namespace Cambio.Settings

/-! ## The rules -/

/-- A rule of the review. -/
inductive Check where
  /-- The currencies whose rates are fetched at the start are supported. -/
  | majors
  /-- The currencies over which rates are derived are supported. -/
  | references
  /-- The first currency of the default pair is supported. -/
  | fromCode
  /-- The second currency of the default pair is supported. -/
  | toCode
  /-- The currencies of the default pair are two. -/
  | pair
  /-- There is no debug mode in production. -/
  | debugMode
  /-- The log does not hold everything in production. -/
  | debugLevel
  /-- The log does not hold errors only in development. -/
  | quietLevel
  deriving DecidableEq, Repr

namespace Check

/-- The rules about lists of codes. -/
def lists : List Check := [.majors, .references]

/-- The rules about the default pair, in the order in which they are looked at. -/
def pairs : List Check := [.fromCode, .toCode, .pair]

/-- The rules about the environment, in the order in which they are looked at. -/
def environments : List Check := [.debugMode, .debugLevel, .quietLevel]

/-- Settings break a rule. -/
def isBroken (s : Settings) : Check → Bool
  | .majors => s.rates.majors.any (· ∉ s.service.supported)
  | .references => s.rates.references.any (· ∉ s.service.supported)
  | .fromCode => s.display.fromCode ∉ s.service.supported
  | .toCode => s.display.toCode ∉ s.service.supported
  | .pair => s.display.fromCode = s.display.toCode
  | .debugMode => s.application.environment = .production ∧ s.application.debug
  | .debugLevel => s.application.environment = .production ∧ s.logging.level = .debug
  | .quietLevel => s.application.environment = .development ∧
      (s.logging.level = .error ∨ s.logging.level = .critical)

/-- The warning that a rule is broken. -/
def warning (s : Settings) : Check → Warning
  | .majors => .majorsUnsupported (s.rates.majors.filter (· ∉ s.service.supported))
  | .references => .referencesUnsupported (s.rates.references.filter (· ∉ s.service.supported))
  | .fromCode => .breach (.defaultUnsupported s.display.fromCode)
  | .toCode => .breach (.defaultUnsupported s.display.toCode)
  | .pair => .breach .defaultsEqual
  | .debugMode => .breach .debugInProduction
  | .debugLevel => .debugLevelInProduction
  | .quietLevel => .quietInDevelopment s.logging.level.name

end Check

variable (s : Settings)

/-- The rules that the review tells of: the broken ones about lists and the first of the others. -/
def told : List Check :=
  Check.lists.filter (·.isBroken s) ++
    ((Check.pairs ++ Check.environments).find? (·.isBroken s)).toList

/-! ## The warnings -/

theorem unsupported_eq (supported codes : List String) (warning : List String → Warning) :
    unsupported supported codes warning =
      if codes.any (· ∉ supported) then [warning (codes.filter (· ∉ supported))] else [] := by
  unfold unsupported
  split
  · next hnone =>
    have hall := List.filter_eq_nil_iff.mp hnone
    rw [if_neg]
    simpa using hall
  · next hsome =>
    rw [if_pos]
    obtain ⟨a, ha⟩ := List.exists_mem_of_ne_nil _ hsome
    obtain ⟨hmem, hunknown⟩ := List.mem_filter.mp ha
    exact List.any_eq_true.mpr ⟨a, hmem, hunknown⟩

theorem warnings_lists :
    unsupported s.service.supported s.rates.majors .majorsUnsupported ++
      unsupported s.service.supported s.rates.references .referencesUnsupported =
      (Check.lists.filter (·.isBroken s)).map (·.warning s) := by
  rw [unsupported_eq, unsupported_eq]
  change (if Check.majors.isBroken s then [Check.majors.warning s] else []) ++
    (if Check.references.isBroken s then [Check.references.warning s] else []) = _
  rw [Check.lists, List.filter_cons, List.filter_cons, List.filter_nil]
  split_ifs <;> rfl

theorem map_breach_pairBreach :
    (pairBreach s.service.supported s.display.fromCode s.display.toCode).map Warning.breach =
      (Check.pairs.find? (·.isBroken s)).map (·.warning s) := by
  unfold pairBreach Check.pairs
  split_ifs with hfrom hto hsame <;> simp [Check.isBroken, Check.warning, *]

/-- Of the rules about the environment the first that is broken is found. -/
theorem environmentRules_name (e : Rule.Environment) (debug : Bool) (l : Rule.Level) :
    environmentRules e.name debug l.name =
      if e = .production ∧ debug then ⟨[], some .debugInProduction⟩
      else if e = .production ∧ l = .debug then ⟨[.debugLevelInProduction], none⟩
      else if e = .development ∧ (l = .error ∨ l = .critical) then
        ⟨[.quietInDevelopment l.name], none⟩
      else ⟨[], none⟩ := by
  cases e <;> cases debug <;> cases l <;> decide +kernel

/-- What a group of rules found, as warnings. -/
def Findings.all (f : Findings) : List Warning :=
  f.warnings ++ f.breach.toList.map .breach

theorem all_environmentRules :
    (environmentRules s.application.environment.name s.application.debug
      s.logging.level.name).all =
      ((Check.environments.find? (·.isBroken s)).map (·.warning s)).toList := by
  have hrules : environmentRules s.application.environment.name s.application.debug
      s.logging.level.name =
        if Check.debugMode.isBroken s then ⟨[], some .debugInProduction⟩
        else if Check.debugLevel.isBroken s then ⟨[.debugLevelInProduction], none⟩
        else if Check.quietLevel.isBroken s then
          ⟨[.quietInDevelopment s.logging.level.name], none⟩
        else ⟨[], none⟩ := by
    simp only [Check.isBroken, decide_eq_true_eq]
    exact environmentRules_name ..
  rw [hrules]
  simp only [Check.environments, List.find?_cons]
  cases Check.debugMode.isBroken s <;> cases Check.debugLevel.isBroken s <;>
    cases Check.quietLevel.isBroken s <;> rfl

/-- The review of settings warns of the rules that it tells of, in their order. -/
theorem warnings_eq : s.warnings = (told s).map (·.warning s) := by
  have hpairs := map_breach_pairBreach s
  have henvironments := all_environmentRules s
  rw [told, List.map_append, ← warnings_lists, List.find?_append]
  unfold warnings findings Findings.andThen currencyRules
  dsimp only
  -- a breach of the rules about the pair ends the review, and only without one it goes on
  cases hfind : Check.pairs.find? (·.isBroken s) with
  | some c =>
    obtain ⟨b, hbreach, hwarning⟩ := Option.map_eq_some_iff.mp (hpairs.trans (by rw [hfind]; rfl))
    rw [hbreach]
    simp [hwarning]
  | none =>
    rw [hfind, Option.map_none, Option.map_eq_none_iff] at hpairs
    rw [hpairs, Option.none_or]
    dsimp only
    rw [List.append_assoc]
    change _ ++ Findings.all _ = _
    rw [henvironments, Option.toList_map]

/-! ## What is told of -/

variable {s} {c : Check}

theorem mem_told_iff : c ∈ told s ↔ c ∈ Check.lists ∧ c.isBroken s ∨
    (Check.pairs ++ Check.environments).find? (·.isBroken s) = some c := by
  rw [told, List.mem_append, List.mem_filter, Option.mem_toList]

/-- The warnings of two rules are different, unless both are about the default pair. -/
theorem Check.eq_of_warning_eq {d : Check} (hc : c ∉ Check.pairs)
    (h : d.warning s = c.warning s) : d = c := by
  cases c <;> cases d <;> first | rfl | cases h | exact absurd (by decide) hc

theorem warning_mem_iff (hc : c ∉ Check.pairs) : c.warning s ∈ s.warnings ↔ c ∈ told s := by
  rw [warnings_eq, List.mem_map]
  constructor
  · rintro ⟨d, hd, hwarning⟩
    rwa [← Check.eq_of_warning_eq hc hwarning]
  · exact fun h => ⟨c, h, rfl⟩

theorem warning_mem_of_lists (hc : c ∈ Check.lists) :
    c.warning s ∈ s.warnings ↔ c.isBroken s = true := by
  have hpairs : c ∉ Check.pairs := by
    revert c
    decide
  rw [warning_mem_iff hpairs, mem_told_iff]
  exact ⟨fun h => h.elim And.right List.find?_some, fun h => .inl ⟨hc, h⟩⟩

/-- No other rule warns as one about the default pair does. -/
theorem Check.mem_pairs_of_warning_eq {d : Check} (hc : c ∈ Check.pairs)
    (h : d.warning s = c.warning s) : d ∈ Check.pairs := by
  -- the wording of a warning does not tell which of the two default currencies it is about
  cases c <;> cases d <;> first | exact hc | cases h | decide

/-- Of the rules about the default pair the first that is broken is told of, and no other. -/
theorem warning_mem_of_pairs (hc : c ∈ Check.pairs) :
    c.warning s ∈ s.warnings ↔
      ∃ d, Check.pairs.find? (·.isBroken s) = some d ∧ d.warning s = c.warning s := by
  have hother : ∀ d ∈ Check.pairs, d ∉ Check.lists ∧ d ∉ Check.environments := by decide
  rw [warnings_eq, List.mem_map]
  constructor
  · rintro ⟨d, hd, hsame⟩
    obtain ⟨hlists, henvironments⟩ := hother d (Check.mem_pairs_of_warning_eq hc hsame)
    rw [mem_told_iff, or_iff_right fun h => hlists h.1, List.find?_append,
      Option.or_eq_some_iff] at hd
    rcases hd with hfound | ⟨-, hlater⟩
    · exact ⟨d, hfound, hsame⟩
    · exact absurd (List.mem_of_find?_eq_some hlater) henvironments
  · rintro ⟨d, hd, hsame⟩
    refine ⟨d, mem_told_iff.mpr (.inr ?_), hsame⟩
    rw [List.find?_append, hd, Option.some_or]

/-- Of the default pair the first broken rule is told of. -/
theorem exists_told_of_pairs (h : ∃ c ∈ Check.pairs, c.isBroken s = true) :
    ∃ c ∈ Check.pairs, c.isBroken s = true ∧
      (Check.pairs ++ Check.environments).find? (·.isBroken s) = some c := by
  obtain ⟨c, hc⟩ := Option.isSome_iff_exists.mp (List.find?_isSome.mpr h)
  refine ⟨c, List.mem_of_find?_eq_some hc, List.find?_some hc, ?_⟩
  rw [List.find?_append, hc, Option.some_or]

/-- Nothing is both in production and in development. -/
theorem Check.isBroken_of_quietLevel (h : Check.quietLevel.isBroken s = true) :
    Check.debugMode.isBroken s = false ∧ Check.debugLevel.isBroken s = false := by
  simp only [Check.isBroken, decide_eq_true_eq, decide_eq_false_iff_not] at h ⊢
  simp [h.1]

/-- Of the rules about the environment only debug mode can come before another that is broken. -/
theorem find?_environments_eq_some_iff (hc : c ∈ Check.environments) :
    Check.environments.find? (·.isBroken s) = some c ↔
      c.isBroken s = true ∧ ¬ (c = .debugLevel ∧ Check.debugMode.isBroken s = true) := by
  have hquiet := Check.isBroken_of_quietLevel (s := s)
  have hcases : c = .debugMode ∨ c = .debugLevel ∨ c = .quietLevel := by
    simpa [Check.environments] using hc
  simp only [Check.environments, List.find?_cons, List.find?_nil]
  rcases hcases with rfl | rfl | rfl
  · cases Check.debugMode.isBroken s <;> cases Check.debugLevel.isBroken s <;>
      cases Check.quietLevel.isBroken s <;> simp
  · cases Check.debugMode.isBroken s <;> cases Check.debugLevel.isBroken s <;>
      cases Check.quietLevel.isBroken s <;> simp
  · cases h : Check.quietLevel.isBroken s with
    | false => cases Check.debugMode.isBroken s <;> cases Check.debugLevel.isBroken s <;> simp
    | true => simp [hquiet h]

/-- With a usable pair the first broken rule about the environment is told of. -/
theorem warning_mem_of_environments (hpairs : ∀ c ∈ Check.pairs, c.isBroken s = false)
    (hc : c ∈ Check.environments) :
    c.warning s ∈ s.warnings ↔
      c.isBroken s = true ∧ ¬ (c = .debugLevel ∧ Check.debugMode.isBroken s = true) := by
  have hother : c ∉ Check.pairs ∧ c ∉ Check.lists := by
    revert c
    decide
  have hnone : Check.pairs.find? (·.isBroken s) = none :=
    List.find?_eq_none.mpr fun d hd => by simp [hpairs d hd]
  rw [warning_mem_iff hother.1, mem_told_iff, List.find?_append, hnone, Option.none_or,
    or_iff_right fun h => hother.2 h.1, find?_environments_eq_some_iff hc]

/-- With an unusable pair no rule about the environment is told of. -/
theorem warning_notMem_of_environments (hpairs : ∃ c ∈ Check.pairs, c.isBroken s = true)
    (hc : c ∈ Check.environments) : c.warning s ∉ s.warnings := by
  have hother : c ∉ Check.pairs ∧ c ∉ Check.lists := by
    revert c
    decide
  obtain ⟨d, hd, -, hfound⟩ := exists_told_of_pairs hpairs
  rw [warning_mem_iff hother.1, mem_told_iff, hfound, or_iff_right fun h => hother.2 h.1]
  -- the one rule that is told of besides those about lists is about the pair
  intro hsame
  cases hsame
  exact hother.1 hd

/-- The rules about the environment read nothing but two sections. -/
theorem Check.isBroken_congr {t : Settings} (hlogging : t.logging = s.logging)
    (happlication : t.application = s.application) (hc : c ∈ Check.environments) :
    c.isBroken t = c.isBroken s ∧ c.warning t = c.warning s := by
  cases c <;> simp_all [Check.environments, Check.isBroken, Check.warning]

/-! ## What settings are warned of -/

/-- What settings are warned of. -/
structure ReviewRules (s : Settings) : Prop where
  /-- The warnings are those of the rules that the review tells of, each once and in their order. -/
  warnings : s.warnings = (told s).map (·.warning s)
  /-- A list with codes that are not supported is warned of whatever else is broken. -/
  lists : ∀ c ∈ Check.lists, c.warning s ∈ s.warnings ↔ c.isBroken s = true
  /-- Of the rules about the default pair the first that is broken is warned of, and no other. -/
  pairs : ∀ c ∈ Check.pairs, (c.warning s ∈ s.warnings ↔
    ∃ d, Check.pairs.find? (·.isBroken s) = some d ∧ d.warning s = c.warning s)
  /-- An unusable default pair is warned of whatever else is broken, by one of its rules. -/
  unusable : (∃ c ∈ Check.pairs, c.isBroken s = true ∧ c.warning s ∈ s.warnings) ↔
    ∃ c ∈ Check.pairs, c.isBroken s = true
  /-- With a usable pair a broken rule about the environment is warned of whatever else is broken,
      but debug mode in production hides that everything is logged there. -/
  environments : (∀ c ∈ Check.pairs, c.isBroken s = false) → ∀ c ∈ Check.environments,
    (c.warning s ∈ s.warnings ↔
      c.isBroken s = true ∧ ¬ (c = .debugLevel ∧ Check.debugMode.isBroken s = true))
  /-- An unusable pair hides what is wrong with the environment. -/
  hidden : (∃ c ∈ Check.pairs, c.isBroken s = true) →
    ∀ c ∈ Check.environments, c.warning s ∉ s.warnings
  /-- Settings that differ in other sections only get the same warnings about the environment, if
      both have a usable pair. -/
  elsewhere : ∀ t : Settings, t.logging = s.logging → t.application = s.application →
    (∀ c ∈ Check.pairs, c.isBroken s = false) → (∀ c ∈ Check.pairs, c.isBroken t = false) →
      ∀ c ∈ Check.environments, c.warning t = c.warning s ∧
        (c.warning t ∈ t.warnings ↔ c.warning s ∈ s.warnings)

theorem reviewRules (s : Settings) : s.ReviewRules where
  warnings := warnings_eq s
  lists := fun c hc => warning_mem_of_lists hc
  pairs := fun c hc => warning_mem_of_pairs hc
  unusable := by
    refine ⟨fun ⟨c, hc, hbroken, _⟩ => ⟨c, hc, hbroken⟩, fun h => ?_⟩
    obtain ⟨c, hc, hbroken, hfound⟩ := exists_told_of_pairs h
    refine ⟨c, hc, hbroken, ?_⟩
    rw [warnings_eq]
    exact List.mem_map_of_mem (mem_told_iff.mpr (.inr hfound))
  environments := fun hpairs c hc => warning_mem_of_environments hpairs hc
  hidden := fun hpairs c hc => warning_notMem_of_environments hpairs hc
  elsewhere := by
    intro t hlogging happlication hpairs hother c hc
    obtain ⟨hbroken, hwarning⟩ := Check.isBroken_congr hlogging happlication hc
    obtain ⟨hmode, -⟩ := Check.isBroken_congr (c := .debugMode) hlogging happlication (by decide)
    refine ⟨hwarning, ?_⟩
    rw [warning_mem_of_environments hpairs hc, warning_mem_of_environments hother hc, hbroken,
      hmode]

/-- The defaults with debug mode and with another first currency of the default pair. -/
def debugging (fromCode : String) : Settings :=
  { default with
    display := { Display.default with fromCode := fromCode }
    application := { Application.default with debug := true } }

/-- A record that says so. -/
def debuggingMembers (fromCode : String) : List (String × Json) :=
  [("display", .object [("default_from_currency", .text fromCode)]),
    ("application", .object [("debug", .bool true)])]

/-- Debug mode in production is not warned of beside a default currency that is not supported,
    though it is if all that differs is this currency. -/
theorem not_warns_of_debug :
    (ofSources .usual .bare (debuggingMembers "SEK")).result = .ok (debugging "SEK") ∧
      (ofSources .usual .bare (debuggingMembers "USD")).result = .ok (debugging "USD") ∧
      Check.debugMode.isBroken (debugging "SEK") = true ∧
      (debugging "SEK").warnings = [Check.fromCode.warning (debugging "SEK")] ∧
      (debugging "USD").warnings = [Check.debugMode.warning (debugging "USD")] := by
  refine ⟨?_, ?_, ?_, ?_, ?_⟩ <;> decide +kernel

end Cambio.Settings
