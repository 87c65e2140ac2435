import Cambio.Proofs.Conversion.Status
import Cambio.Proofs.Session.Result
import Mathlib.Logic.Relation

/-!
# Conversions that overlap

A conversion notes the selection, asks for rates if they are stale, and ends when the answer comes.
Meanwhile the selection may change and further conversions may begin, and the answers may come in
any order. Whatever the order, the result belongs to the conversion that ended last, over the tables
of its end. So it is right if the last one to end noted the present selection, and a conversion that
was begun earlier and ends later writes over the result of a newer one.

## Main definitions

- `Converter.receive` — the second part of a conversion that had to ask for rates
- `Converter.Belongs` — the result is that of a conversion
- `Traffic`, `Traffic.Step` — a converter with conversions under way, and what may happen

## Main statements

- `Converter.convert_of_isStale` — a conversion without others is its two parts, one after the other
- `Traffic.rules_run` — the result after any run
- `Traffic.not_isRight_of_olderLast` — an older conversion that ends last
-/

namespace Cambio

namespace Converter

variable {c d : Converter} {job : Job} {o : Outside} {client : Client}
  {answer : Service.Result RateTable}

/-- The second part of a conversion that had to ask for rates: takes over the answer, and ends. -/
def receive (c : Converter) (job : Job) (client : Client) (answer : Service.Result RateTable)
    (o : Outside) : Converter × Outside :=
  let (taken, d, o) :=
    takeAnswer { c with client := client } (Text.upperString job.fromCode) answer o
  (d.conclude job taken, o)

/-- The second part of a conversion with the answer that the service gives. -/
def hearFrom (c : Converter) (job : Job) (o : Outside) : Converter × Outside :=
  c.receive job (c.fetch job.fromCode o).2.1 (c.fetch job.fromCode o).1
    { o with channel := (c.fetch job.fromCode o).2.2 }

/-- A conversion without others is its two parts, one after the other. -/
theorem convert_of_isStale (hjob : c.job? = some job) (hstale : c.isStale job o.now = true) :
    c.convert o = c.hearFrom job o := by
  rw [convert_of_stale hjob hstale, refresh_eq]
  rfl

/-- The result is that of a conversion: its amount at the rate of its pair that the tables have. -/
def Belongs (c : Converter) (job : Job) : Prop :=
  ∃ r, (c.resolve job.fromCode job.toCode).1 = .ok r ∧ r.isFallback = false ∧
    job.amount.mul r.rate = .ok c.converted

/-- A result that belongs to the conversion of the present selection is right. -/
theorem Belongs.isRight (h : c.Belongs job) (husable : c.cache.IsUsable)
    (hfinite : job.amount.isFinite = true) (hjob : c.job? = some job) : c.IsRight := by
  obtain ⟨r, hresolve, -, hproduct⟩ := h
  have hbounded := Decimal.isBounded_mul hfinite (isFinite_rate husable hresolve)
  rw [hproduct] at hbounded
  obtain ⟨hconverted⟩ := hbounded
  exact ⟨job, r, c.converted, hjob, hresolve, hproduct, Decimal.sameValue_refl hconverted⟩

theorem Ended.belongs (h : Ended c job) (hclean : c.hasError = false) : c.Belongs job := by
  rw [hasError, Option.isSome_eq_false_iff, Option.isNone_iff_eq_none] at hclean
  cases h with
  | exact r hresolve hfound hproduct => exact ⟨r, hresolve, hfound, hproduct⟩
  | stopgap r hresolve hmissing hproduct herror => cases herror.symm.trans hclean
  | overflow hoverflow hconverted herror => cases herror.symm.trans hclean

/-- A result belongs to the same conversions over the same tables. -/
theorem Belongs.congr (h : c.Belongs job) (hsettings : d.settings = c.settings)
    (hslots : d.cache.slots = c.cache.slots) (hconverted : d.converted = c.converted) :
    d.Belongs job := by
  obtain ⟨r, hresolve, hfound, hproduct⟩ := h
  exact ⟨r, (resolve_fst_congr hsettings hslots _ _).trans hresolve, hfound, hconverted ▸ hproduct⟩

/-- An answer that comes: rates that can be used, or none. -/
def Comes (answer : Service.Result RateTable) : Prop :=
  answer ≠ .pending ∧ ∀ table, answer = .done table → RateTable.IsUsable table

/-- What the second part of a conversion does, whatever the selection is by then. -/
structure Received (c : Converter) (job : Job) (d : Converter) : Prop
    extends SameSelection c d where
  usable : d.cache.IsUsable
  belongs : d.hasError = false → d.Belongs job

theorem received_conclude {taken : Service.Result RateTable} (hsame : SameSelection c d)
    (husable : d.cache.IsUsable) (hfinite : job.amount.isFinite = true)
    (htaken : taken ≠ .pending) : Received c job (d.conclude job taken) := by
  have hfinish : Received c job (d.finish job) :=
    ⟨hsame.trans (keeps_finish d job).toSameSelection, (keeps_finish d job).usable husable,
      (ended_finish husable hfinite).belongs⟩
  cases taken with
  | done | fault => exact hfinish
  | breakdown b => exact ⟨hsame.trans ⟨rfl, rfl, rfl, rfl, rfl⟩, husable, nofun⟩
  | pending => exact absurd rfl htaken

/-- Taking over an answer that comes leaves the selection alone and the tables usable. -/
theorem takeAnswer_spec (husable : c.cache.IsUsable) (hcomes : Comes answer) (base : String)
    (o : Outside) :
    SameSelection c (c.takeAnswer base answer o).2.1 ∧
      (c.takeAnswer base answer o).2.1.cache.IsUsable ∧
        (c.takeAnswer base answer o).1 ≠ .pending := by
  cases answer with
  | done table =>
    change SameSelection c (c.takeRates base table o).2.1 ∧
      (c.takeRates base table o).2.1.cache.IsUsable ∧ (c.takeRates base table o).1 ≠ .pending
    rw [takeRates_converter]
    exact ⟨⟨rfl, rfl, rfl, rfl, rfl⟩, husable.refresh (hcomes.2 table rfl) _ _,
      takeRates_ne_pending c base table o⟩
  | fault | breakdown => exact ⟨.refl c, husable, nofun⟩
  | pending => exact absurd rfl hcomes.1

theorem received_receive (husable : c.cache.IsUsable) (hfinite : job.amount.isFinite = true)
    (hcomes : Comes answer) (client : Client) (o : Outside) :
    Received c job (c.receive job client answer o).1 := by
  have hclient : SameSelection c { c with client := client } := ⟨rfl, rfl, rfl, rfl, rfl⟩
  obtain ⟨hsame, htables, htaken⟩ :=
    takeAnswer_spec (c := { c with client := client }) husable hcomes
      (Text.upperString job.fromCode) o
  exact received_conclude (hclient.trans hsame) htables hfinite htaken

end Converter

open Converter (Job)

/-! ## Runs -/

/-- A converter with conversions under way. -/
structure Traffic where
  converter : Converter
  /-- What the conversions noted that wait for an answer, in the order in which they were begun. -/
  waiting : List Job
  /-- What the conversion noted that ended last. -/
  ended : Option Job

namespace Traffic

variable {t u : Traffic}

/-- A change of the selection that is not refused. -/
inductive Reselects (c : Converter) : Converter → Prop
  | source {choice : Converter.Choice} {d : Converter} (h : c.selectFrom choice = .ok d) :
    Reselects c d
  | target {choice : Converter.Choice} {d : Converter} (h : c.selectTo choice = .ok d) :
    Reselects c d
  | amount {e : Converter.Entry} {d : Converter} (h : c.enterAmount e = .ok d) : Reselects c d
  | swap : Reselects c c.swap

/-- What may happen next. -/
inductive Step (t : Traffic) : Traffic → Prop
  | select {d : Converter} (h : Reselects t.converter d) : Step t { t with converter := d }
  /-- A conversion begins and has to wait for rates. -/
  | begin {job : Job} {now : Moment} (hjob : t.converter.job? = some job)
    (hstale : t.converter.isStale job now = true) : Step t { t with waiting := t.waiting ++ [job] }
  /-- A conversion begins and ends at once. -/
  | convert {job : Job} {now : Moment} (hjob : t.converter.job? = some job)
    (hfresh : t.converter.isStale job now = false) :
    Step t { t with converter := t.converter.finish job, ended := some job }
  /-- The answer to one of the conversions comes, and the conversion ends. -/
  | answer (before after : List Job) {job : Job} {reply : Service.Result RateTable}
    (client : Client) (o : Outside) (hwaiting : t.waiting = before ++ job :: after)
    (hcomes : Converter.Comes reply) :
    Step t ⟨(t.converter.receive job client reply o).1, before ++ after, some job⟩

/-- The answer may be the one that the service gives, unless that never comes. -/
theorem Step.heard (c : Converter) (before after : List Job) (job : Job) (ended : Option Job)
    (o : Outside) (hfetch : (c.fetch job.fromCode o).1 ≠ .pending) :
    Step ⟨c, before ++ job :: after, ended⟩ ⟨(c.hearFrom job o).1, before ++ after, some job⟩ :=
  .answer before after _ _ rfl ⟨hfetch, fun _ hdone => Client.isUsable_of_rates hdone⟩

/-- Any number of steps. -/
abbrev Run : Traffic → Traffic → Prop :=
  Relation.ReflTransGen Step

/-- Tables and amounts are fit for conversions, and the result belongs to the conversion that ended
    last. -/
structure IsSound (t : Traffic) : Prop where
  usable : t.converter.cache.IsUsable
  amount : t.converter.amount.isFinite = true
  waiting : ∀ job ∈ t.waiting, job.amount.isFinite = true
  ended : ∀ job, t.ended = some job → job.amount.isFinite = true
  belongs : ∀ job, t.ended = some job → t.converter.hasError = false → t.converter.Belongs job

theorem Reselects.selects {c d : Converter} (h : Reselects c d) :
    Converter.Selects c d ∧ d.converted = c.converted ∧ d.error = c.error := by
  cases h with
  | source h =>
    obtain ⟨x, -, hd⟩ := Converter.selectFrom_eq_ok h
    exact ⟨Converter.selects_selectFrom h, by rw [hd], by rw [hd]⟩
  | target h =>
    obtain ⟨x, -, hd⟩ := Converter.selectTo_eq_ok h
    exact ⟨Converter.selects_selectTo h, by rw [hd], by rw [hd]⟩
  | amount h =>
    obtain ⟨x, -, hd⟩ := Converter.enterAmount_eq_ok h
    exact ⟨Converter.selects_enterAmount h, by rw [hd], by rw [hd]⟩
  | swap => exact ⟨Converter.selects_swap c, rfl, rfl⟩

theorem IsSound.step (h : t.IsSound) (hstep : Step t u) : u.IsSound := by
  cases hstep with
  | select hselect =>
    obtain ⟨hselects, hconverted, herror⟩ := hselect.selects
    refine ⟨hselects.cache ▸ h.usable, hselects.finite h.amount, h.waiting, h.ended, ?_⟩
    intro job hjob hclean
    rw [Converter.hasError, herror] at hclean
    exact (h.belongs job hjob hclean).congr hselects.settings (by rw [hselects.cache]) hconverted
  | begin hjob =>
    refine ⟨h.usable, h.amount, fun job hmem => ?_, h.ended, h.belongs⟩
    rcases List.mem_append.mp hmem with hbefore | hnew
    · exact h.waiting job hbefore
    · rw [List.mem_singleton.mp hnew, Converter.job_amount hjob]
      exact h.amount
  | @convert job _ hjob =>
    have hfinite : job.amount.isFinite = true := by
      rw [Converter.job_amount hjob]
      exact h.amount
    have hkeeps := Converter.keeps_finish t.converter job
    have hended := Converter.ended_finish h.usable hfinite
    have hamount := (congrArg Decimal.isFinite hkeeps.amount).trans h.amount
    refine ⟨hkeeps.usable h.usable, hamount, h.waiting, ?_, ?_⟩
    · rintro _ ⟨⟩
      exact hfinite
    · rintro _ ⟨⟩
      exact hended.belongs
  | @answer before after job reply client o hwaiting hcomes =>
    have hall := h.waiting
    rw [hwaiting] at hall
    have hfinite := hall job (List.mem_append_right _ List.mem_cons_self)
    have hreceived := Converter.received_receive h.usable hfinite hcomes client o
    have hamount := (congrArg Decimal.isFinite hreceived.amount).trans h.amount
    refine ⟨hreceived.usable, hamount, fun other hother => hall other ?_, ?_, ?_⟩
    · rcases List.mem_append.mp hother with hbefore | hafter
      · exact List.mem_append_left _ hbefore
      · exact List.mem_append_right _ (List.mem_cons_of_mem _ hafter)
    · rintro _ ⟨⟩
      exact hfinite
    · rintro _ ⟨⟩
      exact hreceived.belongs

theorem IsSound.run (h : t.IsSound) (hrun : Run t u) : u.IsSound := by
  induction hrun with
  | refl => exact h
  | tail _ hstep ih => exact ih.step hstep

/-- What the result is after a run, if nothing went wrong last. -/
structure Rules (t : Traffic) : Prop where
  /-- It belongs to the conversion that ended last, whenever that was begun. -/
  last : ∀ job, t.ended = some job → t.converter.hasError = false → t.converter.Belongs job
  /-- It is right if that conversion noted the present selection. -/
  present : ∀ job, t.ended = some job → t.converter.job? = some job →
    t.converter.hasError = false → t.converter.IsRight

/-- **Overlapping conversions**: after any run, with any number of conversions under way and answers
that come in any order, the result belongs to the conversion that ended last. -/
theorem rules_run {c : Converter} (husable : c.cache.IsUsable) (hamount : c.amount.isFinite = true)
    (hrun : Run ⟨c, [], none⟩ t) : t.Rules := by
  have hstart : IsSound ⟨c, [], none⟩ := ⟨husable, hamount, nofun, nofun, nofun⟩
  have hsound := hstart.run hrun
  exact ⟨hsound.belongs, fun job hended hjob hclean =>
    (hsound.belongs job hended hclean).isRight hsound.usable (hsound.ended job hended) hjob⟩

/-! ## Two conversions -/

/-- The usual settings and no rates at all. -/
def ratesMissing : Converter :=
  .ofSettings .default (.ofConfig Settings.Service.default.client) none .empty

/-- The same with another amount. -/
def twice : Converter :=
  { ratesMissing with amount := .ofNat 2 }

/-- Half a euro for a dollar, whenever the service is asked. -/
def halves : Outside :=
  Converter.answering 200 "\x7b\"data\":\x7b\"EUR\":0.5\x7d\x7d"

/-- The conversion of one dollar. -/
def one : Job := ⟨"USD", "EUR", .one⟩

/-- The conversion of two dollars. -/
def two : Job := ⟨"USD", "EUR", .ofNat 2⟩

/-- When the conversion of two dollars has ended. -/
def renewed : Converter := (twice.hearFrom two halves).1

/-- When the conversion of one dollar has ended after it. -/
def overtaken : Converter := (renewed.hearFrom one halves).1

/-- The conversion of one dollar is begun, the amount changed, and that of two dollars begun. -/
theorem run_twice : Run ⟨ratesMissing, [], none⟩ ⟨twice, [one, two], none⟩ := by
  have hone : ratesMissing.job? = some one := rfl
  have htwo : twice.job? = some two := rfl
  have hstaleOne : ratesMissing.isStale one .earliest = true := rfl
  have hstaleTwo : twice.isStale two .earliest = true := rfl
  have hamount : ratesMissing.enterAmount (.ofText "2".toList) = .ok twice := rfl
  calc Run ⟨ratesMissing, [], none⟩ ⟨ratesMissing, [one], none⟩ := .single (.begin hone hstaleOne)
    Run _ ⟨twice, [one], none⟩ := .single (.select (.amount hamount))
    Run _ ⟨twice, [one, two], none⟩ := .single (.begin htwo hstaleTwo)

/-- Both answers come, and what is left is the half for one dollar. -/
theorem answers_overtaken :
    (twice.fetch two.fromCode halves).1 ≠ .pending ∧
      (renewed.fetch one.fromCode halves).1 ≠ .pending ∧
      overtaken.job? = some two ∧ overtaken.hasError = false ∧
      (overtaken.resolve "USD" "EUR").1 =
        .ok ⟨"USD", "EUR", RateTable.withPlaces 5 1, .direct, none⟩ ∧
      overtaken.converted = RateTable.withPlaces 5 1 := by
  decide +kernel

/-- The answer for two dollars comes, and then that for one. -/
theorem run_overtaken : Run ⟨twice, [one, two], none⟩ ⟨overtaken, [], some one⟩ := by
  obtain ⟨hfetchTwo, hfetchOne, -⟩ := answers_overtaken
  have hrenewed : Step ⟨twice, [one, two], none⟩ ⟨renewed, [one], some two⟩ := by
    rw [renewed]
    exact .heard twice [one] [] two none halves hfetchTwo
  have hovertaken : Step ⟨renewed, [one], some two⟩ ⟨overtaken, [], some one⟩ := by
    rw [overtaken]
    exact .heard renewed [] [] one (some two) halves hfetchOne
  exact (Relation.ReflTransGen.single hrenewed).tail hovertaken

theorem rules_run_overtaken : Rules ⟨overtaken, [], some one⟩ :=
  rules_run (by decide) rfl (run_twice.trans run_overtaken)

/-- **An older conversion that ends last** writes over the result of the newer one. -/
theorem not_isRight_of_olderLast :
    Run ⟨ratesMissing, [], none⟩ ⟨twice, [one, two], none⟩ ∧
      Run ⟨twice, [one, two], none⟩ ⟨overtaken, [], some one⟩ ∧
      overtaken.job? = some two ∧ overtaken.hasError = false ∧ ¬ overtaken.IsRight := by
  obtain ⟨-, -, hjob, hclean, hrate, hconverted⟩ := answers_overtaken
  refine ⟨run_twice, run_overtaken, hjob, hclean, ?_⟩
  rintro ⟨job, r, product, hsome, hresolve, hproduct, hsame⟩
  cases hjob.symm.trans hsome
  cases hrate.symm.trans hresolve
  have htwice : (Decimal.ofNat 2).mul (RateTable.withPlaces 5 1) =
      .ok (RateTable.withPlaces 10 1) := by decide
  cases htwice.symm.trans hproduct
  rw [hconverted] at hsame
  have hhalf : (RateTable.withPlaces 5 1).sameValue (RateTable.withPlaces 10 1) = false := by decide
  exact Bool.false_ne_true (hhalf.symm.trans hsame)

end Traffic

end Cambio
