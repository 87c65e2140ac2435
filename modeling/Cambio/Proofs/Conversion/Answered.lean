import Cambio.Conversion.WarmUp
import Cambio.Proofs.Service.Outcome
import Cambio.Proofs.Session.Result

/-!
# Conversions whose fetches are answered

If something comes back for every request, no fetch stays under way, and the same is so of what
comes later. A conversion then ends: over usable rates it shows the right result or an error.

## Main definitions

- `Channel.Answers` — something comes back for every request

## Main statements

- `Client.answered_rates` — a request for rates ends
- `Converter.isRight_convert` — what a conversion shows without an error is right
- `Converter.answers_convert`, `Converter.answers_warmUp` — later requests are answered too
-/

namespace Cambio

/-! ## Requests -/

namespace Channel

variable {ch : Channel} {request : Request}

/-- Something comes back for every request. -/
def Answers (ch : Channel) : Prop :=
  ∀ reply ∈ ch.replies, reply.answer ≠ .silence

theorem nextReply_spec (replies : List Reply) (h : ∀ reply ∈ replies, reply.answer ≠ .silence) :
    (nextReply replies).1.answer ≠ .silence ∧
      ∀ reply ∈ (nextReply replies).2, reply.answer ≠ .silence := by
  unfold nextReply
  split
  · exact ⟨by simp [Reply.offline], h⟩
  · exact ⟨h _ List.mem_cons_self, h⟩
  · exact ⟨h _ List.mem_cons_self, fun reply hreply => h reply (List.mem_cons_of_mem _ hreply)⟩

theorem Answers.exchange (h : ch.Answers) :
    (ch.exchange request).1 ≠ .silence ∧ (ch.exchange request).2.Answers := by
  obtain ⟨hanswer, hrest⟩ := nextReply_spec ch.replies h
  refine ⟨?_, hrest⟩
  change (nextReply ch.replies).1.answer.to request ≠ .silence
  unfold Answer.to
  split
  · split <;> simp
  · exact hanswer

end Channel

namespace Client

open Channel (Request Answers)

variable {ch : Channel}

theorem answered_attempts (request : Request) (retries attempt : Nat) (c : Client)
    (h : ch.Answers) :
    (attempts request retries attempt c ch).1 ≠ .pending ∧
      (attempts request retries attempt c ch).2.2.Answers := by
  have hlast {retries attempt : Nat} {c : Client} {ch : Channel} (h : ch.Answers)
      (hends : retries = 0 ∨ (ch.exchange request).1.isRetryable = false) :
      (attempts request retries attempt c ch).1 ≠ .pending ∧
        (attempts request retries attempt c ch).2.2.Answers := by
    obtain ⟨hanswer, hrest⟩ : (ch.exchange request).1 ≠ .silence ∧ _ := h.exchange
    rw [attempts_last hends]
    refine ⟨?_, hrest⟩
    rw [Ne, result_eq_pending_iff, verdict_eq_pending_iff]
    exact hanswer
  induction retries generalizing attempt c ch with
  | zero => exact hlast h (.inl rfl)
  | succ retries ih =>
    cases hretry : (ch.exchange request).1.isRetryable with
    | true =>
      rw [attempts_again hretry]
      obtain ⟨-, hrest⟩ : _ ∧ (ch.exchange request).2.Answers := h.exchange
      exact ih _ _ hrest
    | false => exact hlast h (.inr hretry)

/-- A request for rates ends, whatever comes back. -/
theorem answered_rates (c : Client) (base : String) (targets : List String) (h : ch.Answers) :
    (c.rates base targets ch).1 ≠ .pending ∧ (c.rates base targets ch).2.2.Answers := by
  rw [Ne, rates_eq_pending, rates_snd]
  cases sending c base targets ch with
  | keptBack _ hsend | unwritable _ _ _ _ hsend =>
    rw [hsend]
    exact ⟨nofun, h⟩
  | asked _ request _ _ hsend =>
    rw [hsend]
    exact answered_attempts request _ _ _ h

end Client

/-! ## Fetches -/

namespace Converter

variable {c : Converter} {o : Outside}

theorem answers_refresh (c : Converter) (base : String) (h : o.channel.Answers) :
    (c.refresh base o).1 ≠ .pending ∧ (c.refresh base o).2.2.channel.Answers := by
  obtain ⟨hends, hrest⟩ := Client.answered_rates c.client (Text.upperString base)
    (c.catalog.map Currency.code) h
  refine ⟨fun hpending => hends (fetch_of_pending hpending), ?_⟩
  change (c.fetch base o).2.2.Answers at hrest
  rw [refresh_eq]
  cases (c.fetch base o).1 with
  | done table =>
    simp only [takeAnswer]
    rw [takeRates_channel]
    exact hrest
  | fault | breakdown | pending => exact hrest

theorem answers_convert (c : Converter) (h : o.channel.Answers) :
    (c.convert o).2.channel.Answers := by
  unfold convert
  split
  · exact h
  · split
    · exact (answers_refresh c _ h).2
    · exact h

theorem answers_fetchEach (c : Converter) (h : o.channel.Answers) (bases : List String) :
    (c.fetchEach o bases).2.2.channel.Answers := by
  induction bases generalizing c o with
  | nil => exact h
  | cons base rest ih =>
    have hrefresh := (answers_refresh c base (o := o.pause c.settings.rates.pause) h).2
    unfold fetchEach
    generalize c.refresh base (o.pause c.settings.rates.pause) = refreshed at hrefresh ⊢
    obtain ⟨result, d, p⟩ := refreshed
    cases result with
    | done | fault => exact ih d hrefresh
    | breakdown | pending => exact hrefresh

theorem answers_fetchMajors (c : Converter) (h : o.channel.Answers) :
    (c.fetchMajors o).2.2.channel.Answers := by
  unfold fetchMajors
  split
  · exact h
  · next base rest _ =>
    have hrefresh := (answers_refresh c base h).2
    generalize c.refresh base o = refreshed at hrefresh ⊢
    obtain ⟨result, d, p⟩ := refreshed
    cases result with
    | done | fault => exact answers_fetchEach d hrefresh rest
    | breakdown | pending => exact hrefresh

theorem answers_warmUp (c : Converter) (h : o.channel.Answers) :
    (c.warmUp o).2.2.channel.Answers := by
  unfold warmUp
  split
  · split
    · exact answers_fetchMajors _ h
    · exact h
  · exact answers_fetchMajors c h

/-! ## Conversions -/

theorem isRight_finish {job : Job} (husable : c.cache.IsUsable) (hjob : c.job? = some job)
    (hamount : c.amount.isFinite = true) (hclean : (c.finish job).error = none) :
    (c.finish job).IsRight := by
  have hfinite : job.amount.isFinite = true := by rw [job_amount hjob, hamount]
  have hkeeps := keeps_finish c job
  exact (ended_finish husable hfinite).isRight (hkeeps.usable husable)
    ((job?_congr hkeeps.toSameSelection).trans hjob) hfinite hclean

/-- What a conversion over usable rates shows without an error is right, if its fetch is
    answered. -/
theorem isRight_convert (husable : c.cache.IsUsable) (hamount : c.amount.isFinite = true)
    (hanswers : o.channel.Answers) (hclean : (c.convert o).1.error = none) :
    (c.convert o).1.IsRight := by
  cases hjob : c.job? with
  | none =>
    rw [convert_of_unselected hjob] at hclean
    cases hclean
  | some job =>
    by_cases hneeds : c.NeedsRates job.fromCode o.now
    · obtain ⟨hends, -⟩ := answers_refresh c job.fromCode hanswers
      cases hrefresh : (c.refresh job.fromCode o).1 with
      | pending => exact absurd hrefresh hends
      | breakdown b =>
        -- the conversion reports the breakdown
        rw [convert_of_stale hjob (isStale_iff_needsRates.mpr hneeds), hrefresh] at hclean
        cases hclean
      | done | fault =>
        have hsettled : (∃ table, (c.refresh job.fromCode o).1 = .done table) ∨
            ∃ fault, (c.refresh job.fromCode o).1 = .fault fault := by
          rw [hrefresh]
          simp
        obtain ⟨hselection, hcache⟩ := refresh_spec husable (fetch_of_refresh hsettled)
        rw [convert_of_needsRates hjob hneeds hsettled] at hclean ⊢
        exact isRight_finish hcache ((job?_congr hselection).trans hjob)
          (by rw [hselection.amount, hamount]) hclean
    · rw [convert_of_rested hjob hneeds] at hclean ⊢
      exact isRight_finish husable hjob hamount hclean

end Converter

end Cambio
