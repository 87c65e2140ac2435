import Cambio.Proofs.Service.Series
import Cambio.Settings.Basic

/-!
# How often a request is sent

The answers to come decide alone how often a request is sent, how long the client pauses in
between, what its metrics count and what the request brings.

## Main definitions

- `Channel.Answer.IsOutcome` — an answer that the client can judge
- `Client.HasRetried` — what a request does, told from the answers to come

## Main statements

- `Client.foldl_count_metrics` — the metrics after a series
- `Client.send_hasRetried` — a request that goes through
-/

namespace Cambio

/-- An answer that the client can judge: a status with a body whose reading, if it is read and that
    fails, fails on the form of the body, or a failure of the exchange. -/
def Channel.Answer.IsOutcome : Channel.Answer → Prop
  | .status number body => Channel.Answer.isFailureStatus number = false →
      ∀ e, Json.readBytes .exact body = .error e → e.isMalformed = true
  | .trouble t _ => t = .timeout ∨ t = .transport ∨ t = .protocol
  | .silence => False

namespace Client

open Channel (Answer Exchange Request)

/-! ## What is counted -/

theorem foldl_count_metrics (c : Client) (xs : List Exchange) :
    (xs.foldl count c).metrics.succeeded =
        c.metrics.succeeded + xs.countP (fun x => x.answer.isAccepted) ∧
      (xs.foldl count c).metrics.failed =
        c.metrics.failed + xs.countP (fun x => x.answer.isNoticed) ∧
      (xs.foldl count c).metrics.total =
        c.metrics.total + xs.countP (fun x => x.answer.isAccepted) +
          xs.countP (fun x => x.answer.isNoticed) := by
  induction xs generalizing c with
  | nil => simp
  | cons x xs ih =>
    obtain ⟨hsucceeded, hfailed, htotal⟩ := ih (c.count x)
    rw [List.foldl_cons, hsucceeded, hfailed, htotal]
    simp only [List.countP_cons]
    cases judged x.answer with
    | accepted _ _ accepted noticed =>
      rw [count_of_accepted accepted]
      simp only [succeeded, Metrics.record, accepted, noticed]
      simp
      omega
    | retryable _ _ accepted noticed | final _ _ accepted noticed =>
      rw [count_of_noticed accepted noticed]
      simp only [failed, Metrics.record, accepted, noticed]
      simp
      omega
    | uncounted _ accepted noticed =>
      rw [count_of_neither accepted noticed]
      simp [accepted, noticed]

/-- An answer that can be judged is noticed as a failure if it is one, and accepted otherwise. -/
theorem isNoticed_eq_isFailed {a : Answer} (h : a.IsOutcome) : a.isNoticed = a.isFailed := by
  cases a with
  | status number body =>
    have hread : (Answer.status number body).isUnread = false := by
      cases hstatus : Answer.isFailureStatus number with
      | true => simp [Answer.isUnread, hstatus]
      | false =>
        cases hbody : Json.readBytes .exact body with
        | error e => simp [Answer.isUnread, Answer.isOverlong, hbody, h hstatus e hbody]
        | ok v => simp [Answer.isUnread, Answer.isOverlong, hbody]
    simp [Answer.isNoticed, hread]
  | trouble trouble message => simp [Answer.isNoticed, Answer.isUnread]
  | silence => rfl

theorem isAccepted_eq_not_isFailed {a : Answer} (h : a.IsOutcome) :
    a.isAccepted = !a.isFailed := by
  cases a with
  | status number body => simp [Answer.isAccepted, Answer.isFailed]
  | trouble trouble message =>
    rcases h with rfl | rfl | rfl <;> rfl
  | silence => exact h.elim

/-! ## A request that goes through -/

/-- What a request does that the breaker lets through, told from the answers that it and its
    repetitions would meet: `k` of them are taken. -/
structure HasRetried (c : Client) (request : Request) (ch : Channel) (answers : List Answer)
    (k : Nat) (result : Service.Result (List (String × Json))) (after : Client)
    (channel : Channel) : Prop where
  sent : channel.sent = ch.sent ++ List.replicate k request
  pauses : channel.pauses = ch.pauses ++ (List.range (k - 1)).map fun attempt =>
    c.config.retryDelay.mul (c.config.backoff.pow attempt)
  /-- Each pause comes after an exchange that is not the last. -/
  rounds : channel = ((List.range (k - 1)).foldl (round c.config request) ch |>.exchange request).2
  total : after.metrics.total = c.metrics.total + k
  failed : after.metrics.failed = c.metrics.failed + (answers.take k).countP Answer.isFailed
  succeeded : after.metrics.succeeded =
    c.metrics.succeeded + (answers.take k).countP fun a => !a.isFailed
  balanced : c.metrics.total = c.metrics.succeeded + c.metrics.failed →
    after.metrics.total = after.metrics.succeeded + after.metrics.failed
  /-- The last answer alone decides what comes back. -/
  result : ∃ last, answers[k - 1]? = some last ∧ result = (verdict last).result ∧
    ((∃ members, result = .done members) ∨ ∃ fault, result = .fault fault)

theorem result_of_isOutcome {a : Answer} (h : a.IsOutcome) :
    (∃ members, (verdict a).result = .done members) ∨
      ∃ fault, (verdict a).result = .fault fault := by
  cases judged a with
  | accepted members judgement => exact .inl ⟨members, by rw [judgement]; rfl⟩
  | retryable fault judgement => exact .inr ⟨fault, by rw [judgement]; rfl⟩
  | final fault judgement => exact .inr ⟨fault, by rw [judgement]; rfl⟩
  | uncounted judgement accepted noticed =>
    rw [isNoticed_eq_isFailed h] at noticed
    rw [isAccepted_eq_not_isFailed h, noticed] at accepted
    cases accepted

/-- A count over a series of answers that can be judged is one over the answers taken. -/
theorem countP_series {config : Service.Config} {request : Request} {retries attempt : Nat}
    {ch : Channel} (p : Answer → Bool) :
    (series config request retries attempt ch).countP (fun x => p x.answer) =
      ((answersTo request (retries + 1) ch.replies).take
        (series config request retries attempt ch).length).countP p := by
  rw [series_length, ← series_answers config request retries attempt, List.countP_map]
  rfl

/-- The metrics after a series of answers that can be judged: every answer that is taken counts, as
    a failure or as a success. -/
theorem metrics_of_series (c : Client) (request : Request) (retries attempt : Nat) (ch : Channel)
    (houtcome : ∀ a ∈ answersTo request (retries + 1) ch.replies, a.IsOutcome) :
    let xs := series c.config request retries attempt ch
    let taken := (answersTo request (retries + 1) ch.replies).take xs.length
    (xs.foldl count c).metrics.total = c.metrics.total + xs.length ∧
      (xs.foldl count c).metrics.failed = c.metrics.failed + taken.countP Answer.isFailed ∧
      (xs.foldl count c).metrics.succeeded =
        c.metrics.succeeded + (taken.countP fun a => !a.isFailed) ∧
      xs.length = taken.countP Answer.isFailed + taken.countP fun a => !a.isFailed := by
  intro xs taken
  have htaken : ∀ a ∈ taken, a.IsOutcome := fun a ha => houtcome a (List.mem_of_mem_take ha)
  have hfailed : xs.countP (fun x => x.answer.isNoticed) = taken.countP Answer.isFailed := by
    rw [countP_series]
    exact List.countP_congr fun a ha => by rw [isNoticed_eq_isFailed (htaken a ha)]
  have hsucceeded : xs.countP (fun x => x.answer.isAccepted) =
      taken.countP fun a => !a.isFailed := by
    rw [countP_series]
    exact List.countP_congr fun a ha => by rw [isAccepted_eq_not_isFailed (htaken a ha)]
  have hlength : taken.length = xs.length := by
    have hseries : xs.length = _ := series_length c.config request retries attempt ch
    rw [List.length_take, answersTo_length]
    omega
  -- an answer is a failure or a success, so both counts make up the whole
  have hsplit : xs.length = taken.countP Answer.isFailed + taken.countP fun a => !a.isFailed := by
    have hparts := List.length_eq_countP_add_countP Answer.isFailed (l := taken)
    simpa [hlength] using hparts
  obtain ⟨hmsucceeded, hmfailed, hmtotal⟩ := foldl_count_metrics c xs
  refine ⟨?_, by rw [hmfailed, hfailed], by rw [hmsucceeded, hsucceeded], hsplit⟩
  rw [hmtotal, hsucceeded, hfailed]
  omega

/-- **Retries**: a request that the breaker lets through is sent until the first answer that is
    not to be retried, as far as the retries go. -/
theorem send_hasRetried (c : Client) (base : String) (targets : List String) (ch : Channel)
    (b : Breaker) (request : Request)
    (hpass : c.breaker.pass? c.config.cooldown ch.now = some b)
    (hrequest : Client.request c.config base targets = .ok request)
    (houtcome : ∀ a ∈ answersTo request (c.config.maxRetries + 1) ch.replies, a.IsOutcome) :
    let answers := answersTo request (c.config.maxRetries + 1) ch.replies
    let k := min (answers.findIdx (fun a => !a.isRetryable) + 1) (c.config.maxRetries + 1)
    HasRetried c request ch answers k (c.send base targets ch).1 (c.send base targets ch).2.1
      (c.send base targets ch).2.2 := by
  intro answers k
  have hsend : c.send base targets ch =
      attempts request c.config.maxRetries 0 { c with breaker := b } ch := by
    simp only [send, hpass, hrequest]
  let asking : Client := { c with breaker := b }
  have hk : (series asking.config request c.config.maxRetries 0 ch).length = k :=
    series_length _ _ _ _ _
  have hafter : (series asking.config request c.config.maxRetries 0 ch).foldl count asking =
      (c.send base targets ch).2.1 := by
    rw [hsend, attempts_client]
  have hchannel : (c.send base targets ch).2.2 =
      ((List.range (k - 1)).foldl (round c.config request) ch |>.exchange request).2 := by
    rw [hsend, attempts_channel, List.range_eq_range', ← hk]
  obtain ⟨htotal, hfailed, hsucceeded, hsplit⟩ :=
    metrics_of_series asking request c.config.maxRetries 0 ch houtcome
  rw [hafter, hk] at htotal hfailed hsucceeded
  rw [hk] at hsplit
  refine ⟨?_, ?_, hchannel, htotal, hfailed, hsucceeded, ?_, ?_⟩
  · rw [hsend, attempts_sent]
    exact congrArg (ch.sent ++ List.replicate · request) hk
  · rw [hchannel]
    exact foldl_round_pauses _ _ _ _
  · intro hbalanced
    rw [htotal, hfailed, hsucceeded]
    change c.metrics.total + k = c.metrics.succeeded + _ + (c.metrics.failed + _)
    omega
  · obtain ⟨last, hlast, hresult⟩ := attempts_result request c.config.maxRetries 0 asking ch
    have hmet : answers[k - 1]? = some last.answer :=
      hk ▸ answersTo_getElem?_of_last _ _ _ _ _ hlast
    have hresult' : (c.send base targets ch).1 = (verdict last.answer).result := by
      rw [hsend, hresult]
    refine ⟨last.answer, hmet, hresult', ?_⟩
    rw [hresult']
    exact result_of_isOutcome (houtcome _ (List.mem_of_getElem? hmet))

/-- Two answers that are retried and then an object: three requests. -/
theorem send_hasRetried_twice :
    let c := Client.ofConfig Settings.Service.default.client
    let request : Request :=
      ⟨⟨"https".toList, [], "api.freecurrencyapi.com".toList, none, "/v1/latest".toList, none⟩,
        "USD", "EUR", ""⟩
    let ch : Channel :=
      ⟨.earliest, [⟨.zero, .status 503 []⟩, ⟨.zero, .trouble .timeout "late"⟩,
        ⟨.zero, .status 200 [0x7b, 0x7d]⟩], [], []⟩
    c.breaker.pass? c.config.cooldown ch.now = some c.breaker ∧
      Client.request c.config "USD" ["EUR"] = .ok request ∧
      (∀ a ∈ answersTo request 3 ch.replies, a.IsOutcome) ∧
      HasRetried c request ch (answersTo request 3 ch.replies) 3 (c.send "USD" ["EUR"] ch).1
        (c.send "USD" ["EUR"] ch).2.1 (c.send "USD" ["EUR"] ch).2.2 := by
  intro c request ch
  have hpass : c.breaker.pass? c.config.cooldown ch.now = some c.breaker := rfl
  have hrequest : Client.request Settings.Service.default.client "USD" ["EUR"] = .ok request := by
    rfl
  have hread : Json.readBytes .exact [0x7b, 0x7d] = .ok (.object []) := by rfl
  have houtcome : ∀ a ∈ answersTo request 3 ch.replies, a.IsOutcome := by
    have hanswers : answersTo request 3 ch.replies =
        [.status 503 [], .trouble .timeout "late", .status 200 [0x7b, 0x7d]] := rfl
    intro a ha
    rw [hanswers] at ha
    simp only [List.mem_cons, List.not_mem_nil, or_false] at ha
    rcases ha with rfl | rfl | rfl
    · intro hstatus
      cases hstatus
    · exact .inl rfl
    · intro _ e he
      rw [hread] at he
      cases he
  exact ⟨hpass, hrequest, houtcome,
    send_hasRetried c "USD" ["EUR"] ch c.breaker request hpass hrequest houtcome⟩

end Client

end Cambio
