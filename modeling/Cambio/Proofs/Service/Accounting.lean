import Cambio.Proofs.Service.Outage
import Cambio.Proofs.Service.Outcome

/-!
# How requests for rates are counted

Every attempt of a request but the last is counted as a failure, and so is the last one if the
request ends in a fault, with one exception: an object without a usable table is a fault of the
request, but counted as a success. A service that is at fault in any other way opens the breaker,
and one that keeps answering with such objects never does.

## Main definitions

- `Client.CountsFailure`, `Client.CountsSuccess` — what an attempt does to the client
- `Client.Accounts` — the attempts of a request and what they count as
- `Client.Call`, `Client.runCalls` — requests for rates, one after the other

## Main statements

- `Client.accounts` — every request
- `Client.opened_of_faults`, `Client.run_of_unusable` — runs of requests that end in faults
-/

namespace Cambio.Client

open Channel (Answer Exchange Request)

variable {c d : Client} {base : String} {targets : List String} {ch : Channel}

/-! ## What an attempt counts as -/

/-- An attempt counts as a failure. -/
structure CountsFailure (before after : Client) : Prop where
  failed : after.metrics.failed = before.metrics.failed + 1
  succeeded : after.metrics.succeeded = before.metrics.succeeded
  failures : after.breaker.failures = before.breaker.failures + 1
  /-- The breaker opens, or it was not on trial and has seen too few failures. -/
  state : after.breaker.state = .opened ∨
    after.breaker.state = before.breaker.state ∧ before.breaker.state ≠ .halfOpen ∧
      after.breaker.failures < before.config.threshold

/-- An attempt counts as a success. -/
structure CountsSuccess (before after : Client) : Prop where
  failed : after.metrics.failed = before.metrics.failed
  succeeded : after.metrics.succeeded = before.metrics.succeeded + 1
  failures : after.breaker.failures = 0
  closed : after.breaker.state = .closed

theorem countsFailure_failed (c : Client) (started now : Moment) :
    CountsFailure c (c.failed started now) where
  failed := rfl
  succeeded := rfl
  failures := by
    unfold failed Breaker.failed
    dsimp only
    split <;> rfl
  state := by
    unfold failed Breaker.failed
    dsimp only
    split
    · exact .inl rfl
    · next hstays =>
      obtain ⟨htrial, hmany⟩ := not_or.mp hstays
      exact .inr ⟨rfl, htrial, Nat.not_le.mp hmany⟩

theorem countsSuccess_succeeded (c : Client) (started now : Moment) :
    CountsSuccess c (c.succeeded started now) := by
  have hfresh : (c.breaker.succeeded).failures = 0 ∧ (c.breaker.succeeded).state = .closed := by
    unfold Breaker.succeeded
    split
    · exact ⟨rfl, rfl⟩
    · next hclean =>
      obtain ⟨hclosed, hnone⟩ := not_or.mp hclean
      exact ⟨not_not.mp hnone, not_not.mp hclosed⟩
  exact ⟨rfl, rfl, hfresh.1, hfresh.2⟩

/-! ## The attempts of a request -/

/-- The client when the breaker has been asked. -/
def letThrough (c : Client) (now : Moment) : Client :=
  match c.breaker.pass? c.config.cooldown now with
  | some b => { c with breaker := b }
  | none => c

/-- The client after a request has counted its exchanges, one after the other. -/
theorem rates_client (c : Client) (base : String) (targets : List String) (ch : Channel) :
    (c.rates base targets ch).2.1 =
      (c.exchanges base targets ch).foldl count (c.letThrough ch.now) := by
  rw [rates_snd, letThrough]
  cases sending c base targets ch with
  | keptBack hpass hsend hnone =>
    rw [hsend, hnone, hpass]
    rfl
  | unwritable b _ hpass _ hsend hnone =>
    rw [hsend, hnone, hpass]
    rfl
  | asked b request hpass _ hsend hexchanges =>
    rw [hsend, hexchanges, hpass]
    exact attempts_client request c.config.maxRetries 0 { c with breaker := b } ch

/-- All attempts but the last may fare better. -/
theorem isRetryable_of_mem_series {config : Service.Config} {request : Request}
    {retries attempt : Nat} {x : Exchange}
    (h : x ∈ (series config request retries attempt ch).dropLast) :
    x.answer.isRetryable = true := by
  induction retries generalizing attempt ch with
  | zero =>
    rw [series_last (.inl rfl)] at h
    cases h
  | succ retries ih =>
    cases hretry : (ch.exchange request).1.isRetryable with
    | false =>
      rw [series_last (.inr hretry)] at h
      cases h
    | true =>
      rw [series_again hretry,
        List.dropLast_cons_of_ne_nil (List.ne_nil_of_length_pos (series_length_pos ..))] at h
      rcases List.mem_cons.mp h with rfl | hlater
      · exact hretry
      · exact ih hlater

theorem isRetryable_of_exchanges {earlier : List Exchange} {last x : Exchange}
    (h : c.exchanges base targets ch = earlier ++ [last]) (hx : x ∈ earlier) :
    x.answer.isRetryable = true := by
  cases sending c base targets ch with
  | keptBack _ _ hnone | unwritable _ _ _ _ _ hnone =>
    rw [hnone] at h
    cases earlier <;> cases h
  | asked _ request _ _ _ hexchanges =>
    have hearlier : (series c.config request c.config.maxRetries 0 ch).dropLast = earlier := by
      rw [← hexchanges, h, List.dropLast_concat]
    exact isRetryable_of_mem_series (hearlier ▸ hx)

/-- What the judgement of an answer does to the client that counts it. -/
theorem count_of_retryable {x : Exchange} (h : x.answer.isRetryable = true) :
    CountsFailure c (c.count x) := by
  cases judged x.answer with
  | retryable _ _ accepted noticed =>
    rw [count_of_noticed accepted noticed]
    exact countsFailure_failed c x.started x.ended
  | accepted _ _ _ _ hnot | final _ _ _ _ hnot | uncounted _ _ _ hnot =>
    cases hnot.symm.trans h

theorem count_of_result_fault {x : Exchange} {f : Service.Fault}
    (h : (verdict x.answer).result = .fault f) : CountsFailure c (c.count x) := by
  cases judged x.answer with
  | retryable _ _ accepted noticed | final _ _ accepted noticed =>
    rw [count_of_noticed accepted noticed]
    exact countsFailure_failed c x.started x.ended
  | accepted _ judgement =>
    rw [judgement] at h
    cases h
  | uncounted judgement =>
    rcases judgement with ⟨b, judgement⟩ | judgement <;>
      · rw [judgement] at h
        cases h

theorem count_of_result_done {x : Exchange} {members : List (String × Json)}
    (h : (verdict x.answer).result = .done members) : CountsSuccess c (c.count x) := by
  cases judged x.answer with
  | accepted _ _ accepted =>
    rw [count_of_accepted accepted]
    exact countsSuccess_succeeded c x.started x.ended
  | retryable _ judgement | final _ judgement =>
    rw [judgement] at h
    cases h
  | uncounted judgement =>
    rcases judgement with ⟨b, judgement⟩ | judgement <;>
      · rw [judgement] at h
        cases h

theorem count_of_not_isSettled {x : Exchange} (h : ¬ (verdict x.answer).result.IsSettled) :
    c.count x = c := by
  cases judged x.answer with
  | uncounted _ accepted noticed => exact count_of_neither accepted noticed
  | accepted members judgement =>
    rw [judgement] at h
    exact absurd (.inl ⟨members, rfl⟩) h
  | retryable f judgement | final f judgement =>
    rw [judgement] at h
    exact absurd (.inr ⟨f, rfl⟩) h

/-- Only the reading of an object can find no rates. -/
theorem result_ne_noRates (a : Answer) (report : Schema.Report) :
    (verdict a).result ≠ .fault (.noRates report) := by
  cases a with
  | status number body =>
    simp only [verdict]
    split_ifs
    · rintro ⟨⟩
    · rintro ⟨⟩
    · rintro ⟨⟩
    · unfold bodyVerdict
      split
      · rintro ⟨⟩
      · rintro ⟨⟩
      · split <;> rintro ⟨⟩
  | trouble trouble message => cases trouble <;> rintro ⟨⟩
  | silence => rintro ⟨⟩

/-- What the last attempt of a request counts as, by what the request brings. -/
structure LastCounts (before : Client) (result : Service.Result RateTable) (after : Client) :
    Prop where
  fault : ∀ f, result = .fault f → (∀ report, f ≠ .noRates report) → CountsFailure before after
  table : ∀ table, result = .done table → CountsSuccess before after
  /-- An object without a usable table is counted before it is read. -/
  noRates : ∀ report, result = .fault (.noRates report) → CountsSuccess before after
  unsettled : ¬ result.IsSettled → after = before

/-- The attempts of a request and what they count as. -/
structure Accounts (c : Client) (base : String) (targets : List String) (ch : Channel) : Prop where
  attempts : (c.rates base targets ch).2.2.sent.length =
    ch.sent.length + (c.exchanges base targets ch).length
  unsent : c.exchanges base targets ch = [] → (c.rates base targets ch).2.1 = c.letThrough ch.now
  repeated : ∀ earlier x later, c.exchanges base targets ch = earlier ++ x :: later → later ≠ [] →
    CountsFailure (earlier.foldl count (c.letThrough ch.now))
      ((earlier ++ [x]).foldl count (c.letThrough ch.now))
  last : ∀ earlier x, c.exchanges base targets ch = earlier ++ [x] →
    LastCounts (earlier.foldl count (c.letThrough ch.now)) (c.rates base targets ch).1
      (c.rates base targets ch).2.1

theorem foldl_count_append (c : Client) (xs : List Exchange) (x : Exchange) :
    (xs ++ [x]).foldl count c = (xs.foldl count c).count x := by
  rw [List.foldl_append]
  rfl

theorem sent_of_rates (c : Client) (base : String) (targets : List String) (ch : Channel) :
    (c.rates base targets ch).2.2.sent.length =
      ch.sent.length + (c.exchanges base targets ch).length := by
  rw [rates_snd]
  cases sending c base targets ch with
  | keptBack _ hsend hnone | unwritable _ _ _ _ hsend hnone =>
    rw [hsend, hnone]
    rfl
  | asked _ request _ _ hsend hexchanges =>
    rw [hsend, hexchanges, attempts_sent, List.length_append, List.length_replicate]

theorem lastCounts_of_last {x : Exchange} (hlast : (c.exchanges base targets ch).getLast? = some x) :
    LastCounts d (c.rates base targets ch).1 (d.count x) := by
  have hsend := send_of_last hlast
  cases rating c base targets ch with
  | brought members table sent _ eq =>
    have hcounts : CountsSuccess d (d.count x) := count_of_result_done (hsend.symm.trans sent)
    rw [eq]
    exact ⟨nofun, fun _ _ => hcounts, nofun, fun h => absurd (.inl ⟨table, rfl⟩) h⟩
  | noRates members report sent _ eq =>
    have hcounts : CountsSuccess d (d.count x) := count_of_result_done (hsend.symm.trans sent)
    rw [eq]
    refine ⟨fun f hf hnot => ?_, nofun, fun _ _ => hcounts, fun h => absurd (.inr ⟨_, rfl⟩) h⟩
    cases hf
    exact absurd rfl (hnot report)
  | fault f sent eq =>
    have hcounts : CountsFailure d (d.count x) := count_of_result_fault (hsend.symm.trans sent)
    rw [eq]
    refine ⟨fun _ _ _ => hcounts, nofun, fun report hreport => ?_,
      fun h => absurd (.inr ⟨f, rfl⟩) h⟩
    cases hreport
    exact absurd (hsend.symm.trans sent) (result_ne_noRates x.answer report)
  | breakdown b sent eq =>
    have hcounts : d.count x = d := count_of_not_isSettled (by
      rw [← hsend, sent]
      rintro (⟨_, ⟨⟩⟩ | ⟨_, ⟨⟩⟩))
    rw [eq]
    exact ⟨nofun, nofun, nofun, fun _ => hcounts⟩
  | pending sent eq =>
    have hcounts : d.count x = d := count_of_not_isSettled (by
      rw [← hsend, sent]
      rintro (⟨_, ⟨⟩⟩ | ⟨_, ⟨⟩⟩))
    rw [eq]
    exact ⟨nofun, nofun, nofun, fun _ => hcounts⟩

theorem accounts (c : Client) (base : String) (targets : List String) (ch : Channel) :
    Accounts c base targets ch where
  attempts := sent_of_rates c base targets ch
  unsent hnone := by
    rw [rates_client, hnone]
    rfl
  repeated earlier x later h hlater := by
    obtain ⟨between, last, rfl⟩ := List.eq_nil_or_concat later |>.resolve_left hlater
    rw [List.concat_eq_append, ← List.cons_append, ← List.append_assoc] at h
    have hretry : x.answer.isRetryable = true := isRetryable_of_exchanges h (by simp)
    rw [foldl_count_append]
    exact count_of_retryable hretry
  last earlier x h := by
    rw [rates_client, h, foldl_count_append]
    exact lastCounts_of_last (by rw [h, List.getLast?_concat])

/-! ## Runs of requests -/

/-- A request for rates, when it is made and which replies are to come then. -/
structure Call where
  now : Moment
  replies : List Channel.Reply
  base : String
  targets : List String

/-- What a call brings. -/
def call (w : Client × Channel) (q : Call) : Service.Result RateTable × Client × Channel :=
  w.1.rates q.base q.targets { w.2 with now := q.now, replies := q.replies }

/-- Makes one call after the other. -/
def runCalls (w : Client × Channel) (calls : List Call) : Client × Channel :=
  calls.foldl (fun w q => (call w q).2) w

/-- Every call brings such a result. -/
def Bring (P : Service.Result RateTable → Prop) (w : Client × Channel) : List Call → Prop
  | [] => True
  | q :: calls => P (call w q).1 ∧ Bring P (call w q).2 calls

/-- A fault other than an object without a usable table. -/
def IsCountedFault (result : Service.Result RateTable) : Prop :=
  ∃ f, result = .fault f ∧ ∀ report, f ≠ .noRates report

/-- An object without a usable table. -/
def IsNoRates (result : Service.Result RateTable) : Prop :=
  ∃ report, result = .fault (.noRates report)

variable {w : Client × Channel} {q : Call} {calls : List Call} {n : Nat}

@[simp]
theorem call_config (w : Client × Channel) (q : Call) : (call w q).2.1.config = w.1.config :=
  rates_config w.1 q.base q.targets _

/-! ## Faults in a row -/

/-- The breaker is not closed, or it has seen so many failures. -/
def HasSeen (n : Nat) (c : Client) : Prop :=
  c.breaker.state ≠ .closed ∨ n ≤ c.breaker.failures

/-- The breaker is open, or it has seen so many failures and may see more. -/
def HasCounted (n : Nat) (c : Client) : Prop :=
  c.breaker.state = .opened ∨ n ≤ c.breaker.failures ∧ c.breaker.failures < c.config.threshold

theorem HasCounted.hasSeen (h : HasCounted n c) : HasSeen n c := by
  rcases h with hopen | ⟨hmany, -⟩
  · exact .inl (by rw [hopen]; decide)
  · exact .inr hmany

theorem HasSeen.letThrough (h : HasSeen n c) (now : Moment) : HasSeen n (c.letThrough now) := by
  cases c.breaker.passing c.config.cooldown now with
  | passes _ eq | keptBack _ _ eq =>
    rw [Client.letThrough, eq]
    exact h
  | tries _ _ eq =>
    rw [Client.letThrough, eq]
    exact .inl (by simp [Breaker.halfOpen])

theorem HasSeen.failure (h : HasSeen n c) (hcounts : CountsFailure c d)
    (hconfig : d.config = c.config) : HasCounted (n + 1) d := by
  rcases hcounts.state with hopen | ⟨hsame, htrial, hfew⟩
  · exact .inl hopen
  · rcases h with hstate | hmany
    · -- it was open before, and it stays so
      left
      rw [hsame]
      cases hbreaker : c.breaker.state with
      | closed => exact absurd hbreaker hstate
      | opened => rfl
      | halfOpen => exact absurd hbreaker htrial
    · exact .inr ⟨by rw [hcounts.failures]; omega, by rw [hconfig]; exact hfew⟩

theorem HasSeen.foldl_count {xs : List Exchange} (h : HasSeen n c)
    (hretry : ∀ x ∈ xs, x.answer.isRetryable = true) : HasSeen n (xs.foldl count c) := by
  induction xs generalizing c with
  | nil => exact h
  | cons x xs ih =>
    have hcounts : CountsFailure c (c.count x) := count_of_retryable (hretry x (by simp))
    have hnext := (h.failure hcounts (count_config c x)).hasSeen
    apply ih
    · exact hnext.imp_right (Nat.le_of_succ_le ·)
    · exact fun y hy => hretry y (by simp [hy])

theorem letThrough_config (c : Client) (now : Moment) : (c.letThrough now).config = c.config := by
  unfold letThrough
  split <;> rfl

/-- A request that is not sent and ends in a fault was kept back. -/
theorem opened_of_unsent {f : Service.Fault} (hnone : c.exchanges base targets ch = [])
    (hf : (c.rates base targets ch).1 = .fault f) :
    (c.rates base targets ch).2.1.breaker.state = .opened := by
  cases sending c base targets ch with
  | keptBack hpass hsend =>
    rw [rates_snd, hsend]
    cases c.breaker.passing c.config.cooldown ch.now with
    | passes _ eq | tries _ _ eq => cases eq.symm.trans hpass
    | keptBack opened => exact opened
  | unwritable _ flaw _ _ hsend =>
    have hbreaks : (c.rates base targets ch).1 = .breakdown flaw :=
      rates_eq_breakdown.mpr (by rw [hsend])
    cases hbreaks.symm.trans hf
  | asked _ request _ _ _ hexchanges =>
    have hpos := series_length_pos c.config request c.config.maxRetries 0 ch
    rw [← hexchanges, hnone] at hpos
    cases hpos

/-- A request that ends in a fault is one more failure. -/
theorem HasSeen.rates (h : HasSeen n c) (hfault : IsCountedFault (c.rates base targets ch).1) :
    HasCounted (n + 1) (c.rates base targets ch).2.1 := by
  obtain ⟨f, hf, hnot⟩ := hfault
  have haccounts := accounts c base targets ch
  -- kept back by an open breaker, or sent and counted on the last attempt
  rcases List.eq_nil_or_concat (c.exchanges base targets ch) with hnone | ⟨earlier, x, hsome⟩
  · exact .inl (opened_of_unsent hnone hf)
  · rw [List.concat_eq_append] at hsome
    have hbefore := (h.letThrough ch.now).foldl_count fun x => isRetryable_of_exchanges hsome
    refine hbefore.failure ((haccounts.last earlier x hsome).fault f hf hnot) ?_
    rw [rates_config, foldl_count_config, letThrough_config]

theorem HasSeen.runCalls (h : HasSeen n w.1) (hne : calls ≠ [])
    (hfaults : Bring IsCountedFault w calls) :
    HasCounted (n + calls.length) (runCalls w calls).1 := by
  induction calls generalizing w n with
  | nil => exact absurd rfl hne
  | cons q calls ih =>
    -- having counted is more than the next call needs, but it is what the last call leaves
    have hfirst : HasCounted (n + 1) (call w q).2.1 := h.rates hfaults.1
    cases calls with
    | nil => exact hfirst
    | cons next calls =>
      have hrest := ih hfirst.hasSeen (List.cons_ne_nil _ _) hfaults.2
      rw [Nat.add_assoc, Nat.add_comm 1] at hrest
      exact hrest

theorem runCalls_config (w : Client × Channel) (calls : List Call) :
    (runCalls w calls).1.config = w.1.config := by
  induction calls generalizing w with
  | nil => rfl
  | cons q calls ih => exact (ih (call w q).2).trans (call_config w q)

/-- Faults in a row open the breaker when there are as many as its threshold. -/
theorem opened_of_faults (hthreshold : 1 ≤ w.1.config.threshold)
    (hmany : w.1.config.threshold ≤ calls.length) (hfaults : Bring IsCountedFault w calls) :
    (runCalls w calls).1.breaker.state = .opened := by
  have hne : calls ≠ [] := List.ne_nil_of_length_pos (by omega)
  have hstart : HasSeen 0 w.1 := .inr (Nat.zero_le _)
  rcases hstart.runCalls hne hfaults with hopen | ⟨hfailures, hfew⟩
  · exact hopen
  · rw [runCalls_config] at hfew
    omega

/-! ## Objects without a usable table -/

/-- An answer is accepted as an object, but has no usable table. -/
def LacksTable (a : Answer) : Prop :=
  ∃ members report, verdict a = .accepted members ∧
    RateAnswer.ofJson (.object members) = .error report

/-- A request can be written, and what comes back for it has no usable table. -/
def MeetsNoTable (config : Service.Config) (q : Call) : Prop :=
  ∃ request, Client.request config q.base q.targets = .ok request ∧
    LacksTable ((Channel.nextReply q.replies).1.answer.to request)

theorem pass?_of_closed {now : Moment} (hclosed : c.breaker.state = .closed) :
    c.breaker.pass? c.config.cooldown now = some c.breaker := by
  cases c.breaker.passing c.config.cooldown now with
  | passes _ eq => exact eq
  | tries opened | keptBack opened => cases hclosed.symm.trans opened

theorem letThrough_of_closed {now : Moment} (hclosed : c.breaker.state = .closed) :
    c.letThrough now = c := by
  rw [letThrough, pass?_of_closed hclosed]

theorem LacksTable.isRetryable {a : Answer} (h : LacksTable a) : a.isRetryable = false := by
  obtain ⟨members, -, hverdict, -⟩ := h
  cases judged a with
  | accepted _ _ _ _ hretry | final _ _ _ _ hretry | uncounted _ _ _ hretry => exact hretry
  | retryable fault judgement => cases judgement.symm.trans hverdict

/-- A last answer without a usable table. -/
theorem isNoRates_of_last {x : Exchange} (hlast : (c.exchanges base targets ch).getLast? = some x)
    (hlacks : LacksTable x.answer) : IsNoRates (c.rates base targets ch).1 := by
  obtain ⟨members, report, hverdict, hread⟩ := hlacks
  have hsend : (c.send base targets ch).1 = .done members := by
    rw [send_of_last hlast, hverdict]
    rfl
  cases rating c base targets ch with
  | brought members' table sent read =>
    cases hsend.symm.trans sent
    cases hread.symm.trans read
  | noRates _ report _ _ eq => exact ⟨report, eq⟩
  | fault _ sent | breakdown _ sent | pending sent => cases hsend.symm.trans sent

theorem call_of_meetsNoTable (hclosed : w.1.breaker.state = .closed)
    (hmeets : MeetsNoTable w.1.config q) :
    IsNoRates (call w q).1 ∧ CountsSuccess w.1 (call w q).2.1 := by
  obtain ⟨request, hrequest, hlacks⟩ := hmeets
  let ch : Channel := { w.2 with now := q.now, replies := q.replies }
  -- an accepted answer is not retried, so there is one exchange
  have hexchanges : w.1.exchanges q.base q.targets ch = [exchangeOn request ch] := by
    simp only [exchanges, pass?_of_closed hclosed, hrequest]
    exact series_last (.inr hlacks.isRetryable)
  have hbrings : IsNoRates (w.1.rates q.base q.targets ch).1 :=
    isNoRates_of_last (by rw [hexchanges]; rfl) hlacks
  obtain ⟨report, hreport⟩ := hbrings
  have hcounts := ((accounts w.1 q.base q.targets ch).last [] _ hexchanges).noRates report hreport
  rw [List.foldl_nil, letThrough_of_closed hclosed] at hcounts
  exact ⟨⟨report, hreport⟩, hcounts⟩

/-- Objects without a usable table leave the breaker closed, however many there are. -/
theorem run_of_unusable (hclosed : w.1.breaker.state = .closed)
    (hmeets : ∀ q ∈ calls, MeetsNoTable w.1.config q) :
    Bring IsNoRates w calls ∧ (runCalls w calls).1.breaker.state = .closed ∧
      (runCalls w calls).1.metrics.succeeded = w.1.metrics.succeeded + calls.length ∧
      (runCalls w calls).1.metrics.failed = w.1.metrics.failed := by
  induction calls generalizing w with
  | nil => exact ⟨trivial, hclosed, rfl, rfl⟩
  | cons q calls ih =>
    obtain ⟨hfirst, hcounts⟩ := call_of_meetsNoTable hclosed (hmeets q (by simp))
    have hlater : ∀ next ∈ calls, MeetsNoTable (call w q).2.1.config next := by
      intro next hnext
      rw [call_config]
      exact hmeets next (by simp [hnext])
    obtain ⟨hrest, hstate, hsucceeded, hfailed⟩ := ih hcounts.closed hlater
    refine ⟨⟨hfirst, hrest⟩, hstate, ?_, hfailed.trans hcounts.failed⟩
    refine hsucceeded.trans ?_
    rw [hcounts.succeeded, List.length_cons]
    omega

/-- **Accounting**: a request that ends in a fault is counted as a failure on its last attempt, one
    that brings a table as a success, and so is one that ends with an object without a usable table.
    Faults of the first sort in a row open the breaker, those of the second never do. -/
theorem accounting (w : Client × Channel) :
    (∀ base targets, Accounts w.1 base targets w.2) ∧
      (1 ≤ w.1.config.threshold → ∀ calls, w.1.config.threshold ≤ calls.length →
        Bring IsCountedFault w calls → (runCalls w calls).1.breaker.state = .opened) ∧
      (w.1.breaker.state = .closed → ∀ calls, (∀ q ∈ calls, MeetsNoTable w.1.config q) →
        Bring IsNoRates w calls ∧ (runCalls w calls).1.breaker.state = .closed ∧
          (runCalls w calls).1.metrics.succeeded = w.1.metrics.succeeded + calls.length ∧
          (runCalls w calls).1.metrics.failed = w.1.metrics.failed) := by
  refine ⟨fun base targets => accounts w.1 base targets w.2, ?_, ?_⟩
  · intro hthreshold calls hmany hfaults
    exact opened_of_faults hthreshold hmany hfaults
  · intro hclosed calls hmeets
    exact run_of_unusable hclosed hmeets

/-- A client that opens its breaker after two failures and does not retry. -/
def openingAtTwo : Client :=
  .ofConfig { Settings.Service.default.client with threshold := 2, maxRetries := 0 }

/-- A request for the rate of the euro that is answered by one reply. -/
def callAnswered (number : Nat) (body : List UInt8) : Call :=
  ⟨.earliest, [⟨.zero, .status number body⟩], "USD", ["EUR"]⟩

/-- Two failures of the service open the breaker, two empty objects do not. -/
theorem accounting_twice :
    let w : Client × Channel := (openingAtTwo, ⟨.earliest, [], [], []⟩)
    (runCalls w [callAnswered 503 [], callAnswered 404 []]).1.breaker.state = .opened ∧
      (runCalls w [callAnswered 200 [0x7b, 0x7d], callAnswered 200 [0x7b, 0x7d]]).1.breaker.state =
        .closed := by
  intro w
  have hfaults : Bring IsCountedFault w [callAnswered 503 [], callAnswered 404 []] := by
    refine ⟨⟨.failed 503 "", by decide +kernel, nofun⟩, ⟨.refused 404 "", by decide +kernel, nofun⟩,
      trivial⟩
  have hmeets : ∀ q ∈ [callAnswered 200 [0x7b, 0x7d], callAnswered 200 [0x7b, 0x7d]],
      MeetsNoTable w.1.config q := by
    let request : Request :=
      ⟨⟨"https".toList, [], "api.freecurrencyapi.com".toList, none, "/v1/latest".toList, none⟩,
        "USD", "EUR", ""⟩
    have hrequest : Client.request openingAtTwo.config "USD" ["EUR"] = .ok request := by
      decide +kernel
    have hverdict : verdict (.status 200 [0x7b, 0x7d]) = .accepted [] := by rfl
    have hmeets : MeetsNoTable w.1.config (callAnswered 200 [0x7b, 0x7d]) :=
      ⟨request, hrequest, [], _, hverdict, rfl⟩
    simpa using hmeets
  exact ⟨(accounting w).2.1 (by decide) _ (by decide) hfaults,
    ((accounting w).2.2 rfl _ hmeets).2.1⟩

/-- An empty object ends the request in a fault, but counts as a success: a breaker that opens at
    the first failure stays closed. -/
theorem not_countsFailure_of_emptyObject :
    let config := { Settings.Service.default.client with threshold := 1, maxRetries := 0 }
    let result := call (.ofConfig config, ⟨.earliest, [], [], []⟩) (callAnswered 200 [0x7b, 0x7d])
    result.1 = .fault (.noRates ⟨"CurrencyApiResponse", [⟨["data"], .missing⟩]⟩) ∧
      result.2.1.breaker.state = .closed ∧ result.2.1.breaker.failures = 0 ∧
      result.2.1.metrics.succeeded = 1 ∧ result.2.1.metrics.failed = 0 := by
  decide +kernel

end Cambio.Client
