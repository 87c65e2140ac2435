import Cambio.Service.Client
import Mathlib.Data.List.Basic

/-!
# The exchanges of a request

A request is sent until its answer is final or no retries are left. Its exchanges form a series,
and all that asking does follows from that series: the client counts one exchange after the other,
the result is that of the last answer, and the channel has sent the request once for each.

## Main definitions

- `Channel.Exchange` — an answer and the times around it
- `Channel.Answer.isRetryable`, `Channel.Answer.isFailed`, `Channel.Answer.isUnread`,
  `Channel.Answer.isAccepted` — what an answer amounts to
- `Breaker.Passing` — the ways of a breaker that is asked to let a request through
- `Client.series` — the exchanges of a request
- `Client.count` — counts an exchange

## Main statements

- `Client.attempts_result`, `Client.attempts_client`, `Client.attempts_channel` — what asking does,
  read off the series
- `Client.series_answers` — the answers of the series among the answers to come
-/

namespace Cambio

/-- An answer, when its request was sent and when it came. -/
structure Channel.Exchange where
  answer : Channel.Answer
  started : Moment
  ended : Moment

namespace Channel.Answer

/-- A later attempt may fare better: the service failed, did not answer in time or was not
    reached. -/
def isRetryable : Answer → Bool
  | .status number _ => 500 ≤ number && number < 600
  | .trouble .timeout _ | .trouble .transport _ => true
  | _ => false

/-- A status that reports a failure. -/
def isFailureStatus (number : Nat) : Bool :=
  400 ≤ number && number < 600

/-- A body is an object. -/
def holdsObject (body : List UInt8) : Bool :=
  match Json.readBytes .exact body with
  | .ok (.object _) => true
  | _ => false

/-- An attempt with this answer failed: by its status, by a trouble of the exchange or by a body
    that is no object. -/
def isFailed : Answer → Bool
  | .status number body => isFailureStatus number || !holdsObject body
  | .trouble .timeout _ | .trouble .transport _ | .trouble .protocol _ => true
  | _ => false

/-- The reading of a body went beyond what can be read, so that not even its flaw is known. -/
def isOverlong (body : List UInt8) : Bool :=
  match Json.readBytes .exact body with
  | .error e => !e.isMalformed
  | .ok _ => false

/-- The body of this answer counts, but its reading was given up. -/
def isUnread : Answer → Bool
  | .status number body => !isFailureStatus number && isOverlong body
  | _ => false

/-- An attempt with this answer succeeded. -/
def isAccepted : Answer → Bool
  | .status number body => !isFailureStatus number && holdsObject body
  | _ => false

/-- A failure that the client notices. -/
def isNoticed (a : Answer) : Bool :=
  a.isFailed && !a.isUnread

end Channel.Answer

namespace Breaker

/-- The ways of a breaker that is asked to let a request through. -/
inductive Passing (b : Breaker) (cooldown : Nat) (now : Moment) : Prop
  | passes (ready : b.state ≠ .opened) (eq : b.pass? cooldown now = some b)
  | tries (opened : b.state = .opened) (cooled : b.hasCooled cooldown now = true)
      (eq : b.pass? cooldown now = some b.halfOpen)
  | keptBack (opened : b.state = .opened) (hot : b.hasCooled cooldown now = false)
      (eq : b.pass? cooldown now = none)

theorem passing (b : Breaker) (cooldown : Nat) (now : Moment) : Passing b cooldown now := by
  by_cases hopened : b.state = .opened
  · have hpass : b.pass? cooldown now =
        if b.hasCooled cooldown now then some b.halfOpen else none :=
      if_neg (not_not.mpr hopened)
    cases hcooled : b.hasCooled cooldown now with
    | true => exact .tries hopened hcooled (by rw [hpass, if_pos hcooled])
    | false => exact .keptBack hopened hcooled (by rw [hpass, hcooled, if_neg Bool.false_ne_true])
  · exact .passes hopened (if_pos hopened)

end Breaker

namespace Client

open Channel (Answer Exchange Request)

/-- What a request brings when its last answer is judged so. -/
def Verdict.result : Verdict → Service.Result (List (String × Json))
  | .accepted members => .done members
  | .retryable fault | .final fault => .fault fault
  | .breakdown b => .breakdown b
  | .pending => .pending

/-- Counts an exchange as its answer deserves. -/
def count (c : Client) (x : Exchange) : Client :=
  if x.answer.isAccepted then c.succeeded x.started x.ended
  else if x.answer.isNoticed then c.failed x.started x.ended
  else c

/-- The exchange of a request on a channel. -/
def exchangeOn (request : Request) (ch : Channel) : Exchange :=
  ⟨(ch.exchange request).1, ch.now, (ch.exchange request).2.now⟩

/-- The answers that a request and its repetitions would meet, as the replies to come have it. -/
def answersTo (request : Request) : Nat → List Channel.Reply → List Answer
  | 0, _ => []
  | n + 1, replies =>
    (Channel.nextReply replies).1.answer.to request ::
      answersTo request n (Channel.nextReply replies).2

/-- The exchanges of a request until its answer is final or no retries are left. -/
def series (config : Service.Config) (request : Request) : Nat → Nat → Channel → List Exchange
  | 0, _, ch => [exchangeOn request ch]
  | retries + 1, attempt, ch =>
    if (ch.exchange request).1.isRetryable then
      exchangeOn request ch :: series config request retries (attempt + 1)
        ((ch.exchange request).2.pause (retryDelay config attempt))
    else [exchangeOn request ch]

/-! ## Judging answers -/

/-- The four ways in which an answer can be judged, each with what the answer then amounts to. -/
inductive Judged (a : Answer) : Prop where
  | accepted (members : List (String × Json)) (judgement : verdict a = .accepted members)
      (accepted : a.isAccepted = true) (noticed : a.isNoticed = false)
      (retryable : a.isRetryable = false)
  | retryable (fault : Service.Fault) (judgement : verdict a = .retryable fault)
      (accepted : a.isAccepted = false) (noticed : a.isNoticed = true)
      (retryable : a.isRetryable = true)
  | final (fault : Service.Fault) (judgement : verdict a = .final fault)
      (accepted : a.isAccepted = false) (noticed : a.isNoticed = true)
      (retryable : a.isRetryable = false)
  | uncounted (judgement : (∃ b, verdict a = .breakdown b) ∨ verdict a = .pending)
      (accepted : a.isAccepted = false) (noticed : a.isNoticed = false)
      (retryable : a.isRetryable = false)

/-- A body that comes with no status of failure is judged by its reading alone. -/
theorem verdict_of_status {number : Nat} (body : List UInt8)
    (hstatus : Answer.isFailureStatus number = false) :
    verdict (.status number body) = bodyVerdict body := by
  have hrange : ¬ (400 ≤ number ∧ number < 600) := by
    simpa [Answer.isFailureStatus] using hstatus
  simp only [verdict]
  rw [if_neg (by omega), if_neg (by omega), if_neg (by omega)]

theorem judged_of_body {number : Nat} {body : List UInt8}
    (hstatus : Answer.isFailureStatus number = false) : Judged (.status number body) := by
  have hrange : ¬ (400 ≤ number ∧ number < 600) := by
    simpa [Answer.isFailureStatus] using hstatus
  have hbody := verdict_of_status body hstatus
  have hretry : (Answer.status number body).isRetryable = false := by
    simp only [Answer.isRetryable, Bool.and_eq_false_iff, decide_eq_false_iff_not]
    omega
  cases hread : Json.readBytes .exact body with
  | error e =>
    have haccepted : (Answer.status number body).isAccepted = false := by
      simp [Answer.isAccepted, Answer.holdsObject, hread]
    cases hform : e.isMalformed with
    | true =>
      refine .final (.unreadable e (excerpt body)) (by simp [hbody, bodyVerdict, hread, hform])
        haccepted ?_ hretry
      simp [Answer.isNoticed, Answer.isFailed, Answer.isUnread, Answer.holdsObject,
        Answer.isOverlong, hread, hform]
    | false =>
      refine .uncounted (.inl ⟨.document e, by simp [hbody, bodyVerdict, hread, hform]⟩)
        haccepted ?_ hretry
      simp [Answer.isNoticed, Answer.isUnread, Answer.isOverlong, hstatus, hread, hform]
  | ok v =>
    cases v
    case object members =>
      refine .accepted members (by simp [hbody, bodyVerdict, hread]) ?_ ?_ hretry
      · simp [Answer.isAccepted, Answer.holdsObject, hstatus, hread]
      · simp [Answer.isNoticed, Answer.isFailed, Answer.holdsObject, hstatus, hread]
    all_goals
      refine .final .noObject (by simp [hbody, bodyVerdict, hread]) ?_ ?_ hretry
      · simp [Answer.isAccepted, Answer.holdsObject, hread]
      · simp [Answer.isNoticed, Answer.isFailed, Answer.isUnread, Answer.holdsObject,
          Answer.isOverlong, hread]

/-- A status of failure is judged without a look at the body. -/
theorem judged_of_status {number : Nat} {body : List UInt8}
    (hstatus : Answer.isFailureStatus number = true) : Judged (.status number body) := by
  have hrange : 400 ≤ number ∧ number < 600 := by
    simpa [Answer.isFailureStatus] using hstatus
  have haccepted : (Answer.status number body).isAccepted = false := by
    simp [Answer.isAccepted, hstatus]
  have hnoticed : (Answer.status number body).isNoticed = true := by
    simp [Answer.isNoticed, Answer.isFailed, Answer.isUnread, hstatus]
  by_cases hmany : number = 429
  · refine .final .asksTooOften (by simp [verdict, hmany]) haccepted hnoticed ?_
    simp [Answer.isRetryable, hmany]
  · by_cases hserver : 500 ≤ number
    · refine .retryable (.failed number (excerpt body)) ?_ haccepted hnoticed ?_
      · simp only [verdict]
        rw [if_neg hmany, if_neg (by omega), if_pos (by omega)]
      · simp only [Answer.isRetryable, Bool.and_eq_true, decide_eq_true_eq]
        omega
    · refine .final (.refused number (excerpt body)) ?_ haccepted hnoticed ?_
      · simp only [verdict]
        rw [if_neg hmany, if_pos (by omega)]
      · simp only [Answer.isRetryable, Bool.and_eq_false_iff, decide_eq_false_iff_not]
        omega

theorem judged (a : Answer) : Judged a := by
  cases a with
  | status number body =>
    cases hstatus : Answer.isFailureStatus number with
    | true => exact judged_of_status hstatus
    | false => exact judged_of_body hstatus
  | trouble trouble message =>
    cases trouble with
    | timeout => exact .retryable (.timedOut message) rfl rfl rfl rfl
    | transport => exact .retryable (.unreachable message) rfl rfl rfl rfl
    | protocol => exact .final (.protocol message) rfl rfl rfl rfl
    | address => exact .uncounted (.inl ⟨.address message, rfl⟩) rfl rfl rfl
    | schemeless => exact .uncounted (.inl ⟨.schemeless message, rfl⟩) rfl rfl rfl
  | silence => exact .uncounted (.inr rfl) rfl rfl rfl

/-! ## One exchange -/

@[simp]
theorem count_config (c : Client) (x : Exchange) : (c.count x).config = c.config := by
  unfold count
  split
  · rfl
  · split <;> rfl

@[simp]
theorem foldl_count_config (c : Client) (xs : List Exchange) :
    (xs.foldl count c).config = c.config := by
  induction xs generalizing c with
  | nil => rfl
  | cons x xs ih => rw [List.foldl_cons, ih, count_config]

section

variable {request : Request} {retries attempt : Nat} {c : Client} {ch : Channel}

theorem count_of_accepted {x : Exchange} (h : x.answer.isAccepted = true) :
    c.count x = c.succeeded x.started x.ended := by
  rw [count, if_pos h]

theorem count_of_noticed {x : Exchange} (haccepted : x.answer.isAccepted = false)
    (h : x.answer.isNoticed = true) : c.count x = c.failed x.started x.ended := by
  rw [count, if_neg (by simp [haccepted]), if_pos h]

theorem count_of_neither {x : Exchange} (haccepted : x.answer.isAccepted = false)
    (h : x.answer.isNoticed = false) : c.count x = c := by
  rw [count, if_neg (by simp [haccepted]), if_neg (by simp [h])]

/-- After an answer that may fare better, the request is sent again while retries are left. -/
theorem attempts_again (hretry : (ch.exchange request).1.isRetryable = true) :
    attempts request (retries + 1) attempt c ch =
      attempts request retries (attempt + 1) (c.count (exchangeOn request ch))
        ((ch.exchange request).2.pause (retryDelay c.config attempt)) := by
  have hnot (h : (ch.exchange request).1.isRetryable = false) : False :=
    Bool.false_ne_true (h.symm.trans hretry)
  cases judged (ch.exchange request).1 with
  | retryable fault judgement accepted noticed =>
    rw [count_of_noticed (x := exchangeOn request ch) accepted noticed, attempts]
    simp only [judgement]
    rfl
  | accepted _ _ _ _ h => exact (hnot h).elim
  | final _ _ _ _ h => exact (hnot h).elim
  | uncounted _ _ _ h => exact (hnot h).elim

/-- Any other answer ends the request, and so does the last attempt. -/
theorem attempts_last (hlast : retries = 0 ∨ (ch.exchange request).1.isRetryable = false) :
    attempts request retries attempt c ch =
      ((verdict (ch.exchange request).1).result, c.count (exchangeOn request ch),
        (ch.exchange request).2) := by
  cases judged (ch.exchange request).1 with
  | accepted members judgement accepted =>
    rw [count_of_accepted (x := exchangeOn request ch) accepted, judgement]
    unfold attempts
    simp only [judgement]
    rfl
  | retryable fault judgement accepted noticed hretry =>
    have hzero : retries = 0 := by simpa [hretry] using hlast
    subst hzero
    rw [count_of_noticed (x := exchangeOn request ch) accepted noticed, judgement]
    unfold attempts
    simp only [judgement]
    rfl
  | final fault judgement accepted noticed =>
    rw [count_of_noticed (x := exchangeOn request ch) accepted noticed, judgement]
    unfold attempts
    simp only [judgement]
    rfl
  | uncounted judgement accepted noticed =>
    rw [count_of_neither (x := exchangeOn request ch) accepted noticed]
    unfold attempts
    rcases judgement with ⟨b, judgement⟩ | judgement
    · simp only [judgement]
      rfl
    · simp only [judgement]
      rfl

/-! ## The whole series -/

/-- The channel after an exchange and the pause before the next one. -/
def round (config : Service.Config) (request : Request) (ch : Channel) (attempt : Nat) : Channel :=
  (ch.exchange request).2.pause (retryDelay config attempt)

theorem series_again {config : Service.Config}
    (hretry : (ch.exchange request).1.isRetryable = true) :
    series config request (retries + 1) attempt ch =
      exchangeOn request ch ::
        series config request retries (attempt + 1) (round config request ch attempt) := by
  rw [series, if_pos hretry, round]

theorem series_last {config : Service.Config}
    (hlast : retries = 0 ∨ (ch.exchange request).1.isRetryable = false) :
    series config request retries attempt ch = [exchangeOn request ch] := by
  cases retries with
  | zero => rfl
  | succ retries =>
    have hnot : (ch.exchange request).1.isRetryable = false := hlast.resolve_left (by simp)
    rw [series, if_neg (by rw [hnot]; exact Bool.false_ne_true)]

end

section

variable (config : Service.Config) (request : Request) (retries attempt : Nat) (c : Client)
  (ch : Channel)

theorem series_length_pos : 0 < (series config request retries attempt ch).length := by
  cases retries with
  | zero => rw [series_last (.inl rfl)]; exact Nat.one_pos
  | succ retries =>
    cases hretry : (ch.exchange request).1.isRetryable with
    | true => rw [series_again hretry]; exact Nat.succ_pos _
    | false => rw [series_last (.inr hretry)]; exact Nat.one_pos

/-- The client after asking has counted every exchange, one after the other. -/
theorem attempts_client :
    (attempts request retries attempt c ch).2.1 =
      (series c.config request retries attempt ch).foldl count c := by
  induction retries generalizing attempt c ch with
  | zero => rw [attempts_last (.inl rfl), series_last (.inl rfl)]; rfl
  | succ retries ih =>
    cases hretry : (ch.exchange request).1.isRetryable with
    | true =>
      rw [attempts_again hretry, series_again hretry, List.foldl_cons, ih, count_config]
      rfl
    | false => rw [attempts_last (.inr hretry), series_last (.inr hretry)]; rfl

/-- Asking brings what the last answer of the series brings. -/
theorem attempts_result :
    ∃ last, (series c.config request retries attempt ch).getLast? = some last ∧
      (attempts request retries attempt c ch).1 = (verdict last.answer).result := by
  induction retries generalizing attempt c ch with
  | zero =>
    refine ⟨exchangeOn request ch, by rw [series_last (.inl rfl)]; rfl, ?_⟩
    rw [attempts_last (.inl rfl)]
    rfl
  | succ retries ih =>
    cases hretry : (ch.exchange request).1.isRetryable with
    | true =>
      obtain ⟨last, hlast, hresult⟩ := ih (attempt + 1) (c.count (exchangeOn request ch))
        (round c.config request ch attempt)
      rw [count_config] at hlast
      refine ⟨last, ?_, by rw [attempts_again hretry]; exact hresult⟩
      rw [series_again hretry, List.getLast?_cons, hlast]
      rfl
    | false =>
      refine ⟨exchangeOn request ch, by rw [series_last (.inr hretry)]; rfl, ?_⟩
      rw [attempts_last (.inr hretry)]
      rfl

/-- The channel after asking has gone through one round for every exchange but the last, which no
    pause follows. -/
theorem attempts_channel :
    (attempts request retries attempt c ch).2.2 =
      ((List.range' attempt ((series c.config request retries attempt ch).length - 1)).foldl
        (round c.config request) ch |>.exchange request).2 := by
  induction retries generalizing attempt c ch with
  | zero => rw [attempts_last (.inl rfl), series_last (.inl rfl)]; rfl
  | succ retries ih =>
    cases hretry : (ch.exchange request).1.isRetryable with
    | true =>
      rw [attempts_again hretry, series_again hretry, ih, count_config, List.length_cons,
        Nat.add_sub_cancel, ← round]
      have hpos := series_length_pos c.config request retries (attempt + 1)
        (round c.config request ch attempt)
      obtain ⟨n, hn⟩ := Nat.exists_eq_add_of_lt hpos
      rw [Nat.zero_add] at hn
      rw [hn, Nat.add_sub_cancel, List.range'_succ, List.foldl_cons]
    | false => rw [attempts_last (.inr hretry), series_last (.inr hretry)]; rfl

/-! ## What rounds leave on the channel -/

theorem foldl_round_sent (attempts : List Nat) :
    (attempts.foldl (round config request) ch).sent =
      ch.sent ++ List.replicate attempts.length request := by
  induction attempts generalizing ch with
  | nil => simp
  | cons attempt attempts ih =>
    rw [List.foldl_cons, ih, List.length_cons, List.replicate_succ, List.append_cons]
    rfl

theorem foldl_round_pauses (attempts : List Nat) :
    (attempts.foldl (round config request) ch).pauses =
      ch.pauses ++ attempts.map (retryDelay config) := by
  induction attempts generalizing ch with
  | nil => simp
  | cons attempt attempts ih =>
    rw [List.foldl_cons, ih, List.map_cons, List.append_cons]
    rfl

/-- A request is sent once for every exchange of its series. -/
theorem attempts_sent :
    (attempts request retries attempt c ch).2.2.sent =
      ch.sent ++ List.replicate (series c.config request retries attempt ch).length request := by
  have hpos := series_length_pos c.config request retries attempt ch
  rw [attempts_channel]
  change Channel.sent _ ++ [request] = _
  rw [foldl_round_sent, List.length_range', List.append_assoc, ← List.replicate_succ',
    Nat.sub_add_cancel hpos]

/-! ## The answers of a series -/

theorem answersTo_length (n : Nat) (replies : List Channel.Reply) :
    (answersTo request n replies).length = n := by
  induction n generalizing replies with
  | zero => rfl
  | succ n ih => rw [answersTo, List.length_cons, ih]

/-- The answers of a series are the answers to come, up to the first that is not to be retried and
    as far as the retries go. -/
theorem series_answers :
    (series config request retries attempt ch).map Exchange.answer =
      (answersTo request (retries + 1) ch.replies).take
        (min ((answersTo request (retries + 1) ch.replies).findIdx (fun a => !a.isRetryable) + 1)
          (retries + 1)) := by
  induction retries generalizing attempt ch with
  | zero => simp [series, exchangeOn, answersTo, Channel.exchange]
  | succ retries ih =>
    have hfirst : (Channel.nextReply ch.replies).1.answer.to request =
        (ch.exchange request).1 := rfl
    -- pausing takes no reply, so the rest of the series meets the rest of the replies
    have hrest : (Channel.nextReply ch.replies).2 = (round config request ch attempt).replies := rfl
    rw [answersTo, hfirst, List.findIdx_cons]
    cases hretry : (ch.exchange request).1.isRetryable with
    | true =>
      rw [series_again hretry, List.map_cons, ih, hrest]
      simp only [Bool.not_true, cond_false]
      rw [Nat.add_min_add_right (_ + 1) (retries + 1) 1, List.take_succ_cons]
      rfl
    | false =>
      rw [series_last (.inr hretry)]
      simp [exchangeOn]

/-- A series has as many exchanges as answers are taken. -/
theorem series_length :
    (series config request retries attempt ch).length =
      min ((answersTo request (retries + 1) ch.replies).findIdx (fun a => !a.isRetryable) + 1)
        (retries + 1) := by
  have h := congrArg List.length (series_answers config request retries attempt ch)
  rw [List.length_map, List.length_take, answersTo_length] at h
  omega

/-- The last exchange of a series has the last answer that is taken. -/
theorem answersTo_getElem?_of_last {last : Exchange}
    (hlast : (series config request retries attempt ch).getLast? = some last) :
    (answersTo request (retries + 1) ch.replies)[
      (series config request retries attempt ch).length - 1]? = some last.answer := by
  have hpos := series_length_pos config request retries attempt ch
  have hanswers := series_answers config request retries attempt ch
  rw [← series_length config request retries attempt] at hanswers
  rw [← List.getElem?_take_of_lt (Nat.sub_one_lt_of_lt hpos), ← hanswers, List.getElem?_map,
    ← List.getLast?_eq_getElem?, hlast]
  rfl

end

/-! ## Requests for rates -/

/-- The exchanges of a request for rates. There are none if the breaker keeps it back or if it
    cannot be written. -/
def exchanges (c : Client) (base : String) (targets : List String) (ch : Channel) :
    List Exchange :=
  match c.breaker.pass? c.config.cooldown ch.now, Client.request c.config base targets with
  | some _, .ok request => series c.config request c.config.maxRetries 0 ch
  | _, _ => []

/-- The three ways of a request for rates. -/
inductive Sending (c : Client) (base : String) (targets : List String) (ch : Channel) : Prop where
  /-- The breaker keeps it back. -/
  | keptBack (hpass : c.breaker.pass? c.config.cooldown ch.now = none)
      (hsend : c.send base targets ch = (.fault (.keptBack c.breaker.lastFailure), c, ch))
      (hnone : c.exchanges base targets ch = [])
  /-- It cannot be written. -/
  | unwritable (b : Breaker) (flaw : Breakdown)
      (hpass : c.breaker.pass? c.config.cooldown ch.now = some b)
      (hrequest : Client.request c.config base targets = .error flaw)
      (hsend : c.send base targets ch = (.breakdown flaw, { c with breaker := b }, ch))
      (hnone : c.exchanges base targets ch = [])
  | asked (b : Breaker) (request : Request)
      (hpass : c.breaker.pass? c.config.cooldown ch.now = some b)
      (hrequest : Client.request c.config base targets = .ok request)
      (hsend : c.send base targets ch =
        attempts request c.config.maxRetries 0 { c with breaker := b } ch)
      (hexchanges : c.exchanges base targets ch =
        series c.config request c.config.maxRetries 0 ch)

theorem sending (c : Client) (base : String) (targets : List String) (ch : Channel) :
    Sending c base targets ch := by
  cases hpass : c.breaker.pass? c.config.cooldown ch.now with
  | none => exact .keptBack hpass (by simp only [send, hpass]) (by simp only [exchanges, hpass])
  | some b =>
    cases hrequest : Client.request c.config base targets with
    | error flaw =>
      exact .unwritable b flaw hpass hrequest (by simp only [send, hpass, hrequest])
        (by simp only [exchanges, hpass, hrequest])
    | ok request =>
      exact .asked b request hpass hrequest (by simp only [send, hpass, hrequest])
        (by simp only [exchanges, hpass, hrequest])

/-- Reading the rates out of the answer changes neither the client nor the channel. -/
theorem rates_snd (c : Client) (base : String) (targets : List String) (ch : Channel) :
    (c.rates base targets ch).2 = (c.send base targets ch).2 := by
  unfold rates
  rcases c.send base targets ch with ⟨result, after, channel⟩
  cases result with
  | done members =>
    simp only
    split <;> rfl
  | fault | breakdown | pending => rfl

theorem isHealthy_snd (c : Client) (ch : Channel) :
    (c.isHealthy ch).2 = (c.rates "USD" ["EUR"] ch).2 := by
  unfold isHealthy
  rcases c.rates "USD" ["EUR"] ch with ⟨result, after, channel⟩
  cases result <;> rfl

end Client

end Cambio
