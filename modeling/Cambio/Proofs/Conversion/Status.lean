import Cambio.Proofs.Conversion.Convert
import Cambio.Proofs.Service.Accounting

/-!
# The status of the last answer

Only a status from 400 to 599 keeps the rates of an answer out. Every other one, success or not, is
judged by the body that comes with it, just as if the status were 200: a usable table is brought and
counted as a success, while a body that is no object is a fault. So a status that is neither a
success nor a failure is refused exactly if its body would be refused anyway.

## Main definitions

- `Channel.Answer.blurred`, `Channel.blurred` — 200 in place of every status outside 400 to 599
- `Client.IsRefused` — a request that ends in a fault and is counted as a failure
- `Client.StatusRules` — what the status of the last answer decides

## Main statements

- `Client.rates_blurred` — requests do not tell such statuses apart
- `Client.isRefused_iff_isNoticed` — which answers are refused
- `Converter.statusRules_rates` — every request for rates, and the cache after one that is refused
-/

namespace Cambio

/-! ## Statuses that are not told apart -/

namespace Channel

namespace Answer

/-- A status that reports a success. -/
def isSuccessStatus (number : Nat) : Bool :=
  200 ≤ number && number < 300

/-- The answer with status 200 in place of any that reports no failure. -/
def blurred : Answer → Answer
  | .status number body => .status (if isFailureStatus number then number else 200) body
  | answer => answer

theorem blurred_to (request : Request) (a : Answer) :
    a.blurred.to request = (a.to request).blurred := by
  cases a with
  | status number body =>
    simp only [blurred, Answer.to]
    split <;> rfl
  | trouble | silence => rfl

end Answer

def Reply.blurred (r : Reply) : Reply :=
  { r with answer := r.answer.blurred }

/-- The channel with every reply to come blurred. -/
def blurred (ch : Channel) : Channel :=
  { ch with replies := ch.replies.map Reply.blurred }

theorem nextReply_blurred (replies : List Reply) :
    nextReply (replies.map Reply.blurred) =
      ((nextReply replies).1.blurred, (nextReply replies).2.map Reply.blurred) := by
  match replies with
  | [] => rfl
  | [_] => rfl
  | _ :: _ :: _ => rfl

theorem exchange_blurred (ch : Channel) (request : Request) :
    ch.blurred.exchange request =
      ((ch.exchange request).1.blurred, (ch.exchange request).2.blurred) := by
  simp only [exchange, blurred, nextReply_blurred]
  refine Prod.ext ?_ rfl
  exact Answer.blurred_to request (nextReply ch.replies).1.answer

end Channel

namespace Client

open Channel (Answer Exchange Request)

variable {c d : Client} {base : String} {targets : List String} {ch : Channel}

theorem verdict_blurred (a : Answer) : verdict a.blurred = verdict a := by
  cases a with
  | status number body =>
    simp only [Answer.blurred]
    split
    · rfl
    · next hstatus =>
      rw [verdict_of_status body (Bool.eq_false_iff.mpr hstatus)]
      exact verdict_of_status body rfl
  | trouble | silence => rfl

theorem attempts_blurred (request : Request) (retries attempt : Nat) (c : Client) (ch : Channel) :
    attempts request retries attempt c ch.blurred =
      ((attempts request retries attempt c ch).1, (attempts request retries attempt c ch).2.1,
        (attempts request retries attempt c ch).2.2.blurred) := by
  induction retries generalizing attempt c ch with
  | zero =>
    unfold attempts
    simp only [Channel.exchange_blurred, verdict_blurred]
    cases verdict (ch.exchange request).1 <;> rfl
  | succ retries ih =>
    unfold attempts
    simp only [Channel.exchange_blurred, verdict_blurred]
    cases verdict (ch.exchange request).1 with
    | accepted | final | breakdown | pending => rfl
    | retryable fault =>
      -- pausing takes no reply, so the pause of a blurred channel is a blurred pause
      exact ih (attempt + 1) _ ((ch.exchange request).2.pause _)

theorem send_blurred (c : Client) (base : String) (targets : List String) (ch : Channel) :
    c.send base targets ch.blurred =
      ((c.send base targets ch).1, (c.send base targets ch).2.1,
        (c.send base targets ch).2.2.blurred) := by
  cases sending c base targets ch with
  | keptBack hpass hsend =>
    have hpass' : c.breaker.pass? c.config.cooldown ch.blurred.now = none := hpass
    simp only [send, hpass, hpass']
  | unwritable b flaw hpass hrequest =>
    have hpass' : c.breaker.pass? c.config.cooldown ch.blurred.now = some b := hpass
    simp only [send, hpass, hpass', hrequest]
  | asked b request hpass hrequest =>
    have hpass' : c.breaker.pass? c.config.cooldown ch.blurred.now = some b := hpass
    simp only [send, hpass, hpass', hrequest]
    exact attempts_blurred request c.config.maxRetries 0 { c with breaker := b } ch

/-- Statuses outside 400 to 599 are not told apart. -/
theorem rates_blurred (c : Client) (base : String) (targets : List String) (ch : Channel) :
    c.rates base targets ch.blurred =
      ((c.rates base targets ch).1, (c.rates base targets ch).2.1,
        (c.rates base targets ch).2.2.blurred) := by
  simp only [rates, send_blurred]
  rcases c.send base targets ch with ⟨result, after, channel⟩
  cases result with
  | done members =>
    dsimp only
    cases RateAnswer.ofJson (.object members) <;> rfl
  | fault | breakdown | pending => rfl

/-! ## Where a table comes from -/

/-- A body is an object with a usable table. -/
def Brings (body : List UInt8) (table : RateTable) : Prop :=
  ∃ members, Json.readBytes .exact body = .ok (.object members) ∧
    RateAnswer.ofJson (.object members) = .ok table

theorem bodyVerdict_eq_accepted_iff {body : List UInt8} {members : List (String × Json)} :
    bodyVerdict body = .accepted members ↔ Json.readBytes .exact body = .ok (.object members) := by
  constructor
  · intro h
    unfold bodyVerdict at h
    split at h
    · next hread =>
      cases h
      exact hread
    · cases h
    · split at h <;> cases h
  · intro h
    rw [bodyVerdict, h]

theorem verdict_eq_accepted_iff {a : Answer} {members : List (String × Json)} :
    verdict a = .accepted members ↔
      ∃ number body, a = .status number body ∧ Answer.isFailureStatus number = false ∧
        Json.readBytes .exact body = .ok (.object members) := by
  constructor
  · intro h
    cases a with
    | status number body =>
      cases hstatus : Answer.isFailureStatus number with
      | false =>
        rw [verdict_of_status body hstatus] at h
        exact ⟨number, body, rfl, hstatus, bodyVerdict_eq_accepted_iff.mp h⟩
      | true =>
        have hjudged : Judged (.status number body) := judged_of_status hstatus
        cases hjudged with
        | accepted _ _ accepted => simp [Answer.isAccepted, hstatus] at accepted
        | retryable _ judgement | final _ judgement => cases judgement.symm.trans h
        | uncounted judgement =>
          rcases judgement with ⟨b, judgement⟩ | judgement <;> cases judgement.symm.trans h
    | trouble trouble => cases trouble <;> cases h
    | silence => cases h
  · rintro ⟨number, body, rfl, hstatus, hread⟩
    rw [verdict_of_status body hstatus, bodyVerdict_eq_accepted_iff.mpr hread]

theorem result_eq_done_iff {v : Verdict} {members : List (String × Json)} :
    v.result = .done members ↔ v = .accepted members := by
  cases v <;> simp [Verdict.result]

/-- A request that brings members has been sent, and its last answer has them. -/
theorem send_eq_done_iff {members : List (String × Json)} :
    (c.send base targets ch).1 = .done members ↔
      ∃ last, (c.exchanges base targets ch).getLast? = some last ∧
        verdict last.answer = .accepted members := by
  constructor
  · intro h
    cases sending c base targets ch with
    | keptBack _ hsend | unwritable _ _ _ _ hsend =>
      rw [hsend] at h
      cases h
    | asked _ _ _ _ hsend hexchanges =>
      obtain ⟨last, hlast, hresult⟩ := exists_last hsend hexchanges
      exact ⟨last, hlast, result_eq_done_iff.mp (hresult.symm.trans h)⟩
  · rintro ⟨last, hlast, hverdict⟩
    rw [send_of_last hlast, result_eq_done_iff]
    exact hverdict

theorem rates_eq_done_iff {table : RateTable} :
    (c.rates base targets ch).1 = .done table ↔
      ∃ last number body, (c.exchanges base targets ch).getLast? = some last ∧
        last.answer = .status number body ∧ Answer.isFailureStatus number = false ∧
          Brings body table := by
  constructor
  · intro h
    cases rating c base targets ch with
    | brought members read sent hread eq =>
      cases eq.symm.trans h
      obtain ⟨last, hlast, hverdict⟩ := send_eq_done_iff.mp sent
      obtain ⟨number, body, hanswer, hstatus, hbody⟩ := verdict_eq_accepted_iff.mp hverdict
      exact ⟨last, number, body, hlast, hanswer, hstatus, members, hbody, hread⟩
    | noRates _ _ _ _ eq | fault _ _ eq | breakdown _ _ eq | pending _ eq => cases eq.symm.trans h
  · rintro ⟨last, number, body, hlast, hanswer, hstatus, members, hbody, hread⟩
    have hsent : (c.send base targets ch).1 = .done members :=
      send_eq_done_iff.mpr
        ⟨last, hlast, verdict_eq_accepted_iff.mpr ⟨number, body, hanswer, hstatus, hbody⟩⟩
    cases rating c base targets ch with
    | brought members' table' sent read eq =>
      cases hsent.symm.trans sent
      cases hread.symm.trans read
      exact eq
    | noRates members' report sent read =>
      cases hsent.symm.trans sent
      cases hread.symm.trans read
    | fault _ sent | breakdown _ sent | pending sent => cases hsent.symm.trans sent

/-! ## Which answers are refused -/

/-- A request ends in a fault, and its last attempt is counted as a failure. -/
structure IsRefused (before : Client) (result : Service.Result RateTable) (after : Client) :
    Prop where
  fault : ∃ f, result = .fault f
  counted : CountsFailure before after

theorem rates_of_send_fault {f : Service.Fault} (h : (c.send base targets ch).1 = .fault f) :
    (c.rates base targets ch).1 = .fault f := by
  cases rating c base targets ch with
  | fault _ sent eq =>
    cases sent.symm.trans h
    exact eq
  | brought _ _ sent | noRates _ _ sent | breakdown _ sent | pending sent =>
    cases sent.symm.trans h

theorem isRefused_iff_isNoticed {earlier : List Exchange} {x : Exchange}
    (h : c.exchanges base targets ch = earlier ++ [x]) :
    IsRefused (earlier.foldl count (c.letThrough ch.now)) (c.rates base targets ch).1
        (c.rates base targets ch).2.1 ↔
      x.answer.isNoticed = true := by
  have hlast : (c.exchanges base targets ch).getLast? = some x := by rw [h, List.getLast?_concat]
  have hsend := send_of_last hlast
  rw [rates_client, h, foldl_count_append]
  generalize earlier.foldl count (c.letThrough ch.now) = before
  have hrefused {f : Service.Fault} (hresult : (verdict x.answer).result = .fault f) :
      IsRefused before (c.rates base targets ch).1 (before.count x) :=
    ⟨⟨f, rates_of_send_fault (hsend.trans hresult)⟩, count_of_result_fault hresult⟩
  cases judged x.answer with
  | retryable f judgement _ noticed | final f judgement _ noticed =>
    exact ⟨fun _ => noticed, fun _ => hrefused (by rw [judgement]; rfl)⟩
  | accepted members judgement _ noticed =>
    -- an object is counted as a success, whether or not it has a table
    have hresult : (verdict x.answer).result = .done members := by
      rw [judgement]
      rfl
    have hsuccess : CountsSuccess before (before.count x) := count_of_result_done hresult
    refine ⟨fun hrefused => ?_, fun hnoticed => ?_⟩
    · have hfailed := hrefused.counted.failed
      rw [hsuccess.failed] at hfailed
      omega
    · cases noticed.symm.trans hnoticed
  | uncounted _ accepted noticed =>
    refine ⟨fun hrefused => ?_, fun hnoticed => ?_⟩
    · have hfailed := hrefused.counted.failed
      rw [count_of_neither accepted noticed] at hfailed
      omega
    · cases noticed.symm.trans hnoticed

theorem isNoticed_status (number : Nat) (body : List UInt8) :
    (Answer.status number body).isNoticed = true ↔
      Answer.isFailureStatus number = true ∨
        (Answer.holdsObject body = false ∧ Answer.isOverlong body = false) := by
  cases hstatus : Answer.isFailureStatus number <;>
    simp [Answer.isNoticed, Answer.isFailed, Answer.isUnread, hstatus]

/-- What the status of the last answer decides. -/
structure StatusRules (c : Client) (base : String) (targets : List String) (ch : Channel) :
    Prop where
  /-- A table comes with any status outside 400 to 599. -/
  brought : ∀ table, (c.rates base targets ch).1 = .done table ↔
    ∃ last number body, (c.exchanges base targets ch).getLast? = some last ∧
      last.answer = .status number body ∧ Answer.isFailureStatus number = false ∧
        Brings body table
  /-- Neither the result nor the client tells these statuses apart. -/
  blurred : c.rates base targets ch.blurred =
    ((c.rates base targets ch).1, (c.rates base targets ch).2.1,
      (c.rates base targets ch).2.2.blurred)
  /-- A status is refused if it reports a failure, and otherwise, success or not, if its body is
      read to the end and is no object. -/
  refused : ∀ earlier x number body, c.exchanges base targets ch = earlier ++ [x] →
    x.answer = .status number body →
      (IsRefused (earlier.foldl count (c.letThrough ch.now)) (c.rates base targets ch).1
          (c.rates base targets ch).2.1 ↔
        Answer.isFailureStatus number = true ∨
          (Answer.holdsObject body = false ∧ Answer.isOverlong body = false))

theorem statusRules (c : Client) (base : String) (targets : List String) (ch : Channel) :
    StatusRules c base targets ch where
  brought _ := rates_eq_done_iff
  blurred := rates_blurred c base targets ch
  refused earlier x number body hexchanges hanswer := by
    rw [isRefused_iff_isNoticed hexchanges, hanswer, isNoticed_status]

end Client

namespace Converter

open Client (StatusRules IsRefused)

/-- **Statuses**: a table is brought exactly if the last answer has a status outside 400 to 599 and
    a body with a usable table. Whatever its status, an answer is refused exactly if that reports a
    failure, or its body is read to the end and is no object. After any fault the cache and the disk
    are as they were. -/
theorem statusRules_rates (c : Converter) (base : String) (targets : List String) (o : Outside) :
    StatusRules c.client base targets o.channel ∧
    ∀ f, (c.fetch base o).1 = .fault f →
      (c.refresh base o).1 = .fault f ∧ (c.refresh base o).2.1.cache = c.cache ∧
        (c.refresh base o).2.2.disk = o.disk := by
  refine ⟨Client.statusRules c.client base targets o.channel, fun f hfault => ?_⟩
  rw [refresh_of_fault hfault]
  exact ⟨rfl, rfl, rfl⟩

/-- A converter without rates that does not retry, whose breaker opens at the first failure. -/
def openingAtOnce : Converter :=
  let settings : Settings :=
    { Settings.default with
      service := { Settings.Service.default with
        client := { Settings.Service.default.client with threshold := 1, maxRetries := 0 } } }
  .ofSettings settings (.ofConfig settings.service.client) none .empty

/-- The service answers every request with a status and a body. -/
def answering (number : Nat) (body : String) : Outside :=
  ⟨⟨.earliest, [⟨.zero, .status number (Text.encodeUtf8 body.toList)⟩], [], []⟩, .empty⟩

/-- A redirection with a list for a body is refused. -/
theorem statusRules_rates_redirection :
    let c := openingAtOnce
    let o := answering 302 "[]"
    (c.fetch "USD" o).1 = .fault .noObject ∧
      IsRefused c.client (c.fetch "USD" o).1 (c.fetch "USD" o).2.1 ∧
      (c.refresh "USD" o).2.1.cache = c.cache := by
  intro c o
  have hfault : (c.fetch "USD" o).1 = .fault .noObject := by decide +kernel
  have hanswers : (c.client.exchanges (Text.upperString "USD") (c.catalog.map Currency.code)
      o.channel).map Channel.Exchange.answer = [.status 302 [0x5b, 0x5d]] := by decide +kernel
  obtain ⟨x, hexchanges, hanswer⟩ := List.map_eq_singleton_iff.mp hanswers
  have hbase : Text.upperString "USD" = "USD" := by decide +kernel
  obtain ⟨hrules, hkept⟩ := statusRules_rates c "USD" (c.catalog.map Currency.code) o
  rw [← hbase] at hrules
  have hrefused := (hrules.refused [] x 302 _ hexchanges hanswer).mpr
    (.inr ⟨by decide +kernel, by decide +kernel⟩)
  rw [List.foldl_nil, Client.letThrough_of_closed rfl] at hrefused
  exact ⟨hfault, hrefused, (hkept _ hfault).2.1⟩

/-- A redirection with a table in its body brings that table, although it is no success: it is
    installed, and the attempt counts as a success. -/
theorem brings_of_redirection :
    let c := openingAtOnce
    let o := answering 302 "\x7b\"data\":\x7b\"EUR\":0.92\x7d\x7d"
    Channel.Answer.isSuccessStatus 302 = false ∧
      (c.fetch "USD" o).1 = .done [("EUR", RateTable.withPlaces 92 2)] ∧
      (c.refresh "USD" o).2.1.cache.rate? "USD" "EUR" = some (RateTable.withPlaces 92 2) ∧
      c.cache.rate? "USD" "EUR" = none ∧
      (c.refresh "USD" o).2.1.client.metrics.succeeded = 1 ∧
      (c.refresh "USD" o).2.1.client.metrics.failed = 0 ∧
      (c.refresh "USD" o).2.1.client.breaker = .fresh := by
  decide +kernel

end Converter

end Cambio
