import Cambio.Proofs.Service.Series

/-!
# What a request for rates ends in

A request for rates brings a table or a fault of the service, whatever comes back for it, unless it
breaks down or no answer ever comes. It breaks down before it is sent, if it cannot be written, or
on its last answer.

## Main definitions

- `Client.Rating` — the ways in which the rates of a request follow from its answer
- `Client.Breaks` — what a request breaks down on, `Client.Hangs` — its last answer never comes

## Main statements

- `Client.rates_eq_breakdown_iff`, `Client.rates_eq_pending_iff` — when there is neither
- `Client.isSettled_rates_iff` — and when there is one of both
-/

namespace Cambio

/-- A request brought a value, or a fault of the service that the program goes on from. -/
def Service.Result.IsSettled {α : Type} (r : Service.Result α) : Prop :=
  (∃ value, r = .done value) ∨ ∃ f, r = .fault f

namespace Client

open Channel (Answer Exchange Request)

variable {c : Client} {base : String} {targets : List String} {ch : Channel} {b : Breakdown}

/-! ## From the answer to the rates -/

/-- The ways in which the rates of a request follow from its answer. -/
inductive Rating (c : Client) (base : String) (targets : List String) (ch : Channel) : Prop
  | brought (members : List (String × Json)) (table : RateTable)
      (sent : (c.send base targets ch).1 = .done members)
      (read : RateAnswer.ofJson (.object members) = .ok table)
      (eq : (c.rates base targets ch).1 = .done table)
  | noRates (members : List (String × Json)) (report : Schema.Report)
      (sent : (c.send base targets ch).1 = .done members)
      (read : RateAnswer.ofJson (.object members) = .error report)
      (eq : (c.rates base targets ch).1 = .fault (.noRates report))
  | fault (f : Service.Fault) (sent : (c.send base targets ch).1 = .fault f)
      (eq : (c.rates base targets ch).1 = .fault f)
  | breakdown (b : Breakdown) (sent : (c.send base targets ch).1 = .breakdown b)
      (eq : (c.rates base targets ch).1 = .breakdown b)
  | pending (sent : (c.send base targets ch).1 = .pending)
      (eq : (c.rates base targets ch).1 = .pending)

theorem rating (c : Client) (base : String) (targets : List String) (ch : Channel) :
    Rating c base targets ch := by
  rcases hsend : c.send base targets ch with ⟨result, after, channel⟩
  have hsent : (c.send base targets ch).1 = result := by rw [hsend]
  cases result with
  | done members =>
    cases hread : RateAnswer.ofJson (.object members) with
    | ok table => exact .brought members table hsent hread (by simp only [rates, hsend, hread])
    | error report =>
      exact .noRates members report hsent hread (by simp only [rates, hsend, hread])
  | fault f => exact .fault f hsent (by simp only [rates, hsend])
  | breakdown b => exact .breakdown b hsent (by simp only [rates, hsend])
  | pending => exact .pending hsent (by simp only [rates, hsend])

/-- Reading the rates out of the answer does not break down. -/
theorem rates_eq_breakdown :
    (c.rates base targets ch).1 = .breakdown b ↔ (c.send base targets ch).1 = .breakdown b := by
  cases rating c base targets ch with
  | brought _ _ sent _ eq | noRates _ _ sent _ eq | fault _ sent eq | breakdown _ sent eq
  | pending sent eq => simp [sent, eq]

theorem rates_eq_pending :
    (c.rates base targets ch).1 = .pending ↔ (c.send base targets ch).1 = .pending := by
  cases rating c base targets ch with
  | brought _ _ sent _ eq | noRates _ _ sent _ eq | fault _ sent eq | breakdown _ sent eq
  | pending sent eq => simp [sent, eq]

/-! ## From the last answer to the result -/

/-- A request that is sent brings what its last answer brings. -/
theorem exists_last {b : Breaker} {request : Request}
    (hsend : c.send base targets ch =
      attempts request c.config.maxRetries 0 { c with breaker := b } ch)
    (hexchanges : c.exchanges base targets ch = series c.config request c.config.maxRetries 0 ch) :
    ∃ last, (c.exchanges base targets ch).getLast? = some last ∧
      (c.send base targets ch).1 = (verdict last.answer).result := by
  rw [hsend, hexchanges]
  exact attempts_result request c.config.maxRetries 0 { c with breaker := b } ch

theorem send_of_last {last : Exchange}
    (hlast : (c.exchanges base targets ch).getLast? = some last) :
    (c.send base targets ch).1 = (verdict last.answer).result := by
  cases sending c base targets ch with
  | keptBack _ _ hnone | unwritable _ _ _ _ _ hnone =>
    rw [hnone] at hlast
    cases hlast
  | asked _ _ _ _ hsend hexchanges =>
    obtain ⟨last', hlast', hresult⟩ := exists_last hsend hexchanges
    cases hlast.symm.trans hlast'
    exact hresult

/-- The answers that are judged neither good nor a fault. The reading of a document was given up,
    or the request should not have been sent as it was. -/
inductive BreaksOn : Answer → Breakdown → Prop
  | wideNumber {number : Nat} {body : List UInt8} {signal : Decimal.Signal}
      (status : Answer.isFailureStatus number = false)
      (read : Json.readBytes .exact body = .error (.wideNumber signal)) :
      BreaksOn (.status number body) (.document (.wideNumber signal))
  | tooDeep {number : Nat} {body : List UInt8} {isList : Bool}
      (status : Answer.isFailureStatus number = false)
      (read : Json.readBytes .exact body = .error (.tooDeep isList)) :
      BreaksOn (.status number body) (.document (.tooDeep isList))
  | address (message : String) : BreaksOn (.trouble .address message) (.address message)
  | schemeless (message : String) : BreaksOn (.trouble .schemeless message) (.schemeless message)

theorem result_eq_breakdown_iff {v : Verdict} : v.result = .breakdown b ↔ v = .breakdown b := by
  cases v <;> simp [Verdict.result]

theorem result_eq_pending_iff {v : Verdict} : v.result = .pending ↔ v = .pending := by
  cases v <;> simp [Verdict.result]

theorem breaksOn_of_body {number : Nat} {body : List UInt8}
    (hstatus : Answer.isFailureStatus number = false) (h : bodyVerdict body = .breakdown b) :
    BreaksOn (.status number body) b := by
  unfold bodyVerdict at h
  split at h
  · cases h
  · cases h
  · next e hread =>
    split at h
    · cases h
    · next hform =>
      cases h
      cases e with
      | wideNumber signal => exact .wideNumber hstatus hread
      | tooDeep isList => exact .tooDeep hstatus hread
      | form | longNumber | encoding => exact absurd rfl hform

theorem verdict_eq_breakdown_iff {a : Answer} : verdict a = .breakdown b ↔ BreaksOn a b := by
  constructor
  · intro h
    cases a with
    | status number body =>
      cases hstatus : Answer.isFailureStatus number with
      | false => exact breaksOn_of_body hstatus (verdict_of_status body hstatus ▸ h)
      | true =>
        -- a status of failure is a fault, whatever the body
        have hjudged : Judged (.status number body) := judged_of_status hstatus
        cases hjudged with
        | accepted _ judgement | retryable _ judgement | final _ judgement =>
          cases judgement.symm.trans h
        | uncounted _ _ noticed =>
          simp [Answer.isNoticed, Answer.isFailed, Answer.isUnread, hstatus] at noticed
    | trouble trouble message =>
      cases trouble with
      | timeout | transport | protocol => cases h
      | address =>
        cases h
        exact .address message
      | schemeless =>
        cases h
        exact .schemeless message
    | silence => cases h
  · intro h
    cases h with
    | wideNumber status read | tooDeep status read =>
      rw [verdict_of_status _ status, bodyVerdict, read]
      rfl
    | address | schemeless => rfl

theorem bodyVerdict_ne_pending (body : List UInt8) : bodyVerdict body ≠ .pending := by
  unfold bodyVerdict
  split
  · nofun
  · nofun
  · split <;> nofun

theorem verdict_eq_pending_iff {a : Answer} : verdict a = .pending ↔ a = .silence := by
  constructor
  · intro h
    cases a with
    | silence => rfl
    | trouble trouble message => cases trouble <;> cases h
    | status number body =>
      simp only [verdict] at h
      split_ifs at h
      exact absurd h (bodyVerdict_ne_pending body)
  · rintro rfl
    rfl

/-! ## From the request to the result -/

/-- A request that cannot be written breaks down on its address or on a text without bytes. -/
theorem breakdown_of_request {config : Service.Config}
    (h : Client.request config base targets = .error b) :
    (∃ u, b = .unwritable u) ∨ ∃ message, b = .address message := by
  unfold Client.request at h
  -- the address comes first, then the texts of the query
  generalize ((Locator.ofText config.address.toList).bind fun l => l.target.checked) = target at h
  cases target with
  | error flaw =>
    cases h
    cases flaw with
    | unwritable u => exact .inl ⟨u, rfl⟩
    | tooLong | control | shortNumeric | longNumeric | name | number | partTooLong =>
      exact .inr ⟨_, rfl⟩
  | ok target =>
    simp only [Except.mapError, bind, Except.bind] at h
    split at h
    · next u _ =>
      cases h
      exact .inl ⟨u, rfl⟩
    · cases h

/-- What a request breaks down on: the breaker lets it through, but it cannot be written, or it is
    sent and its last answer breaks it. -/
inductive Breaks (c : Client) (base : String) (targets : List String) (ch : Channel) :
    Breakdown → Prop
  | unwritable (u : Text.Unwritable)
      (passes : c.breaker.pass? c.config.cooldown ch.now ≠ none)
      (request : Client.request c.config base targets = .error (.unwritable u)) :
      Breaks c base targets ch (.unwritable u)
  | address (message : String) (passes : c.breaker.pass? c.config.cooldown ch.now ≠ none)
      (request : Client.request c.config base targets = .error (.address message)) :
      Breaks c base targets ch (.address message)
  | answer {b : Breakdown} (last : Exchange)
      (hlast : (c.exchanges base targets ch).getLast? = some last)
      (breaks : BreaksOn last.answer b) : Breaks c base targets ch b

/-- The last answer of a request never comes. -/
def Hangs (c : Client) (base : String) (targets : List String) (ch : Channel) : Prop :=
  ∃ last, (c.exchanges base targets ch).getLast? = some last ∧ last.answer = .silence

theorem send_of_unwritable (hpass : c.breaker.pass? c.config.cooldown ch.now ≠ none)
    (hrequest : Client.request c.config base targets = .error b) :
    (c.send base targets ch).1 = .breakdown b := by
  cases sending c base targets ch with
  | keptBack hkept => exact absurd hkept hpass
  | unwritable _ flaw _ hflaw hsend =>
    cases hrequest.symm.trans hflaw
    rw [hsend]
  | asked _ _ _ hasked => cases hrequest.symm.trans hasked

/-- **Breakdowns of requests**: these and no others. -/
theorem rates_eq_breakdown_iff :
    (c.rates base targets ch).1 = .breakdown b ↔ Breaks c base targets ch b := by
  rw [rates_eq_breakdown]
  constructor
  · intro h
    cases sending c base targets ch with
    | keptBack _ hsend =>
      rw [hsend] at h
      cases h
    | unwritable _ flaw hpass hrequest hsend =>
      have hflaw : flaw = b := by
        rw [hsend] at h
        injection h
      subst hflaw
      have hpasses : c.breaker.pass? c.config.cooldown ch.now ≠ none := by
        rw [hpass]
        nofun
      rcases breakdown_of_request hrequest with ⟨u, rfl⟩ | ⟨message, rfl⟩
      · exact .unwritable u hpasses hrequest
      · exact .address message hpasses hrequest
    | asked _ _ _ _ hsend hexchanges =>
      obtain ⟨last, hlast, hresult⟩ := exists_last hsend hexchanges
      rw [hresult, result_eq_breakdown_iff, verdict_eq_breakdown_iff] at h
      exact .answer last hlast h
  · intro h
    cases h with
    | unwritable u passes request => exact send_of_unwritable passes request
    | address message passes request => exact send_of_unwritable passes request
    | answer last hlast breaks =>
      rw [send_of_last hlast, result_eq_breakdown_iff, verdict_eq_breakdown_iff]
      exact breaks

theorem rates_eq_pending_iff :
    (c.rates base targets ch).1 = .pending ↔ Hangs c base targets ch := by
  rw [rates_eq_pending]
  constructor
  · intro h
    cases sending c base targets ch with
    | keptBack _ hsend | unwritable _ _ _ _ hsend =>
      rw [hsend] at h
      cases h
    | asked _ _ _ _ hsend hexchanges =>
      obtain ⟨last, hlast, hresult⟩ := exists_last hsend hexchanges
      rw [hresult, result_eq_pending_iff, verdict_eq_pending_iff] at h
      exact ⟨last, hlast, h⟩
  · rintro ⟨last, hlast, hsilence⟩
    rw [send_of_last hlast, hsilence]
    rfl

theorem isSettled_rates_iff :
    (c.rates base targets ch).1.IsSettled ↔
      (∀ b, ¬ Breaks c base targets ch b) ∧ ¬ Hangs c base targets ch := by
  simp only [← rates_eq_breakdown_iff, ← rates_eq_pending_iff, Service.Result.IsSettled]
  cases (c.rates base targets ch).1 <;> simp

end Client

end Cambio
