import Cambio.Proofs.Service.Series
import Cambio.Settings.Basic

/-!
# Outages

A client is asked for rates again and again while time passes and the service answers as it likes.
The breaker knows of this history only a count, a time and a state. Here the history itself is
kept, and the breaker is read off it.

## Main definitions

- `Client.Operation`, `Client.run` — what is asked of a client, and a whole run
- `Client.Event`, `Client.history` — the attempts and resets of a run
- `Client.recent`, `Client.latestFailure` — what a history says about failures
- `Client.Tracks` — a breaker that agrees with a history

## Main statements

- `Client.Tracks.perform`, `Client.Tracks.run` — the agreement lasts
- `Client.breaker_of_run` — the breaker after any run
-/

namespace Cambio.Client

open Channel (Answer Exchange Request)

/-! ## Runs and their histories -/

/-- What is asked of a client, and what happens meanwhile. -/
inductive Operation where
  | rates (base : String) (targets : List String)
  | health
  | resetBreaker
  | resetMetrics
  /-- The connection is given up; the next request makes another. -/
  | close
  /-- Time passes, and the service has other answers to come. -/
  | meanwhile (now : Moment) (replies : List Channel.Reply)

/-- Does what is asked of a client. -/
def perform (w : Client × Channel) : Operation → Client × Channel
  | .rates base targets => (w.1.rates base targets w.2).2
  | .health => (w.1.isHealthy w.2).2
  | .resetBreaker => (w.1.resetBreaker, w.2)
  | .resetMetrics => (w.1.resetMetrics, w.2)
  | .close => w
  | .meanwhile now replies => (w.1, { w.2 with now := now, replies := replies })

/-- Does one thing after the other. -/
def run (w : Client × Channel) (ops : List Operation) : Client × Channel :=
  ops.foldl perform w

/-- What a breaker may learn from. -/
inductive Event where
  | attempt (x : Exchange)
  | reset

/-- An event is an attempt whose answer is of a sort. -/
def Event.meets (p : Answer → Bool) : Event → Bool
  | .attempt x => p x.answer
  | .reset => false

/-- After this event all failures are forgotten. -/
def Event.clears : Event → Bool
  | .attempt x => x.answer.isAccepted
  | .reset => true

/-- The time of a failure that the client notices. -/
def Event.failure? : Event → Option Moment
  | .attempt x => if x.answer.isNoticed then some x.ended else none
  | .reset => none

/-- The events of an operation. -/
def events (w : Client × Channel) : Operation → List Event
  | .rates base targets => (w.1.exchanges base targets w.2).map .attempt
  | .health => (w.1.exchanges "USD" ["EUR"] w.2).map .attempt
  | .resetBreaker => [.reset]
  | .resetMetrics | .close | .meanwhile _ _ => []

/-- The events of a run, in order. -/
def history (w : Client × Channel) : List Operation → List Event
  | [] => []
  | op :: ops => events w op ++ history (perform w op) ops

/-- The events since the last success or reset, the latest first. -/
def recent (es : List Event) : List Event :=
  es.reverse.takeWhile fun e => !e.clears

/-- The time of the latest failure. -/
def latestFailure (es : List Event) : Option Moment :=
  (es.filterMap Event.failure?).getLast?

/-- A breaker agrees with a history. -/
structure Tracks (threshold : Nat) (es : List Event) (b : Breaker) : Prop where
  failures : b.failures = (recent es).countP (Event.meets Answer.isNoticed)
  closed_iff : b.state = .closed ↔ b.failures < threshold
  latest : b.failures ≠ 0 → b.lastFailure = latestFailure es

/-! ## One more event -/

theorem recent_append_clears {es : List Event} {e : Event} (h : e.clears = true) :
    recent (es ++ [e]) = [] := by
  simp [recent, h]

theorem recent_append_of_not_clears {es : List Event} {e : Event} (h : e.clears = false) :
    recent (es ++ [e]) = e :: recent es := by
  simp [recent, h]

theorem latestFailure_append_some {es : List Event} {e : Event} {time : Moment}
    (h : e.failure? = some time) : latestFailure (es ++ [e]) = some time := by
  simp [latestFailure, h]

theorem latestFailure_append_none {es : List Event} {e : Event} (h : e.failure? = none) :
    latestFailure (es ++ [e]) = latestFailure es := by
  simp [latestFailure, h]

variable {threshold : Nat} {es : List Event} {b : Breaker}

theorem tracks_fresh (hthreshold : 1 ≤ threshold) (hes : recent es = []) :
    Tracks threshold es .fresh where
  failures := by rw [hes]; rfl
  closed_iff := iff_of_true rfl hthreshold
  latest := fun h => absurd rfl h

namespace Tracks

/-- A breaker that is not closed has seen enough failures. -/
theorem threshold_le (h : Tracks threshold es b) (hstate : b.state ≠ .closed) :
    threshold ≤ b.failures :=
  Nat.not_lt.mp fun hless => hstate (h.closed_iff.mpr hless)

/-- A breaker that is not closed knows when the latest failure was. -/
theorem latest_of_not_closed (hthreshold : 1 ≤ threshold) (h : Tracks threshold es b)
    (hstate : b.state ≠ .closed) : b.lastFailure = latestFailure es := by
  have hmany := h.threshold_le hstate
  exact h.latest (by omega)

/-- Letting a request through changes nothing that the history tells. -/
theorem pass (h : Tracks threshold es b) {cooldown : Nat} {now : Moment} {b' : Breaker}
    (hpass : b.pass? cooldown now = some b') : Tracks threshold es b' := by
  cases b.passing cooldown now with
  | passes _ eq =>
    cases eq.symm.trans hpass
    exact h
  | tries opened _ eq =>
    have hstate : b.state ≠ .closed := by
      rw [opened]
      decide
    cases eq.symm.trans hpass
    refine ⟨h.failures, ?_, h.latest⟩
    exact iff_of_false (by simp [Breaker.halfOpen]) (Nat.not_lt.mpr (h.threshold_le hstate))
  | keptBack _ _ eq => cases eq.symm.trans hpass

theorem failed (h : Tracks threshold es b) {e : Event} {now : Moment} (hclears : e.clears = false)
    (hnoticed : e.meets Answer.isNoticed = true) (hfailure : e.failure? = some now) :
    Tracks threshold (es ++ [e]) (b.failed threshold now) := by
  have hcount : b.failures + 1 =
      (recent (es ++ [e])).countP (Event.meets Answer.isNoticed) := by
    rw [recent_append_of_not_clears hclears, List.countP_cons_of_pos hnoticed, h.failures]
  have hlatest : some now = latestFailure (es ++ [e]) := (latestFailure_append_some hfailure).symm
  simp only [Breaker.failed]
  split
  · next hopens =>
    have hmany : threshold ≤ b.failures + 1 := by
      rcases hopens with hhalf | hmany
      · -- a breaker that was trying had seen enough failures before
        have hstate : b.state ≠ .closed := by
          rw [show b.state = .halfOpen from hhalf]
          decide
        exact Nat.le_succ_of_le (h.threshold_le hstate)
      · exact hmany
    refine ⟨hcount, ?_, fun _ => hlatest⟩
    exact iff_of_false (by simp [Breaker.trip]) (Nat.not_lt.mpr hmany)
  · next hstays =>
    have hfew : b.failures + 1 < threshold :=
      Nat.not_le.mp fun hmany => hstays (.inr hmany)
    refine ⟨hcount, ?_, fun _ => hlatest⟩
    exact iff_of_true (h.closed_iff.mpr (Nat.lt_of_succ_lt hfew)) hfew

/-- A success leaves a breaker without failures, whether it had any or not. -/
theorem succeeded (hthreshold : 1 ≤ threshold) (h : Tracks threshold es b) {e : Event}
    (hclears : e.clears = true) : Tracks threshold (es ++ [e]) b.succeeded := by
  have hes : recent (es ++ [e]) = [] := recent_append_clears hclears
  unfold Breaker.succeeded
  split
  · exact tracks_fresh hthreshold hes
  · next hclean =>
    have hclosed : b.state = .closed := by
      by_contra hstate
      exact hclean (.inl hstate)
    have hnone : b.failures = 0 := by
      by_contra hsome
      exact hclean (.inr hsome)
    refine ⟨by rw [hes, hnone]; rfl, h.closed_iff, fun hsome => absurd hnone hsome⟩

/-- An attempt that is neither noticed nor accepted tells the breaker nothing. -/
theorem unseen (h : Tracks threshold es b) {e : Event} (hclears : e.clears = false)
    (hnoticed : e.meets Answer.isNoticed = false) (hfailure : e.failure? = none) :
    Tracks threshold (es ++ [e]) b where
  failures := by
    rw [recent_append_of_not_clears hclears, List.countP_cons_of_neg (by simp [hnoticed]),
      h.failures]
  closed_iff := h.closed_iff
  latest := by rw [latestFailure_append_none hfailure]; exact h.latest

/-- Counting an exchange keeps the agreement. -/
theorem count {c : Client} (hthreshold : 1 ≤ c.config.threshold)
    (h : Tracks c.config.threshold es c.breaker) (x : Exchange) :
    Tracks c.config.threshold (es ++ [.attempt x]) (c.count x).breaker := by
  cases judged x.answer with
  | accepted _ _ accepted =>
    rw [count_of_accepted accepted]
    exact h.succeeded hthreshold accepted
  | retryable _ _ accepted noticed | final _ _ accepted noticed =>
    rw [count_of_noticed accepted noticed]
    exact h.failed accepted noticed (by simp [Event.failure?, noticed])
  | uncounted _ accepted noticed =>
    rw [count_of_neither accepted noticed]
    exact h.unseen accepted noticed (by simp [Event.failure?, noticed])

theorem foldl_count {c : Client} (hthreshold : 1 ≤ c.config.threshold)
    (h : Tracks c.config.threshold es c.breaker) (xs : List Exchange) :
    Tracks c.config.threshold (es ++ xs.map .attempt) (xs.foldl Client.count c).breaker := by
  induction xs generalizing c es with
  | nil => simpa using h
  | cons x xs ih =>
    have hconfig : (c.count x).config = c.config := count_config c x
    have hnext : Tracks (c.count x).config.threshold (es ++ [.attempt x] ++ xs.map .attempt)
        (xs.foldl Client.count (c.count x)).breaker :=
      ih (by rw [hconfig]; exact hthreshold) (by rw [hconfig]; exact h.count hthreshold x)
    rw [hconfig, List.append_assoc] at hnext
    exact hnext

end Tracks

/-! ## One operation -/

theorem Tracks.rates {c : Client} (hthreshold : 1 ≤ c.config.threshold)
    (h : Tracks c.config.threshold es c.breaker) (base : String) (targets : List String)
    (ch : Channel) :
    Tracks c.config.threshold (es ++ (c.exchanges base targets ch).map .attempt)
      (c.rates base targets ch).2.1.breaker := by
  rw [rates_snd]
  cases sending c base targets ch with
  | keptBack _ hsend hnone =>
    rw [hsend, hnone, List.map_nil, List.append_nil]
    exact h
  | unwritable b _ hpass _ hsend hnone =>
    rw [hsend, hnone, List.map_nil, List.append_nil]
    exact h.pass hpass
  | asked b request hpass _ hsend hexchanges =>
    let asking : Client := { c with breaker := b }
    have hasking : Tracks asking.config.threshold es asking.breaker := h.pass hpass
    rw [hsend, hexchanges, attempts_client]
    exact Tracks.foldl_count (c := asking) hthreshold hasking _

theorem rates_config (c : Client) (base : String) (targets : List String) (ch : Channel) :
    (c.rates base targets ch).2.1.config = c.config := by
  rw [rates_snd]
  cases sending c base targets ch with
  | keptBack _ hsend => rw [hsend]
  | unwritable _ _ _ _ hsend => rw [hsend]
  | asked b request _ _ hsend => rw [hsend, attempts_client, foldl_count_config]

theorem perform_config (w : Client × Channel) (op : Operation) :
    (perform w op).1.config = w.1.config := by
  cases op with
  | rates base targets => exact rates_config w.1 base targets w.2
  | health =>
    simp only [perform]
    rw [isHealthy_snd, rates_config]
  | resetBreaker | resetMetrics | close | meanwhile => rfl

/-- Every operation keeps the agreement. -/
theorem Tracks.perform {w : Client × Channel} (hthreshold : 1 ≤ w.1.config.threshold)
    (h : Tracks w.1.config.threshold es w.1.breaker) (op : Operation) :
    Tracks w.1.config.threshold (es ++ events w op) (Client.perform w op).1.breaker := by
  cases op with
  | rates base targets => exact h.rates hthreshold base targets w.2
  | health =>
    simp only [Client.perform]
    rw [isHealthy_snd]
    exact h.rates hthreshold "USD" ["EUR"] w.2
  | resetBreaker => exact tracks_fresh hthreshold (recent_append_clears rfl)
  | resetMetrics | close | meanwhile =>
    simp only [events, List.append_nil]
    exact h

/-- Every run keeps the agreement. -/
theorem Tracks.run {w : Client × Channel} (hthreshold : 1 ≤ w.1.config.threshold)
    (h : Tracks w.1.config.threshold es w.1.breaker) (ops : List Operation) :
    Tracks w.1.config.threshold (es ++ history w ops) (Client.run w ops).1.breaker := by
  induction ops generalizing w es with
  | nil => simpa [history, Client.run] using h
  | cons op ops ih =>
    -- the threshold is that of the client at hand, which no operation changes
    have hconfig := perform_config w op
    have hnext := h.perform hthreshold op
    rw [← hconfig] at hthreshold hnext
    have hrest := ih hthreshold hnext
    rw [hconfig, List.append_assoc] at hrest
    exact hrest

theorem run_config (w : Client × Channel) (ops : List Operation) :
    (run w ops).1.config = w.1.config := by
  induction ops generalizing w with
  | nil => rfl
  | cons op ops ih => rw [run, List.foldl_cons, ← run, ih, perform_config]

/-! ## While the breaker is open -/

variable {c : Client} {ch : Channel} {last : Moment}

/-- Until the breaker has cooled down it keeps every request back, and nothing changes. -/
theorem rates_of_hot (hopen : c.breaker.state = .opened) (hlast : c.breaker.lastFailure = some last)
    (hhot : ch.now.microsSince last ≤ c.config.cooldown * 1000000) (base : String)
    (targets : List String) :
    c.rates base targets ch = (.fault (.keptBack (some last)), c, ch) := by
  have hpass : c.breaker.pass? c.config.cooldown ch.now = none := by
    simp only [Breaker.pass?, hopen, Breaker.hasCooled, hlast]
    simpa using hhot
  simp only [rates, send, hpass, hlast]

theorem isHealthy_of_hot (hopen : c.breaker.state = .opened)
    (hlast : c.breaker.lastFailure = some last)
    (hhot : ch.now.microsSince last ≤ c.config.cooldown * 1000000) :
    c.isHealthy ch = (.done false, c, ch) := by
  simp only [isHealthy, rates_of_hot hopen hlast hhot]

/-- Once it has cooled down it lets the next request through. -/
theorem pass?_of_cool (hopen : c.breaker.state = .opened)
    (hlast : c.breaker.lastFailure = some last)
    (hcool : c.config.cooldown * 1000000 < ch.now.microsSince last) :
    c.breaker.pass? c.config.cooldown ch.now = some c.breaker.halfOpen := by
  simp only [Breaker.pass?, hopen, Breaker.hasCooled, hlast]
  simpa using hcool

/-- A request that is let through is sent if it can be written at all. -/
theorem sent_lt_rates_iff {b : Breaker}
    (hpass : c.breaker.pass? c.config.cooldown ch.now = some b) (base : String)
    (targets : List String) :
    ch.sent.length < (c.rates base targets ch).2.2.sent.length ↔
      ∃ request, Client.request c.config base targets = .ok request := by
  rw [rates_snd]
  cases sending c base targets ch with
  | keptBack hkept =>
    rw [hkept] at hpass
    cases hpass
  | unwritable _ flaw _ hrequest hsend =>
    rw [hsend, hrequest]
    exact iff_of_false (Nat.lt_irrefl _) (by rintro ⟨request, ⟨⟩⟩)
  | asked _ request _ hrequest hsend =>
    refine iff_of_true ?_ ⟨request, hrequest⟩
    rw [hsend, attempts_sent, List.length_append, List.length_replicate]
    exact Nat.lt_add_of_pos_right (series_length_pos _ _ _ _ _)

/-- A request that cannot be written breaks down, with the breaker as it was let through. -/
theorem rates_of_unwritable {b : Breaker}
    (hpass : c.breaker.pass? c.config.cooldown ch.now = some b) {base : String}
    {targets : List String} {flaw : Breakdown}
    (hrequest : Client.request c.config base targets = .error flaw) :
    c.rates base targets ch = (.breakdown flaw, { c with breaker := b }, ch) := by
  simp only [rates, send, hpass, hrequest]

/-! ## After any run -/

theorem isNoticed_or_isUnread (a : Answer) :
    (a.isFailed = true ↔ a.isNoticed = true ∨ a.isUnread = true) ∧
      ¬ (a.isNoticed = true ∧ a.isUnread = true) := by
  have hfailed : a.isUnread = true → a.isFailed = true := by
    intro hunread
    cases a with
    | status number body =>
      have hoverlong : Answer.isOverlong body = true := by
        simp only [Answer.isUnread, Bool.and_eq_true] at hunread
        exact hunread.2
      have hnone : Answer.holdsObject body = false := by
        unfold Answer.isOverlong at hoverlong
        unfold Answer.holdsObject
        cases hread : Json.readBytes .exact body with
        | error e => rfl
        | ok v => simp [hread] at hoverlong
      simp [Answer.isFailed, hnone]
    | trouble => cases hunread
    | silence => cases hunread
  simp only [Answer.isNoticed, Bool.and_eq_true, Bool.not_eq_true']
  cases hunread : a.isUnread
  · simp
  · simp [hfailed hunread]

/-- Every failure is noticed, or its body was given up. -/
theorem countP_isNoticed_add_isUnread (es : List Event) :
    es.countP (Event.meets Answer.isNoticed) + es.countP (Event.meets Answer.isUnread) =
      es.countP (Event.meets Answer.isFailed) := by
  induction es with
  | nil => rfl
  | cons e es ih =>
    simp only [List.countP_cons]
    cases e with
    | reset =>
      simp only [Event.meets]
      simpa using ih
    | attempt x =>
      obtain ⟨hfailed, hboth⟩ := isNoticed_or_isUnread x.answer
      simp only [Event.meets]
      by_cases hnoticed : x.answer.isNoticed = true <;>
        by_cases hunread : x.answer.isUnread = true <;> simp_all <;> omega

theorem latestFailure_isSome {es : List Event}
    (h : (recent es).countP (Event.meets Answer.isNoticed) ≠ 0) :
    (latestFailure es).isSome = true := by
  obtain ⟨e, he, hnoticed⟩ := List.countP_pos_iff.mp (Nat.pos_of_ne_zero h)
  have hmem : e ∈ es := List.mem_reverse.mp ((List.takeWhile_sublist _).subset he)
  cases e with
  | reset => cases hnoticed
  | attempt x =>
    have hfailure : Event.failure? (.attempt x) = some x.ended := if_pos hnoticed
    rw [latestFailure, List.getLast?_isSome]
    exact List.ne_nil_of_mem (List.mem_filterMap.mpr ⟨_, hmem, hfailure⟩)

/-- What a history makes of a client and its channel. -/
structure Follows (es : List Event) (c : Client) (ch : Channel) : Prop where
  /-- The failures since the last success or reset are counted, but for those whose body was given
      up. -/
  failures : c.breaker.failures + (recent es).countP (Event.meets Answer.isUnread) =
    (recent es).countP (Event.meets Answer.isFailed)
  closed_iff : c.breaker.state = .closed ↔ c.breaker.failures < c.config.threshold
  latest : c.breaker.state ≠ .closed →
    ∃ last, c.breaker.lastFailure = some last ∧ latestFailure es = some last
  /-- Until an open breaker has cooled down it keeps every request back, and nothing changes. -/
  hot : c.breaker.state = .opened → ∀ last, latestFailure es = some last →
    ch.now.microsSince last ≤ c.config.cooldown * 1000000 →
      (∀ base targets, c.rates base targets ch = (.fault (.keptBack (some last)), c, ch)) ∧
        c.isHealthy ch = (.done false, c, ch)
  /-- After that a request is sent if it can be written at all. -/
  cool : c.breaker.state = .opened → ∀ last, latestFailure es = some last →
    c.config.cooldown * 1000000 < ch.now.microsSince last →
      (∀ base targets, ch.sent.length < (c.rates base targets ch).2.2.sent.length ↔
        ∃ request, Client.request c.config base targets = .ok request) ∧
      (ch.sent.length < (c.isHealthy ch).2.2.sent.length ↔
        ∃ request, Client.request c.config "USD" ["EUR"] = .ok request) ∧
      ∀ base targets flaw, Client.request c.config base targets = .error flaw →
        c.rates base targets ch =
          (.breakdown flaw, { c with breaker := c.breaker.halfOpen }, ch)

/-- **Outages**: after any run of a client the breaker follows the history of the run. -/
theorem breaker_of_run (config : Service.Config) (ch : Channel) (ops : List Operation)
    (hthreshold : 1 ≤ config.threshold) :
    Follows (history (.ofConfig config, ch) ops) (run (.ofConfig config, ch) ops).1
      (run (.ofConfig config, ch) ops).2 := by
  have hconfig : (run (.ofConfig config, ch) ops).1.config = config := run_config _ _
  have hstart : Tracks config.threshold [] (Client.ofConfig config).breaker :=
    tracks_fresh hthreshold rfl
  have htracks := Tracks.run (w := (.ofConfig config, ch)) hthreshold hstart ops
  rw [List.nil_append] at htracks
  generalize history (.ofConfig config, ch) ops = es at htracks ⊢
  generalize run (.ofConfig config, ch) ops = w at hconfig htracks ⊢
  change Tracks config.threshold es w.1.breaker at htracks
  have hlatest (hstate : w.1.breaker.state ≠ .closed) :
      ∃ last, w.1.breaker.lastFailure = some last ∧ latestFailure es = some last := by
    have hmany := htracks.threshold_le hstate
    have hsome : (latestFailure es).isSome = true :=
      latestFailure_isSome (by rw [← htracks.failures]; omega)
    obtain ⟨last, hlast⟩ := Option.isSome_iff_exists.mp hsome
    exact ⟨last, (htracks.latest_of_not_closed hthreshold hstate).trans hlast, hlast⟩
  have hopened (hopen : w.1.breaker.state = .opened) {last : Moment}
      (hlast : latestFailure es = some last) : w.1.breaker.lastFailure = some last := by
    obtain ⟨last', hbreaker, hlast'⟩ := hlatest (by rw [hopen]; decide)
    rw [hbreaker, ← hlast', hlast]
  refine ⟨?_, ?_, hlatest, ?_, ?_⟩
  · rw [htracks.failures, countP_isNoticed_add_isUnread]
  · rw [hconfig]
    exact htracks.closed_iff
  · intro hopen last hlast hhot
    exact ⟨rates_of_hot hopen (hopened hopen hlast) hhot,
      isHealthy_of_hot hopen (hopened hopen hlast) hhot⟩
  · intro hopen last hlast hcool
    have hpass := pass?_of_cool hopen (hopened hopen hlast) hcool
    refine ⟨sent_lt_rates_iff hpass, ?_, fun base targets flaw => rates_of_unwritable hpass⟩
    rw [isHealthy_snd]
    exact sent_lt_rates_iff hpass "USD" ["EUR"]

/-- The breaker of a client that opens at once follows a service that fails. -/
theorem breaker_of_run_failing :
    let config := { Settings.Service.default.client with threshold := 1, maxRetries := 0 }
    let start : Client × Channel :=
      (.ofConfig config, ⟨.earliest, [⟨.zero, .status 503 []⟩], [], []⟩)
    1 ≤ config.threshold ∧ (run start [.rates "USD" ["EUR"]]).1.breaker.state = .opened ∧
      Follows (history start [.rates "USD" ["EUR"]]) (run start [.rates "USD" ["EUR"]]).1
        (run start [.rates "USD" ["EUR"]]).2 := by
  refine ⟨Nat.le_refl 1, by decide +kernel, ?_⟩
  exact breaker_of_run { Settings.Service.default.client with threshold := 1, maxRetries := 0 }
    ⟨.earliest, [⟨.zero, .status 503 []⟩], [], []⟩ [.rates "USD" ["EUR"]] (Nat.le_refl 1)

/-- A body that is an array with a number beyond all bounds is a failure that goes uncounted. -/
theorem failures_ne_of_overlong :
    let config := { Settings.Service.default.client with threshold := 1, maxRetries := 0 }
    let body : List UInt8 := [91, 49, 101] ++ List.replicate 19 57
    let start : Client × Channel :=
      (.ofConfig config, ⟨.earliest, [⟨.zero, .status 200 body⟩], [], []⟩)
    (run start [.rates "USD" ["EUR"]]).1.breaker.failures = 0 ∧
      (recent (history start [.rates "USD" ["EUR"]])).countP (Event.meets Answer.isFailed) = 1 := by
  decide +kernel

end Cambio.Client
