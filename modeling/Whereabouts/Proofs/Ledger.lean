import Whereabouts.Proofs.QueueHistory
import Whereabouts.Proofs.SharedRegistry
import Whereabouts.Proofs.Truncation

/-! # The ledger of a shared registry

The counters of a registry are a ledger of the sessions that share it.  Requests of a kind that
were taken on were answered, failed, or wait (`RequestLedger`).  Records from the wire were read or
not, and each that was read went into a roster, settled what waited for it and was shown to the
observer once (`RecordLedger`).

A call changes both sides of each account by as much (`balances_call`, `counted_call`), so they
agree after every run (`SharedRun.ledger`).  Counters wrap, so all sums are sums of words. -/

namespace Whereabouts

/-! ### Requests that wait -/

namespace RequestQueue

/-- How many requests of a kind wait. -/
def waiting (q : RequestQueue) (kind : Request.Kind) : Nat :=
  q.requests.countP fun r => r.kind = kind

variable (q : RequestQueue)

/-- A request makes one more wait if it is queued, and one of the other kind if it upgrades it. -/
theorem waiting_request (handle : String) (kind : Request.Kind) :
    (q.request handle kind).1.waiting .explicit = q.waiting .explicit +
        (if kind = .explicit ∧ (q.request handle kind).2 = .queued then 1 else 0) +
        (if kind = .explicit ∧ (q.request handle kind).2 = .upgraded then 1 else 0) ∧
      (q.request handle kind).1.waiting .implicit +
          (if kind = .explicit ∧ (q.request handle kind).2 = .upgraded then 1 else 0) =
        q.waiting .implicit +
          (if kind = .implicit ∧ (q.request handle kind).2 = .queued then 1 else 0) := by
  have hlaw := requestLaw q handle kind
  cases hfate : (q.request handle kind).2 with
  | queued =>
      unfold waiting
      rw [hlaw.queued hfate]
      cases kind <;> simp
  | upgraded =>
      have hkind := (hlaw.upgraded_iff.mp hfate).1
      obtain ⟨front, r, back, hold, -, himplicit, hnew⟩ := hlaw.upgraded hfate
      unfold waiting
      rw [hold, hnew]
      simp [hkind, himplicit]
      omega
  | duplicate =>
      rw [hlaw.unchanged (.inr hfate)]
      simp
  | dropped =>
      rw [hlaw.unchanged (.inl hfate)]
      simp

theorem waiting_resolve (handle : String) (kind : Request.Kind) :
    (q.resolve handle).1.waiting kind + (if (q.resolve handle).2 = some kind then 1 else 0) =
      q.waiting kind := by
  obtain ⟨front, back, hold, hnew, -⟩ := (settleLaw q handle).parted
  unfold waiting
  rw [(settleLaw q handle).answer, hold, hnew]
  cases q.atKey? (Handle.key handle) with
  | none => simp
  | some r =>
      simp [List.countP_cons]
      omega

end RequestQueue

/-! ### Accounts -/

theorem Request.Kind.name_inj (a b : Request.Kind) : a.name = b.name ↔ a = b := by
  cases a <;> cases b <;> decide

theorem Request.Fate.name_inj (a b : Request.Fate) : a.name = b.name ↔ a = b := by
  cases a <;> cases b <;> decide

theorem Roster.Change.name_inj (a b : Roster.Change) : a.name = b.name ↔ a = b := by
  cases a <;> cases b <;> decide

namespace Settlement

theorem name_inj (a b : Settlement) : a.name = b.name ↔ a = b := by
  cases a <;> cases b <;> decide

theorem failureName_inj (a b : Settlement) : a.failureName = b.failureName ↔ a = b := by
  cases a <;> cases b <;> decide

theorem name_ne_failureName (a b : Settlement) : a.name ≠ b.failureName := by
  cases a <;> cases b <;> decide

theorem ofKind_eq_iff (answer : Option Request.Kind) (kind : Request.Kind) :
    ofKind answer = ofKind (some kind) ↔ answer = some kind := by
  rcases answer with _ | answer
  · cases kind <;> decide
  · cases answer <;> cases kind <;> decide

end Settlement

namespace Metrics

variable (m : Metrics)

/-- How many requests of a kind met a fate. -/
def asked (kind : Request.Kind) (fate : Request.Fate) : UInt64 :=
  m.requests.get [("kind", kind.name), ("outcome", fate.name)]

/-- How many records were settled in some way. -/
def settled (s : Settlement) : UInt64 := m.resolutions.get [("outcome", s.name)]

/-- How many failures were settled in some way. -/
def failed (s : Settlement) : UInt64 := m.resolutions.get [("outcome", s.failureName)]

/-- How many records made some change to a roster. -/
def merged (change : Roster.Change) : UInt64 := m.cacheMerges.get [("result", change.name)]

/-- How many records were read. -/
def decoded : UInt64 := m.recordsDecoded.get []

/-- How many records were cut short. -/
def truncated : UInt64 := m.decodeFailures.get [("code", "TRUNCATED")]

/-- How many requests of a kind were taken on. -/
def taken : Request.Kind → UInt64
  | .explicit => m.asked .explicit .queued + m.asked .explicit .upgraded
  | .implicit => m.asked .implicit .queued

/-- How many requests of a kind were disposed of.  An upgraded request is no longer implicit. -/
def discharged (kind : Request.Kind) : UInt64 :=
  m.settled (.ofKind (some kind)) + m.failed (.ofKind (some kind)) +
    match kind with
    | .explicit => 0
    | .implicit => m.asked .explicit .upgraded

end Metrics

theorem word_indicator (p : Prop) [Decidable p] :
    UInt64.ofNat (if p then 1 else 0) = if p then 1 else 0 := by
  split_ifs
  · rfl
  · rfl

namespace Session

/-! ### Requests -/

section requests

variable (s : Session) (m : Metrics)

theorem asked_ask (handle : String) (kind k : Request.Kind) (f : Request.Fate) :
    (s.ask m handle kind).metrics.asked k f =
      m.asked k f + if kind = k ∧ (s.queue.request handle kind).2 = f then 1 else 0 := by
  have hinc := m.requests.get_inc_pair (by decide : "kind" ≠ "outcome") kind.name
    (s.queue.request handle kind).2.name k.name f.name
  simp only [Request.Kind.name_inj, Request.Fate.name_inj] at hinc
  exact hinc

theorem settled_countResolution (a b : Settlement) :
    (countResolution m a.name).settled b = m.settled b + if a = b then 1 else 0 := by
  have hinc := m.resolutions.get_inc_single "outcome" a.name b.name
  simp only [Settlement.name_inj] at hinc
  exact hinc

theorem failed_countResolution (a b : Settlement) :
    (countResolution m a.name).failed b = m.failed b := by
  have hinc := m.resolutions.get_inc_single "outcome" a.name b.failureName
  rw [if_neg (Settlement.name_ne_failureName a b), UInt64.add_zero] at hinc
  exact hinc

theorem settled_countFailure (a b : Settlement) :
    (countResolution m a.failureName).settled b = m.settled b := by
  have hinc := m.resolutions.get_inc_single "outcome" a.failureName b.name
  rw [if_neg (Settlement.name_ne_failureName b a).symm, UInt64.add_zero] at hinc
  exact hinc

theorem failed_countFailure (a b : Settlement) :
    (countResolution m a.failureName).failed b = m.failed b + if a = b then 1 else 0 := by
  have hinc := m.resolutions.get_inc_single "outcome" a.failureName b.failureName
  simp only [Settlement.failureName_inj] at hinc
  exact hinc

variable {m} in
theorem discharged_of_requests {m' : Metrics} {kind : Request.Kind} {v : UInt64}
    (hrequests : m'.requests = m.requests)
    (h : m'.settled (.ofKind (some kind)) + m'.failed (.ofKind (some kind)) =
      m.settled (.ofKind (some kind)) + m.failed (.ofKind (some kind)) + v) :
    m'.discharged kind = m.discharged kind + v := by
  have hasked : m'.asked .explicit .upgraded = m.asked .explicit .upgraded := by
    unfold Metrics.asked
    rw [hrequests]
  unfold Metrics.discharged
  rw [h, hasked]
  cases kind with
  | explicit => exact (UInt64.add_zero _).trans (congrArg (· + v) (UInt64.add_zero _).symm)
  | implicit =>
      show _ + v + m.asked .explicit .upgraded = _ + m.asked .explicit .upgraded + v
      grind

theorem discharged_countResolution (answer : Option Request.Kind) (kind : Request.Kind) :
    (countResolution m (Settlement.ofKind answer).name).discharged kind =
      m.discharged kind + if answer = some kind then 1 else 0 := by
  have hsettled := settled_countResolution m (.ofKind answer) (.ofKind (some kind))
  simp only [Settlement.ofKind_eq_iff] at hsettled
  refine discharged_of_requests rfl ?_
  rw [hsettled, failed_countResolution]
  grind

theorem discharged_countFailure (answer : Option Request.Kind) (kind : Request.Kind) :
    (countResolution m (Settlement.ofKind answer).failureName).discharged kind =
      m.discharged kind + if answer = some kind then 1 else 0 := by
  have hfailed := failed_countFailure m (.ofKind answer) (.ofKind (some kind))
  simp only [Settlement.ofKind_eq_iff] at hfailed
  refine discharged_of_requests rfl ?_
  rw [settled_countFailure, hfailed, UInt64.add_assoc]

/-- A step that keeps the account of a kind: what was taken on beyond what was disposed of changes
by as much as what waits. -/
def Balances {α : Type} (s : Session) (m : Metrics) (kind : Request.Kind) (step : Step α) : Prop :=
  step.metrics.taken kind + m.discharged kind + .ofNat (s.queue.waiting kind) =
    m.taken kind + step.metrics.discharged kind + .ofNat (step.session.queue.waiting kind)

/-- Settling a key takes from what waits what it adds to what was disposed of. -/
theorem balances_of_resolve {α : Type} {step : Step α} {kind : Request.Kind} (handle : String)
    (hqueue : step.session.queue = (s.queue.resolve handle).1)
    (htaken : step.metrics.taken kind = m.taken kind)
    (hdischarged : step.metrics.discharged kind =
      m.discharged kind + if (s.queue.resolve handle).2 = some kind then 1 else 0) :
    Balances s m kind step := by
  unfold Balances
  rw [hqueue, htaken, hdischarged, ← s.queue.waiting_resolve handle kind, UInt64.ofNat_add,
    word_indicator]
  grind

theorem balances_receive (data : Bytes) (kind : Request.Kind) :
    Balances s m kind (s.receive m data) := by
  unfold receive
  cases Record.decode catalogue data with
  | error fault => rfl
  | ok reading =>
      have hmetrics := metrics_accept s m reading
      refine balances_of_resolve s m reading.record.handle rfl ?_ ?_
      · show (s.accept m reading).metrics.taken kind = _
        rw [hmetrics]
        rfl
      · show (s.accept m reading).metrics.discharged kind = _
        rw [← discharged_countResolution, hmetrics]
        rfl

theorem balances_ask (handle : String) (asked kind : Request.Kind) :
    Balances s m kind (s.ask m handle asked) := by
  obtain ⟨hexplicit, himplicit⟩ := s.queue.waiting_request handle asked
  show (s.ask m handle asked).metrics.taken kind + _ + _ =
    _ + _ + .ofNat ((s.queue.request handle asked).1.waiting kind)
  cases kind with
  | explicit =>
      have hwaiting := congrArg UInt64.ofNat hexplicit
      have hdischarged : (s.ask m handle asked).metrics.discharged .explicit =
          m.discharged .explicit := rfl
      simp only [UInt64.ofNat_add, word_indicator] at hwaiting
      simp only [Metrics.taken, asked_ask, hwaiting, hdischarged]
      grind
  | implicit =>
      have hwaiting := congrArg UInt64.ofNat himplicit
      -- An upgraded request was implicit before.
      have hdischarged : (s.ask m handle asked).metrics.discharged .implicit =
          m.discharged .implicit +
            if asked = .explicit ∧ (s.queue.request handle asked).2 = .upgraded then 1 else 0 := by
        unfold Metrics.discharged
        dsimp only
        rw [asked_ask, ← UInt64.add_assoc]
        rfl
      simp only [UInt64.ofNat_add, word_indicator] at hwaiting
      simp only [Metrics.taken, asked_ask, hdischarged]
      grind

theorem balances_fail (handle : String) (kind : Request.Kind) :
    Balances s m kind (s.fail m handle) :=
  balances_of_resolve s m handle rfl rfl (discharged_countFailure m _ kind)

theorem balances_forget (handle : String) (kind : Request.Kind) :
    Balances s m kind (s.forget m handle) := by
  unfold forget
  cases s.find? handle with
  | none => rfl
  | some known => rfl

theorem balances_call (c : Call) (kind : Request.Kind) : Balances s m kind (s.call m c) := by
  cases c with
  | receive data => exact balances_receive s m data kind
  | ask handle asked => exact balances_ask s m handle asked kind
  | fail handle => exact balances_fail s m handle kind
  | forget handle => exact balances_forget s m handle kind
  | encodeKnown handle => rfl
  | announce a => rfl

end requests

/-! ### Records -/

/-- The record from the wire that a deed takes in, if any. -/
def Deed.data? (d : Deed) : Option Bytes :=
  match d.call with
  | .receive data => some data
  | _ => none

/-- The record that is read, if any. -/
def Deed.readings (d : Deed) : List Reading :=
  (d.data?.bind fun data => (Record.decode catalogue data).toOption).toList

/-- What a deed adds to the counters of records: one to each, for a record that is read. -/
structure Counted (d : Deed) (m : Metrics) : Prop where
  observed : d.step.observed.length = d.readings.length
  decoded : d.step.metrics.decoded = m.decoded + .ofNat d.readings.length
  received : d.step.metrics.decoded + d.step.metrics.truncated =
    m.decoded + m.truncated + if d.data?.isSome then 1 else 0
  merged : d.step.metrics.merged .created + d.step.metrics.merged .updated =
    m.merged .created + m.merged .updated + .ofNat d.readings.length
  settled : d.step.metrics.settled .explicit + d.step.metrics.settled .implicit +
      d.step.metrics.settled .unsolicited =
    m.settled .explicit + m.settled .implicit + m.settled .unsolicited +
      .ofNat d.readings.length
  unmatched : d.step.metrics.unmatchedCapabilities.get [] =
    m.unmatchedCapabilities.get [] + .ofNat (d.readings.map Reading.unmatched).sum
  unknown : d.step.metrics.unknownFields.get [] =
    m.unknownFields.get [] + .ofNat (d.readings.map Reading.unknown).sum

section records

variable {m : Metrics} {d : Deed}

/-- A deed that reads no record adds nothing but what was cut short. -/
theorem counted_of_unread (hreadings : d.readings = []) (hobserved : d.step.observed = [])
    (hmetrics : d.step.metrics =
      { m with
        decodeFailures := d.step.metrics.decodeFailures
        cacheEntries := d.step.metrics.cacheEntries
        requests := d.step.metrics.requests
        resolutions := d.step.metrics.resolutions })
    (htruncated : d.step.metrics.truncated = m.truncated + if d.data?.isSome then 1 else 0)
    (hsettled : ∀ t, d.step.metrics.settled t = m.settled t) : Counted d m := by
  refine { observed := ?_, decoded := ?_, received := ?_, merged := ?_, settled := ?_,
           unmatched := ?_, unknown := ?_ }
  · rw [hobserved, hreadings]
    rfl
  · rw [hreadings, hmetrics]
    exact (UInt64.add_zero _).symm
  · rw [htruncated, hmetrics]
    exact (UInt64.add_assoc _ _ _).symm
  · rw [hreadings, hmetrics]
    exact (UInt64.add_zero _).symm
  · rw [hreadings, hsettled, hsettled, hsettled]
    exact (UInt64.add_zero _).symm
  · rw [hreadings, hmetrics]
    exact (UInt64.add_zero _).symm
  · rw [hreadings, hmetrics]
    exact (UInt64.add_zero _).symm

variable (s : Session) (m : Metrics)

theorem readings_receive (data : Bytes) (step : Step Reply) :
    Deed.readings ⟨.receive data, step⟩ = (Record.decode catalogue data).toOption.toList := rfl

theorem counted_receive_of_error {data : Bytes} {fault : Fault}
    (h : Record.decode catalogue data = .error fault) :
    Counted ⟨.receive data, (s.receive m data).map .received⟩ m := by
  simp only [receive, h]
  refine counted_of_unread ?_ rfl rfl ?_ fun _ => rfl
  · rw [readings_receive, h]
    rfl
  · show (m.decodeFailures.inc [("code", fault.code)]).get _ = _
    rw [Record.code_of_decode catalogue h]
    exact m.decodeFailures.get_add_self _ 1

section accept

variable (reading : Reading)

theorem decoded_accept : (s.accept m reading).metrics.decoded = m.decoded + 1 := by
  rw [metrics_accept]
  exact m.recordsDecoded.get_add_self [] 1

theorem truncated_accept : (s.accept m reading).metrics.truncated = m.truncated := by
  rw [metrics_accept]
  rfl

theorem merged_accept (change : Roster.Change) :
    (s.accept m reading).metrics.merged change =
      m.merged change + if (s.roster.merge reading.record).2.2 = change then 1 else 0 := by
  have hinc := m.cacheMerges.get_inc_single "result" (s.roster.merge reading.record).2.2.name
    change.name
  simp only [Roster.Change.name_inj] at hinc
  rw [metrics_accept]
  exact hinc

theorem settled_accept (t : Settlement) :
    (s.accept m reading).metrics.settled t = m.settled t +
      if .ofKind (s.queue.resolve reading.record.handle).2 = t then 1 else 0 := by
  rw [metrics_accept]
  exact settled_countResolution m _ t

theorem unmatched_accept :
    (s.accept m reading).metrics.unmatchedCapabilities.get [] =
      m.unmatchedCapabilities.get [] + .ofNat reading.unmatched := by
  rw [metrics_accept]
  exact m.unmatchedCapabilities.get_add_unless_zero [] reading.unmatched

theorem unknown_accept :
    (s.accept m reading).metrics.unknownFields.get [] =
      m.unknownFields.get [] + .ofNat reading.unknown := by
  rw [metrics_accept]
  exact m.unknownFields.get_add_unless_zero [] reading.unknown

end accept

theorem counted_receive_of_ok {data : Bytes} {reading : Reading}
    (h : Record.decode catalogue data = .ok reading) :
    Counted ⟨.receive data, (s.receive m data).map .received⟩ m := by
  have hstep : (s.receive m data).map Reply.received =
      (s.accept m reading).map fun t => .received (.ok t) := by
    simp only [receive, h]
    rfl
  have hreadings : ∀ step, Deed.readings ⟨.receive data, step⟩ = [reading] := by
    intro step
    rw [readings_receive, h]
    rfl
  rw [hstep]
  refine { observed := ?_, decoded := ?_, received := ?_, merged := ?_, settled := ?_,
           unmatched := ?_, unknown := ?_ }
  · rw [hreadings]
    rfl
  · rw [hreadings]
    exact decoded_accept s m reading
  · show (s.accept m reading).metrics.decoded + (s.accept m reading).metrics.truncated = _ + 1
    rw [decoded_accept, truncated_accept]
    grind
  · -- A change to a roster is of one sort.
    rw [hreadings]
    simp only [Step.map, merged_accept]
    show _ = _ + 1
    cases (s.roster.merge reading.record).2.2 <;> grind
  · -- A record is settled in one way.
    rw [hreadings]
    simp only [Step.map, settled_accept]
    show _ = _ + 1
    cases Settlement.ofKind (s.queue.resolve reading.record.handle).2 <;> grind
  · rw [hreadings]
    exact unmatched_accept s m reading
  · rw [hreadings]
    exact unknown_accept s m reading

theorem counted_call (c : Call) : Counted ⟨c, s.call m c⟩ m := by
  have hnone : m.truncated = m.truncated + if (none : Option Bytes).isSome then 1 else 0 :=
    (UInt64.add_zero _).symm
  cases c with
  | receive data =>
      cases hdecode : Record.decode catalogue data with
      | error fault => exact counted_receive_of_error s m hdecode
      | ok reading => exact counted_receive_of_ok s m hdecode
  | ask handle kind => exact counted_of_unread rfl rfl rfl hnone fun _ => rfl
  | fail handle => exact counted_of_unread rfl rfl rfl hnone (settled_countFailure m _)
  | forget handle =>
      show Counted ⟨.forget handle, (s.forget m handle).map .forgotten⟩ m
      unfold forget
      cases s.find? handle with
      | none => exact counted_of_unread rfl rfl rfl hnone fun _ => rfl
      | some known => exact counted_of_unread rfl rfl rfl hnone fun _ => rfl
  | encodeKnown handle => exact counted_of_unread rfl rfl rfl hnone fun _ => rfl
  | announce a => exact counted_of_unread rfl rfl rfl hnone fun _ => rfl

end records

/-! ### Runs -/

/-- What became of the requests of some sessions: each that was taken on was answered, failed, or
waits. -/
structure RequestLedger (sessions : List Session) (m : Metrics) : Prop where
  explicit : m.asked .explicit .queued + m.asked .explicit .upgraded =
    m.settled .explicit + m.failed .explicit + .ofNat (total (·.queue.waiting .explicit) sessions)
  /-- What was upgraded is implicit no longer. -/
  implicit : m.asked .implicit .queued =
    m.asked .explicit .upgraded + m.settled .implicit + m.failed .implicit +
      .ofNat (total (·.queue.waiting .implicit) sessions)

/-- What became of the records that some deeds took in. -/
structure RecordLedger (deeds : List Deed) (m : Metrics) : Prop where
  merged : m.decoded = m.merged .created + m.merged .updated
  settled : m.decoded = m.settled .explicit + m.settled .implicit + m.settled .unsolicited
  /-- Each record that was read was shown to the observer. -/
  observed : m.decoded = .ofNat (deeds.flatMap fun d => d.step.observed).length
  /-- A record that was not read was cut short. -/
  received : m.decoded + m.truncated = .ofNat (deeds.countP fun d => d.data?.isSome)
  unmatched : m.unmatchedCapabilities.get [] =
    .ofNat ((deeds.flatMap Deed.readings).map Reading.unmatched).sum
  unknown : m.unknownFields.get [] =
    .ofNat ((deeds.flatMap Deed.readings).map Reading.unknown).sum

variable {deeds : List Deed} {sessions ended : List Session} {m : Metrics}

theorem taken_of_run (run : SharedRun deeds sessions ended m) (kind : Request.Kind) :
    m.taken kind =
      m.discharged kind + .ofNat (total (·.queue.waiting kind) (sessions ++ ended)) := by
  induction run with
  | start => cases kind <;> rfl
  | join run settings ih =>
      rw [ih, total_append, total_append, total_append]
      rfl
  | @call deeds front back ended s m run c ih =>
      -- Only the session that was called changes what waits.
      have hcall := balances_call s m c kind
      unfold Balances at hcall
      rw [ih, List.append_assoc, List.cons_append, total_parted, UInt64.ofNat_add] at hcall
      rw [List.append_assoc, List.cons_append, total_parted, UInt64.ofNat_add]
      grind
  | @finish deeds front back ended s m run ih =>
      have hmoved : total (·.queue.waiting kind) (front ++ back ++ (ended ++ [s])) =
          total (·.queue.waiting kind) (front ++ s :: back ++ ended) := by
        simp only [total_append, total_cons, total_nil]
        omega
      rw [hmoved]
      exact ih

theorem recordLedger_concat {d : Deed} (h : RecordLedger deeds m) (hd : Counted d m) :
    RecordLedger (deeds ++ [d]) d.step.metrics := by
  refine { merged := ?_, settled := ?_, observed := ?_, received := ?_, unmatched := ?_,
           unknown := ?_ }
  · rw [hd.decoded, hd.merged, h.merged]
  · rw [hd.decoded, hd.settled, h.settled]
  · rw [hd.decoded, h.observed, List.flatMap_append, List.flatMap_singleton, List.length_append,
      hd.observed, UInt64.ofNat_add]
  · rw [hd.received, h.received, List.countP_append, List.countP_singleton, UInt64.ofNat_add,
      word_indicator]
  · rw [hd.unmatched, h.unmatched, List.flatMap_append, List.flatMap_singleton, List.map_append,
      List.sum_append, UInt64.ofNat_add]
  · rw [hd.unknown, h.unknown, List.flatMap_append, List.flatMap_singleton, List.map_append,
      List.sum_append, UInt64.ofNat_add]

theorem recordLedger_of_run (run : SharedRun deeds sessions ended m) : RecordLedger deeds m := by
  induction run with
  | start => exact ⟨rfl, rfl, rfl, rfl, rfl, rfl⟩
  | join run settings ih => exact ih
  | call run c ih => exact recordLedger_concat ih (counted_call _ _ c)
  | finish run ih =>
      exact ⟨ih.merged, ih.settled, ih.observed, ih.received, ih.unmatched, ih.unknown⟩

/-- **The counters of a registry are a ledger** of the requests and the records of the sessions that
share it.  Sessions that have ended keep in it the requests that they gave up. -/
theorem SharedRun.ledger (run : SharedRun deeds sessions ended m) :
    RequestLedger (sessions ++ ended) m ∧ RecordLedger deeds m := by
  refine ⟨{ explicit := ?_, implicit := ?_ }, recordLedger_of_run run⟩
  · have htaken := taken_of_run run .explicit
    simp only [Metrics.taken, Metrics.discharged, UInt64.add_zero] at htaken
    exact htaken
  · have htaken := taken_of_run run .implicit
    simp only [Metrics.taken, Metrics.discharged] at htaken
    rw [htaken]
    show _ = _ + m.settled (.ofKind (some .implicit)) + m.failed (.ofKind (some .implicit)) + _
    grind

/-- Of two sessions, one has a request upgraded that waits; the other is told of a failure and meets
a record that it did not ask for, and one that is cut short. -/
theorem SharedRun.ledger_two_sessions :
    ∃ deeds sessions m, SharedRun deeds sessions [] m ∧
      total (·.queue.waiting .explicit) sessions = 1 ∧ m.failed .explicit = 1 ∧
      m.asked .explicit .queued + m.asked .explicit .upgraded = 2 ∧ m.settled .unsolicited = 1 ∧
      m.decoded + m.truncated = 2 := by
  have both : SharedRun _ [_, _] [] _ := .join (.join .start {}) {}
  have asked : SharedRun _ [_, _] [] _ :=
    @SharedRun.call _ [] _ _ _ _ both (.ask "Ann" .implicit)
  have upgraded : SharedRun _ [_, _] [] _ :=
    @SharedRun.call _ [] _ _ _ _ asked (.ask "a nn" .explicit)
  have other : SharedRun _ [_, _] [] _ :=
    @SharedRun.call _ [_] _ _ _ _ upgraded (.ask "Bob" .explicit)
  have failed : SharedRun _ [_, _] [] _ :=
    @SharedRun.call _ [_] _ _ _ _ other (.fail "BOB")
  have received : SharedRun _ [_, _] [] _ :=
    @SharedRun.call _ [_] _ _ _ _ failed (.receive [3, 65, 110, 110, 0, 0, 0, 0])
  have damaged : SharedRun _ [_, _] [] _ :=
    @SharedRun.call _ [_] _ _ _ _ received (.receive [3, 65])
  obtain ⟨hrequests, hrecords⟩ := damaged.ledger
  refine ⟨_, _, _, damaged, by decide +kernel, by decide +kernel, ?_, by decide +kernel, ?_⟩
  · exact hrequests.explicit.trans (by decide +kernel)
  · exact hrecords.received.trans (by decide +kernel)

end Session
end Whereabouts
