import Whereabouts.Proofs.Readings
import Whereabouts.Proofs.SessionRun

/-! # The switches of the journal

Two settings are switches: whether a session reports how many identifiers of a record were
unmatched, and how many entries were of unknown type.

They decide nothing else.  Two sessions that differ in their switches alone, and of which the same
is asked, answer alike, count alike, hold the same records and requests, and report the same but
for these two events (`steps_switched`).

The switch for unmatched identifiers governs the number and not the identifiers: each of these is
reported at the level of debugging whatever the switch says (`unmatchedReports_receive`), so it
does not silence them (`not_silent_when_off`). -/

namespace Whereabouts

/-! ### Sessions that differ in their switches -/

/-- The settings with other switches. -/
def Settings.switched (s : Settings) (unknown unmatched : Bool) : Settings :=
  { s with logUnknownFields := unknown, logUnmatchedCapabilities := unmatched }

namespace Event

/-- The messages that a switch turns on or off. -/
def switchedMessages : List String := ["unmatched capabilities", "unknown user info fields skipped"]

/-- The events that no switch decides. -/
def steady (events : List Event) : List Event :=
  events.filter fun e => e.line.message ∉ switchedMessages

theorem steady_append (a b : List Event) : steady (a ++ b) = steady a ++ steady b :=
  List.filter_append a b

end Event

namespace Session

/-- The session with other switches. -/
def switched (s : Session) (unknown unmatched : Bool) : Session :=
  { s with settings := s.settings.switched unknown unmatched }

/-- Whether two steps differ in nothing but what switches decide: the switches themselves and the
events that they turn on or off. -/
structure Agrees (unknown unmatched : Bool) {α : Type} (a b : Step α) : Prop where
  answer : b.answer = a.answer
  session : b.session = a.session.switched unknown unmatched
  metrics : b.metrics = a.metrics
  observed : b.observed = a.observed
  events : Event.steady b.events = Event.steady a.events

variable (s : Session) (m : Metrics) (unknown unmatched : Bool)

/-- What was not understood is reported in two ways, of which the switches decide the second. -/
theorem steady_readingEvents (settings : Settings) (reading : Reading) :
    Event.steady (readingEvents settings reading) =
      Event.steady (reading.remarks.map .remark) := by
  have hcapabilities : Event.steady
      [.unmatchedCapabilities reading.record.handle reading.unmatched] = [] := rfl
  have hfields : Event.steady [.unknownFields reading.record.handle reading.unknown] = [] := rfl
  have hnone : Event.steady [] = [] := rfl
  unfold readingEvents
  rw [Event.steady_append, Event.steady_append, apply_ite Event.steady, apply_ite Event.steady,
    hcapabilities, hfields, hnone, ite_self, ite_self, List.append_nil, List.append_nil]

theorem agrees_receive (data : Bytes) :
    Agrees unknown unmatched (s.receive m data) ((s.switched unknown unmatched).receive m data) := by
  unfold receive
  cases Record.decode catalogue data with
  | error fault => exact ⟨rfl, rfl, rfl, rfl, rfl⟩
  | ok reading =>
      refine ⟨rfl, rfl, rfl, rfl, ?_⟩
      show Event.steady (readingEvents _ reading ++ _) = Event.steady (readingEvents _ reading ++ _)
      rw [Event.steady_append, steady_readingEvents, Event.steady_append, steady_readingEvents]
      rfl

theorem agrees_forget (handle : String) :
    Agrees unknown unmatched (s.forget m handle)
      ((s.switched unknown unmatched).forget m handle) := by
  have hfind : (s.switched unknown unmatched).find? handle = s.find? handle := rfl
  unfold forget
  rw [hfind]
  cases s.find? handle with
  | none => exact ⟨rfl, rfl, rfl, rfl, rfl⟩
  | some known => exact ⟨rfl, rfl, rfl, rfl, rfl⟩

theorem Agrees.map {α β : Type} {unknown unmatched : Bool} {a b : Step α}
    (h : Agrees unknown unmatched a b) (f : α → β) :
    Agrees unknown unmatched (a.map f) (b.map f) :=
  ⟨congrArg f h.answer, h.session, h.metrics, h.observed, h.events⟩

/-- A call does the same whatever the switches are. -/
theorem agrees_call (c : Call) :
    Agrees unknown unmatched (s.call m c) ((s.switched unknown unmatched).call m c) := by
  cases c with
  | receive data => exact (agrees_receive s m unknown unmatched data).map _
  | forget handle => exact (agrees_forget s m unknown unmatched handle).map _
  | ask handle kind => exact ⟨rfl, rfl, rfl, rfl, rfl⟩
  | fail handle => exact ⟨rfl, rfl, rfl, rfl, rfl⟩
  | encodeKnown handle => exact ⟨rfl, rfl, rfl, rfl, rfl⟩
  | announce a => exact ⟨rfl, rfl, rfl, rfl, rfl⟩

/-! ### Calls one after the other -/

/-- The steps of calls, each of which counts in the registry that the one before it left. -/
def steps (s : Session) (m : Metrics) : List Call → List (Step Reply)
  | [] => []
  | c :: calls => s.call m c :: steps (s.call m c).session (s.call m c).metrics calls

/-- What the session leaves behind if it ends after calls. -/
def finishAfter (s : Session) (m : Metrics) : List Call → Ending
  | [] => s.finish m
  | c :: calls => finishAfter (s.call m c).session (s.call m c).metrics calls

/-- **The switches decide two events and nothing else.**  Two sessions that differ in their switches
alone agree in every step, and leave the same behind when they end. -/
theorem steps_switched (calls : List Call) :
    List.Forall₂ (Agrees unknown unmatched) (s.steps m calls)
      ((s.switched unknown unmatched).steps m calls) ∧
    (s.switched unknown unmatched).finishAfter m calls = s.finishAfter m calls := by
  induction calls generalizing s m with
  | nil => exact ⟨.nil, rfl⟩
  | cons c calls ih =>
      have hcall := agrees_call s m unknown unmatched c
      obtain ⟨hsteps, hfinish⟩ := ih (s.call m c).session (s.call m c).metrics
      unfold steps finishAfter
      rw [hcall.session, hcall.metrics]
      exact ⟨.cons hcall hsteps, hfinish⟩

end Session

/-! ### Reports of unmatched identifiers -/

namespace Event

/-- Whether an event reports unmatched identifiers: one of them, or their number. -/
def reportsUnmatched : Event → Bool
  | remark r => r.isUnmatched
  | unmatchedCapabilities .. => true
  | _ => false

/-- The events of some level, or of a more severe one, that report unmatched identifiers. -/
def unmatchedReports (least : Level) (events : List Event) : List Event :=
  events.filter fun e => least.passes e.line.level && e.reportsUnmatched

theorem unmatchedReports_append (least : Level) (a b : List Event) :
    unmatchedReports least (a ++ b) = unmatchedReports least a ++ unmatchedReports least b :=
  List.filter_append a b

/-- All reports of unmatched identifiers are made at the level of debugging. -/
theorem passes_remark {r : Remark} (h : r.isUnmatched = true) :
    Level.debug.passes (remark r).line.level = true := by
  cases r <;> first | rfl | cases h

theorem unmatchedReports_remarks (remarks : List Remark) :
    unmatchedReports .debug (remarks.map .remark) =
      (remarks.filter Remark.isUnmatched).map .remark := by
  unfold unmatchedReports
  rw [List.filter_map]
  congr 1
  refine List.filter_congr fun r _ => ?_
  show (Level.debug.passes (remark r).line.level && r.isUnmatched) = r.isUnmatched
  cases h : r.isUnmatched with
  | false => exact Bool.and_false _
  | true => rw [passes_remark h, Bool.true_and]

end Event

namespace Session

variable (s : Session) (m : Metrics)

/-- **Each unmatched identifier is reported whatever the switch says.**  The switch decides only
whether their number is reported too, so a session whose switch is off reports none exactly if
there is none. -/
theorem unmatchedReports_receive (data : Bytes) :
    (∀ fault, (s.receive m data).answer = .error fault →
      Event.unmatchedReports .debug (s.receive m data).events = []) ∧
    ∀ reading, Record.decode catalogue data = .ok reading →
      Event.unmatchedReports .debug (s.receive m data).events =
        (reading.remarks.filter Remark.isUnmatched).map .remark ++
          (if reading.unmatched ≠ 0 ∧ s.settings.logUnmatchedCapabilities then
            [.unmatchedCapabilities reading.record.handle reading.unmatched] else []) ∧
      (reading.remarks.filter Remark.isUnmatched).length = reading.unmatched ∧
      (s.settings.logUnmatchedCapabilities = false →
        (Event.unmatchedReports .debug (s.receive m data).events = [] ↔ reading.unmatched = 0)) := by
  constructor
  · intro fault hanswer
    unfold receive at hanswer ⊢
    cases hdecode : Record.decode catalogue data with
    | error other => rfl
    | ok reading =>
        rw [hdecode] at hanswer
        cases hanswer
  · intro reading hdecode
    have hcount : (reading.remarks.filter Remark.isUnmatched).length = reading.unmatched :=
      List.countP_eq_length_filter.symm.trans (Record.unmatchedRemarks_of_decode hdecode)
    have hreports : Event.unmatchedReports .debug (s.receive m data).events =
        (reading.remarks.filter Remark.isUnmatched).map .remark ++
          (if reading.unmatched ≠ 0 ∧ s.settings.logUnmatchedCapabilities then
            [.unmatchedCapabilities reading.record.handle reading.unmatched] else []) := by
      have hfields : Event.unmatchedReports .debug
          [.unknownFields reading.record.handle reading.unknown] = [] := rfl
      have hnone : Event.unmatchedReports .debug [] = [] := rfl
      have hnumber : Event.unmatchedReports .debug
          [.unmatchedCapabilities reading.record.handle reading.unmatched] =
            [.unmatchedCapabilities reading.record.handle reading.unmatched] := rfl
      have hevents : (s.receive m data).events = readingEvents s.settings reading ++
          [.merged (s.roster.merge reading.record).2.1.handle (s.roster.merge reading.record).2.2,
            .handled reading.record.handle
              (.ofKind (s.queue.resolve reading.record.handle).2)] := by
        simp only [receive, hdecode]
        rfl
      rw [hevents, Event.unmatchedReports_append]
      unfold readingEvents
      rw [Event.unmatchedReports_append, Event.unmatchedReports_append,
        Event.unmatchedReports_remarks, apply_ite (Event.unmatchedReports .debug),
        apply_ite (Event.unmatchedReports .debug), hfields, hnumber, hnone, ite_self,
        List.append_nil]
      exact List.append_nil _
    refine ⟨hreports, hcount, fun hoff => ?_⟩
    rw [hreports, if_neg (by rw [hoff]; exact fun h => Bool.false_ne_true h.2), List.append_nil,
      List.map_eq_nil_iff, ← hcount, List.length_eq_zero_iff]

/-- A session whose switch is off reads a record with the short identifier `beef`. -/
theorem unmatchedReports_receive_beef :
    ∃ reading, Record.decode catalogue [1, 97, 0, 0, 0, 1, 0, 25, 0, 2, 190, 239] = .ok reading ∧
      reading.unmatched = 1 ∧
      Event.unmatchedReports .debug ((start { logUnmatchedCapabilities := false }).receive {}
        [1, 97, 0, 0, 0, 1, 0, 25, 0, 2, 190, 239]).events =
          [.remark (.unmatchedShort [190, 239])] := by
  have hdecode : Record.decode catalogue [1, 97, 0, 0, 0, 1, 0, 25, 0, 2, 190, 239] =
      .ok ⟨{ handle := "a", advertised := some {} }, 1, 0,
        [.unmatchedShort [190, 239], .blockRead "a" 1 0]⟩ := by
    rfl
  obtain ⟨hreports, -, -⟩ :=
    (unmatchedReports_receive (start { logUnmatchedCapabilities := false }) {} _).2 _ hdecode
  exact ⟨_, hdecode, rfl, hreports⟩

/-- **The switch does not silence the reports of unmatched identifiers.** -/
theorem not_silent_when_off :
    ¬ ∀ (settings : Settings) (history : List Occurrence) (s : Session), Run settings history s →
      settings.logUnmatchedCapabilities = false → ∀ (m : Metrics) (data : Bytes),
        Event.unmatchedReports .debug (s.receive m data).events = [] := by
  intro silent
  have hnone := silent { logUnmatchedCapabilities := false } [] _ .start rfl {}
    [1, 97, 0, 0, 0, 1, 0, 25, 0, 2, 190, 239]
  revert hnone
  decide +kernel

end Session
end Whereabouts
