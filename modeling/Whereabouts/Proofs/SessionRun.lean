import Mathlib.Data.List.DropRight
import Whereabouts.Proofs.Queue
import Whereabouts.Proofs.RosterHistory
import Whereabouts.Session.Basic

/-! # Runs of a session

A run is a session together with the calls that were made of it and what they answered.  Others
may count in the registry between two calls, so a call may find it in any state.

What a session owes the application for a key depends on the requests for that key since it was
last settled: `owed`.  The queue keeps exactly this (`awaits?_of_run`), although it holds one entry
a key, drops requests when it is full and knows nothing of records, so every record and every
failure is settled as it should be (`Run.settlement`).

The roster of a session is what the records that it read and the removals leave (`Run.roster`), so
what is known of rosters holds of sessions. -/

namespace Whereabouts

/-- The same step with its answer seen in another way. -/
def Step.map {α β : Type} (f : α → β) (s : Step α) : Step β where
  answer := f s.answer
  session := s.session
  metrics := s.metrics
  events := s.events
  observed := s.observed

namespace Session

inductive Call where
  | receive (data : Bytes)
  | ask (handle : String) (kind : Request.Kind)
  | fail (handle : String)
  | forget (handle : String)
  | encodeKnown (handle : String)
  | announce (a : Announcement)

inductive Reply where
  | received (answer : Except Fault Settlement)
  | asked (fate : Request.Fate)
  | failed (told : Bool)
  | forgotten (known : Option Record)
  | encoded (bytes : Option Bytes)
  | announced (bytes : Bytes)

def call (s : Session) (m : Metrics) : Call → Step Reply
  | .receive data => (s.receive m data).map .received
  | .ask handle kind => (s.ask m handle kind).map .asked
  | .fail handle => (s.fail m handle).map .failed
  | .forget handle => (s.forget m handle).map .forgotten
  | .encodeKnown handle =>
      { answer := .encoded (s.encodeKnown? handle), session := s, metrics := m }
  | .announce a => (s.announce m a).map .announced

structure Occurrence where
  call : Call
  reply : Reply

/-- `Run settings history s`: the session `s` was started with the settings, and then the calls of
the history were made, the last of which stands last. -/
inductive Run (settings : Settings) : List Occurrence → Session → Prop where
  | start : Run settings [] (.start settings)
  | call {history : List Occurrence} {s : Session} (run : Run settings history s) (m : Metrics)
      (c : Call) : Run settings (history ++ [⟨c, (s.call m c).answer⟩]) (s.call m c).session

/-! ### What is owed -/

namespace Occurrence

/-- Whether a key is settled: by a record that was read, or by a failure. -/
def settles (key : String) (o : Occurrence) : Bool :=
  match o.call, o.reply with
  | .receive data, .received (.ok _) =>
      match Record.decode catalogue data with
      | .ok reading => reading.record.key == key
      | .error _ => false
  | .fail handle, _ => Handle.key handle == key
  | _, _ => false

/-- Whether a key is asked for in one of the two ways, and the request is not dropped. -/
def accepts (key : String) (kind : Request.Kind) (o : Occurrence) : Bool :=
  match o.call, o.reply with
  | .ask handle asked, .asked fate =>
      Handle.key handle == key && asked == kind && fate != .dropped
  | _, _ => false

end Occurrence

/-- Whether a key was asked for, in one of the two ways, since it was last settled. -/
def asked (key : String) (kind : Request.Kind) (history : List Occurrence) : Bool :=
  (history.rtakeWhile fun o => !o.settles key).any fun o => o.accepts key kind

/-- How a key is awaited after a history. -/
def owed (key : String) (history : List Occurrence) : Option Request.Kind :=
  if asked key .explicit history then some .explicit
  else if asked key .implicit history then some .implicit
  else none

theorem asked_concat (key : String) (kind : Request.Kind) (history : List Occurrence)
    (o : Occurrence) :
    asked key kind (history ++ [o]) =
      (!o.settles key && (asked key kind history || o.accepts key kind)) := by
  rw [asked, List.rtakeWhile_concat]
  cases o.settles key with
  | true => rfl
  | false => simp [asked]

theorem owed_settled {key : String} {history : List Occurrence} {o : Occurrence}
    (h : o.settles key = true) : owed key (history ++ [o]) = none := by
  simp [owed, asked_concat, h]

theorem owed_accepted {key : String} {history : List Occurrence} {o : Occurrence}
    {kind : Request.Kind} (hs : o.settles key = false)
    (ha : ∀ k, o.accepts key k = (kind == k)) :
    owed key (history ++ [o]) = some (.join (owed key history) kind) := by
  simp only [owed, asked_concat, hs, ha]
  cases asked key .explicit history <;> cases asked key .implicit history <;> cases kind <;> rfl

theorem owed_passed {key : String} {history : List Occurrence} {o : Occurrence}
    (hs : o.settles key = false) (ha : ∀ k, o.accepts key k = false) :
    owed key (history ++ [o]) = owed key history := by
  simp [owed, asked_concat, hs, ha]

/-! ### Calls and the queue -/

variable (s : Session) (m : Metrics)

theorem receive_of_ok {data : Bytes} {reading : Reading}
    (h : Record.decode catalogue data = .ok reading) :
    (s.receive m data).answer = .ok (.ofKind (s.queue.awaits? reading.record.key)) ∧
      (s.receive m data).session.queue = (s.queue.resolve reading.record.handle).1 := by
  simp only [receive, h]
  exact ⟨congrArg (Except.ok ∘ Settlement.ofKind) (s.queue.resolve_snd reading.record.handle), rfl⟩

theorem receive_of_error {data : Bytes} {fault : Fault}
    (h : Record.decode catalogue data = .error fault) :
    (s.receive m data).answer = .error fault ∧ (s.receive m data).session = s := by
  simp only [receive, h, and_self]

theorem queue_forget (handle : String) : (s.forget m handle).session.queue = s.queue := by
  unfold forget
  split
  · rfl
  · rfl

variable {s m}

/-- A record changes what is awaited as it changes what is owed. -/
theorem awaits?_receive {history : List Occurrence} {key : String}
    (h : s.queue.awaits? key = owed key history) (data : Bytes) :
    (s.receive m data).session.queue.awaits? key =
      owed key (history ++ [⟨.receive data, .received (s.receive m data).answer⟩]) := by
  cases hdecode : Record.decode catalogue data with
  | error fault =>
      obtain ⟨hanswer, hsession⟩ := receive_of_error s m hdecode
      rw [hanswer, hsession, owed_passed rfl fun _ => rfl]
      exact h
  | ok reading =>
      obtain ⟨hanswer, hqueue⟩ := receive_of_ok s m hdecode
      rw [hanswer, hqueue, RequestQueue.awaits?_resolve]
      by_cases hkey : Handle.key reading.record.handle = key
      · rw [if_pos hkey, owed_settled]
        simp only [Occurrence.settles, hdecode]
        exact beq_iff_eq.mpr hkey
      · rw [if_neg hkey, owed_passed _ fun _ => rfl]
        · exact h
        · simp only [Occurrence.settles, hdecode]
          exact beq_eq_false_iff_ne.mpr hkey

theorem awaits?_call {history : List Occurrence} {key : String}
    (h : s.queue.awaits? key = owed key history) (c : Call) :
    (s.call m c).session.queue.awaits? key =
      owed key (history ++ [⟨c, (s.call m c).answer⟩]) := by
  cases c with
  | receive data => exact awaits?_receive h data
  | ask handle kind =>
      show (s.queue.request handle kind).1.awaits? key =
        owed key (history ++ [⟨.ask handle kind, .asked (s.queue.request handle kind).2⟩])
      rw [RequestQueue.awaits?_request]
      -- A repeat counts as asked for, although the queue stays as it is.
      by_cases hnew : Handle.key handle = key ∧ (s.queue.request handle kind).2 ≠ .dropped
      · rw [if_pos hnew, h, owed_accepted rfl]
        intro k
        simp [Occurrence.accepts, hnew.1, hnew.2]
      · rw [if_neg hnew, h, owed_passed rfl]
        intro k
        rw [not_and_or, not_not] at hnew
        rcases hnew with hkey | hfate
        · simp [Occurrence.accepts, hkey]
        · simp [Occurrence.accepts, hfate]
  | fail handle =>
      show (s.queue.resolve handle).1.awaits? key = _
      rw [RequestQueue.awaits?_resolve]
      by_cases hkey : Handle.key handle = key
      · rw [if_pos hkey, owed_settled]
        exact beq_iff_eq.mpr hkey
      · rw [if_neg hkey, owed_passed _ fun _ => rfl]
        · exact h
        · exact beq_eq_false_iff_ne.mpr hkey
  | forget handle =>
      rw [owed_passed rfl fun _ => rfl, ← h]
      exact congrArg (RequestQueue.awaits? · key) (queue_forget s m handle)
  | encodeKnown handle =>
      rw [owed_passed rfl fun _ => rfl]
      exact h
  | announce a =>
      rw [owed_passed rfl fun _ => rfl]
      exact h

/-! ### Runs -/

/-- **The queue awaits exactly what is owed.** -/
theorem awaits?_of_run {settings : Settings} {history : List Occurrence}
    (run : Run settings history s) (key : String) : s.queue.awaits? key = owed key history := by
  induction run with
  | start => exact RequestQueue.awaits?_empty settings.maxPending key
  | call _ m c ih => exact awaits?_call ih c

theorem ofKind_owed (key : String) (history : List Occurrence) :
    (Settlement.ofKind (owed key history) = .explicit ↔ asked key .explicit history = true) ∧
    (Settlement.ofKind (owed key history) = .implicit ↔
      asked key .explicit history = false ∧ asked key .implicit history = true) ∧
    (Settlement.ofKind (owed key history) = .unsolicited ↔
      asked key .explicit history = false ∧ asked key .implicit history = false) := by
  unfold owed
  cases asked key .explicit history <;> cases asked key .implicit history <;>
    simp [Settlement.ofKind]

/-- **Every record and every failure is settled by what was asked for** since the last time. -/
theorem Run.settlement {settings : Settings} {history : List Occurrence}
    (run : Run settings history s) (m : Metrics) :
    (∀ data settlement, (s.receive m data).answer = .ok settlement →
      ∃ reading, Record.decode catalogue data = .ok reading ∧
        (settlement = .explicit ↔ asked reading.record.key .explicit history = true) ∧
        (settlement = .implicit ↔
          asked reading.record.key .explicit history = false ∧
            asked reading.record.key .implicit history = true) ∧
        (settlement = .unsolicited ↔
          asked reading.record.key .explicit history = false ∧
            asked reading.record.key .implicit history = false)) ∧
    ∀ handle, (s.fail m handle).answer = asked (Handle.key handle) .explicit history := by
  constructor
  · intro data settlement hanswer
    cases hdecode : Record.decode catalogue data with
    | error fault =>
        rw [(receive_of_error s m hdecode).1] at hanswer
        cases hanswer
    | ok reading =>
        rw [(receive_of_ok s m hdecode).1, awaits?_of_run run] at hanswer
        obtain rfl := Except.ok.inj hanswer
        exact ⟨reading, rfl, ofKind_owed reading.record.key history⟩
  · intro handle
    show decide (Settlement.ofKind (s.queue.resolve handle).2 = .explicit) = _
    rw [RequestQueue.resolve_snd, awaits?_of_run run, Bool.eq_iff_iff, decide_eq_true_iff]
    exact (ofKind_owed (Handle.key handle) history).1

/-- A request of the application outlives a repeat, a damaged record and a removal, and is settled
under another spelling. -/
theorem Run.settlement_spellings :
    ∃ history s, Run {} history s ∧ (s.fail {} "ANN").answer = true ∧
      (s.receive {} [3, 65, 110, 110, 0, 0, 0, 0]).answer = .ok .explicit ∧
      ∃ reading, Record.decode catalogue [3, 65, 110, 110, 0, 0, 0, 0] = .ok reading ∧
        asked reading.record.key .explicit history = true := by
  have run : Run {} _ _ :=
    .call (.call (.call (.call .start {} (.ask "ann" .implicit)) {} (.ask "a NN" .explicit)) {}
      (.receive [3, 65])) {} (.forget "Ann")
  obtain ⟨hreceive, hfail⟩ := run.settlement {}
  have hanswer := hreceive [3, 65, 110, 110, 0, 0, 0, 0] .explicit (by decide +kernel)
  obtain ⟨reading, hdecode, hexplicit, -⟩ := hanswer
  exact ⟨_, _, run, (hfail "ANN").trans (by decide +kernel), by decide +kernel, reading, hdecode,
    hexplicit.mp rfl⟩

/-! ### The roster -/

/-- What a call does to the roster. -/
def Call.op? : Call → Option Roster.Op
  | .receive data =>
      match Record.decode catalogue data with
      | .ok reading => some (.merge reading.record)
      | .error _ => none
  | .forget handle => some (.erase handle)
  | _ => none

/-- What a history does to the roster. -/
def rosterOps (history : List Occurrence) : List Roster.Op := history.filterMap fun o => o.call.op?

theorem roster_call (s : Session) (m : Metrics) (c : Call) :
    (s.call m c).session.roster = c.op?.toList.foldl Roster.perform s.roster := by
  cases c with
  | receive data =>
      show (s.receive m data).session.roster = _
      cases hdecode : Record.decode catalogue data with
      | error fault =>
          rw [(receive_of_error s m hdecode).2, Call.op?, hdecode]
          rfl
      | ok reading =>
          simp only [receive, Call.op?, hdecode]
          rfl
  | forget handle =>
      show (s.forget m handle).session.roster = s.roster.erase handle
      unfold forget
      split
      · rename_i hnone
        exact (Roster.erase_of_find?_eq_none hnone).symm
      · rfl
  | _ => rfl

theorem Run.roster {settings : Settings} {history : List Occurrence} {s : Session}
    (run : Run settings history s) : s.roster = .run (rosterOps history) := by
  induction run with
  | start => rfl
  | @call history s _ m c ih =>
      rw [roster_call, ih, rosterOps, rosterOps, List.filterMap_append, Roster.run, Roster.run,
        List.foldl_append]
      cases h : c.op? <;> simp [h]

end Session
end Whereabouts
