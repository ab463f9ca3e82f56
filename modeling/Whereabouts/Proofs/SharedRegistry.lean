import Mathlib.Algebra.Ring.Nat
import Whereabouts.Proofs.Samples
import Whereabouts.Proofs.SessionRun

/-! # Sessions that share a registry

Several sessions may count in one registry.  `SharedRun` is such a company of sessions: each began
at some time, calls were made of them in any order, and some of them have ended.

The gauge of known records is kept by three operations that never look at each other: a record
that begins an entry, an entry that is forgotten, and a session that ends.  Each changes it by as
much as it changes the rosters, so it shows how many records the sessions hold
(`SharedRun.gauge`). -/

namespace Whereabouts

/-! ### The size of a roster -/

namespace Roster

variable (r : Roster)

theorem size_merge (update : Record) :
    (r.merge update).1.size = r.size + if (r.merge update).2.2 = .created then 1 else 0 := by
  unfold merge
  split
  · exact List.length_append
  · exact List.length_map _

theorem size_erase {handle : String} {known : Record} (h : r.find? handle = some known) :
    (r.erase handle).size + 1 = r.size := by
  rw [find?, atKey?_eq] at h
  obtain ⟨front, back, hsplit, hkey, hothers⟩ := Keyed.exists_parting r.records_nodup h
  have herase : (r.erase handle).records = front ++ back := by
    rw [records_erase, hsplit]
    exact Keyed.filter_parted hkey hothers
  rw [size_eq, size_eq, herase, hsplit, List.length_append, List.length_append, List.length_cons, Nat.add_assoc]

end Roster

namespace Session

/-! ### Runs -/

/-- A call of one of the sessions, and the step that it made. -/
structure Deed where
  call : Call
  step : Step Reply

/-- `SharedRun deeds sessions ended m`: the sessions began with a new registry, which is now `m`,
the deeds were done, the last of which stands last, and others have ended as they stood then. -/
inductive SharedRun : List Deed → List Session → List Session → Metrics → Prop where
  | start : SharedRun [] [] [] {}
  | join {deeds : List Deed} {sessions ended : List Session} {m : Metrics}
      (run : SharedRun deeds sessions ended m) (settings : Settings) :
      SharedRun deeds (sessions ++ [.start settings]) ended m
  | call {deeds : List Deed} {front back ended : List Session} {s : Session} {m : Metrics}
      (run : SharedRun deeds (front ++ s :: back) ended m) (c : Call) :
      SharedRun (deeds ++ [⟨c, s.call m c⟩]) (front ++ (s.call m c).session :: back) ended
        (s.call m c).metrics
  | finish {deeds : List Deed} {front back ended : List Session} {s : Session} {m : Metrics}
      (run : SharedRun deeds (front ++ s :: back) ended m) :
      SharedRun deeds (front ++ back) (ended ++ [s]) (s.finish m).metrics

/-- The sum of a number over some sessions. -/
def total (number : Session → Nat) (sessions : List Session) : Nat := (sessions.map number).sum

theorem total_append (number : Session → Nat) (front back : List Session) :
    total number (front ++ back) = total number front + total number back := by
  rw [total, List.map_append, List.sum_append]
  rfl

theorem total_nil (number : Session → Nat) : total number [] = 0 := rfl

theorem total_cons (number : Session → Nat) (s : Session) (rest : List Session) :
    total number (s :: rest) = number s + total number rest := List.sum_cons

theorem total_parted (number : Session → Nat) (front back : List Session) (s : Session) :
    total number (front ++ s :: back) = total number (front ++ back) + number s := by
  rw [total_append, total_append, total_cons]
  omega

/-! ### What a record does to the registry -/

variable (s : Session) (m : Metrics)

/-- The registry after a record that was read, family by family. -/
theorem metrics_accept (reading : Reading) :
    (s.accept m reading).metrics =
      { recordsDecoded := m.recordsDecoded.inc []
        decodeFailures := m.decodeFailures
        unmatchedCapabilities :=
          if reading.unmatched = 0 then m.unmatchedCapabilities
          else m.unmatchedCapabilities.add [] (.ofNat reading.unmatched)
        unknownFields :=
          if reading.unknown = 0 then m.unknownFields
          else m.unknownFields.add [] (.ofNat reading.unknown)
        cacheMerges := m.cacheMerges.inc [("result", (s.roster.merge reading.record).2.2.name)]
        cacheEntries :=
          if (s.roster.merge reading.record).2.2 = .created then m.cacheEntries.inc []
          else m.cacheEntries
        requests := m.requests
        resolutions := m.resolutions.inc
          [("outcome", (Settlement.ofKind (s.queue.resolve reading.record.handle).2).name)] } := by
  show countResolution (countChange (countReading m reading) (s.roster.merge reading.record).2.2)
    (Settlement.ofKind (s.queue.resolve reading.record.handle).2).name = _
  unfold countReading
  dsimp only
  cases (s.roster.merge reading.record).2.2 with
  | created =>
      rw [if_pos rfl]
      split_ifs <;> rfl
  | updated =>
      simp only [reduceCtorEq, if_false]
      split_ifs <;> rfl

/-! ### The gauge -/

theorem cacheEntries_accept (reading : Reading) :
    (s.accept m reading).metrics.cacheEntries.get [] =
      m.cacheEntries.get [] + if (s.roster.merge reading.record).2.2 = .created then 1 else 0 := by
  rw [metrics_accept]
  dsimp only
  split_ifs
  · exact Gauge.get_add_self m.cacheEntries [] 1
  · exact (Int64.add_zero _).symm

theorem cacheEntries_receive (data : Bytes) :
    (s.receive m data).metrics.cacheEntries.get [] + .ofNat s.roster.size =
      m.cacheEntries.get [] + .ofNat (s.receive m data).session.roster.size := by
  cases hdecode : Record.decode catalogue data with
  | error fault => simp only [receive, hdecode]
  | ok reading =>
      have hsize : (s.accept m reading).session.roster.size = s.roster.size +
          if (s.roster.merge reading.record).2.2 = .created then 1 else 0 :=
        s.roster.size_merge reading.record
      simp only [receive, hdecode]
      rw [cacheEntries_accept, hsize, Int64.ofNat_add]
      split_ifs
      · show _ + (1 : Int64) + _ = _ + (_ + 1)
        grind
      · show _ + (0 : Int64) + _ = _ + (_ + 0)
        grind

theorem cacheEntries_forget (handle : String) :
    (s.forget m handle).metrics.cacheEntries.get [] + .ofNat s.roster.size =
      m.cacheEntries.get [] + .ofNat (s.forget m handle).session.roster.size := by
  cases hfind : s.find? handle with
  | none => simp only [forget, hfind]
  | some known =>
      have hsize : (s.roster.erase handle).size + 1 = s.roster.size := s.roster.size_erase hfind
      simp only [forget, hfind]
      show (m.cacheEntries.add [] (-1)).get [] + _ = _
      rw [Gauge.get_add_self, ← hsize, Int64.ofNat_add]
      show _ + (-1 : Int64) + (_ + 1) = _
      grind

theorem cacheEntries_call (c : Call) :
    (s.call m c).metrics.cacheEntries.get [] + .ofNat s.roster.size =
      m.cacheEntries.get [] + .ofNat (s.call m c).session.roster.size := by
  cases c with
  | receive data => exact cacheEntries_receive s m data
  | ask handle kind => rfl
  | fail handle => rfl
  | forget handle => exact cacheEntries_forget s m handle
  | encodeKnown handle => rfl
  | announce a => rfl

/-- A session that ends takes its records off the gauge. -/
theorem cacheEntries_finish :
    (s.finish m).metrics.cacheEntries.get [] + .ofNat s.roster.size = m.cacheEntries.get [] := by
  show (m.cacheEntries.add [] (-.ofNat s.roster.size)).get [] + _ = _
  rw [Gauge.get_add_self]
  grind

variable {s m} {deeds : List Deed} {sessions ended : List Session}

/-- The gauge and the number of records that are held agree, as words of 64 bits. -/
theorem cacheEntries_of_run (run : SharedRun deeds sessions ended m) :
    m.cacheEntries.get [] = .ofNat (total (·.roster.size) sessions) := by
  induction run with
  | start => rfl
  | join run settings ih =>
      rw [ih, total_parted, List.append_nil]
      rfl
  | @call deeds front back ended s m run c ih =>
      have hcall := cacheEntries_call s m c
      rw [ih, total_parted, Int64.ofNat_add] at hcall
      rw [total_parted, Int64.ofNat_add]
      grind
  | @finish deeds front back ended s m run ih =>
      have hfinish := cacheEntries_finish s m
      rw [ih, total_parted, Int64.ofNat_add] at hfinish
      grind

/-- **The gauge shows how many records the sessions hold.**  It is exact as long as that number fits
it, and then never negative; and it is zero when all sessions have ended. -/
theorem SharedRun.gauge (run : SharedRun deeds sessions ended m) :
    (total (·.roster.size) sessions < 2 ^ 63 →
      (m.cacheEntries.get []).toInt = total (·.roster.size) sessions ∧
        0 ≤ m.cacheEntries.get []) ∧
    (sessions = [] → m.cacheEntries.get [] = 0) := by
  rw [cacheEntries_of_run run]
  constructor
  · intro hfits
    have hint := Int64.toInt_ofNat_of_lt hfits
    refine ⟨hint, ?_⟩
    rw [Int64.le_iff_toInt_le, hint]
    exact Int.natCast_nonneg _
  · rintro rfl
    rfl

/-- Two sessions know the same user, whom one of them forgets and hears of again; then one session
ends, and then the other. -/
theorem SharedRun.gauge_two_sessions :
    ∃ deeds s ended m, SharedRun deeds [s] ended m ∧ total (·.roster.size) [s] = 1 ∧
      (m.cacheEntries.get []).toInt = 1 ∧ (s.finish m).metrics.cacheEntries.get [] = 0 := by
  have both : SharedRun _ [_, _] [] _ := .join (.join .start {}) {}
  have first : SharedRun _ [_, _] [] _ :=
    @SharedRun.call _ [] _ _ _ _ both (.receive [3, 65, 110, 110, 0, 0, 0, 0])
  have second : SharedRun _ [_, _] [] _ :=
    @SharedRun.call _ [_] _ _ _ _ first (.receive [4, 97, 32, 78, 78, 0, 0, 0, 0])
  have damaged : SharedRun _ [_, _] [] _ :=
    @SharedRun.call _ [] _ _ _ _ second (.receive [3, 65])
  have absent : SharedRun _ [_, _] [] _ :=
    @SharedRun.call _ [] _ _ _ _ damaged (.forget "Bob")
  have forgotten : SharedRun _ [_, _] [] _ :=
    @SharedRun.call _ [] _ _ _ _ absent (.forget "ANN")
  have again : SharedRun _ [_, _] [] _ :=
    @SharedRun.call _ [] _ _ _ _ forgotten (.receive [3, 65, 110, 110, 0, 0, 0, 0])
  have ended : SharedRun _ [_] [_] _ := @SharedRun.finish _ [_] _ _ _ _ again
  refine ⟨_, _, _, _, ended, by decide +kernel, ?_, ?_⟩
  · exact (ended.gauge.1 (by decide +kernel)).1.trans (by decide +kernel)
  · exact (@SharedRun.finish _ [] _ _ _ _ ended).gauge.2 rfl

end Session
end Whereabouts
