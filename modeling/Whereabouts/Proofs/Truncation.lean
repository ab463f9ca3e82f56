import Whereabouts.Proofs.Cursor
import Whereabouts.Proofs.Samples
import Whereabouts.Session.Basic

/-! # Records that are cut short

Nothing in a record can make its read fail but the want of its front: the handle behind its length
octet, the warning level and the number of entries.  Whether the front is there depends on its
first octet and on how many octets remain, and on no other octet (`FailsByFront`).

A session that cannot read a record counts the failure and is otherwise as it was
(`receive_cut_short`). -/

namespace Whereabouts

/-! ### The front of a record -/

/-- A read fails if and only if the front of a record is not there, with what is missing. -/
structure FailsByFront {α : Type} (read : Reader α) (c : Cursor) : Prop where
  /-- No length octet. -/
  of_empty : c.remaining = 0 → ∃ c', read c = .error (.truncated 1 0) c'
  ok_iff : ∀ l rest, c.unread = l :: rest →
    ((∃ value c', read c = .ok value c') ↔ 5 + l.toNat ≤ c.remaining)
  /-- No warning level. -/
  of_level : ∀ l rest, c.unread = l :: rest → c.remaining - 1 - l.toNat < 2 →
    ∃ c', read c = .error (.truncated 2 (c.remaining - 1 - l.toNat)) c'
  /-- No number of entries. -/
  of_count : ∀ l rest, c.unread = l :: rest → 2 ≤ c.remaining - 1 - l.toNat →
    c.remaining < 5 + l.toNat → ∃ c', read c = .error (.truncated 2 (c.remaining - 3 - l.toNat)) c'

theorem FailsByFront.truncated {α : Type} {read : Reader α} {c c' : Cursor} {fault : Fault}
    (h : FailsByFront read c) (hread : read c = .error fault c') :
    ∃ needed remaining, fault = .truncated needed remaining := by
  have hfault : ∀ {other c''}, read c = .error other c'' → fault = other := by
    intro other c'' hother
    rw [hread] at hother
    exact (EStateM.Result.error.inj hother).1
  cases hunread : c.unread with
  | nil =>
      obtain ⟨c'', herror⟩ := h.of_empty ((Cursor.remaining_eq_zero_iff c).mpr hunread)
      exact ⟨_, _, hfault herror⟩
  | cons l rest =>
      rcases Nat.lt_or_ge (c.remaining - 1 - l.toNat) 2 with hshort | henough
      · obtain ⟨c'', herror⟩ := h.of_level l rest hunread hshort
        exact ⟨_, _, hfault herror⟩
      · have hroom : c.remaining < 5 + l.toNat := by
          by_contra hroom
          obtain ⟨value, c'', hok⟩ := (h.ok_iff l rest hunread).mpr (Nat.le_of_not_lt hroom)
          rw [hread] at hok
          cases hok
        obtain ⟨c'', herror⟩ := h.of_count l rest hunread henough hroom
        exact ⟨_, _, hfault herror⟩

namespace Reader

/-- A read that succeeds on what a read leaves that fails by the front. -/
theorem failsByFront_bind {α β : Type} {x : Reader α} {f : α → Reader β} {c : Cursor}
    (h : FailsByFront x c) (hf : ∀ value c', ∃ result c'', f value c' = .ok result c'') :
    FailsByFront (x >>= f) c := by
  refine { of_empty := ?_, ok_iff := ?_, of_level := ?_, of_count := ?_ }
  · intro hempty
    obtain ⟨c', hx⟩ := h.of_empty hempty
    exact ⟨c', bind_error hx⟩
  · intro l rest hl
    rw [← h.ok_iff l rest hl]
    constructor
    · rintro ⟨result, c', hresult⟩
      obtain ⟨value, c₁, hx, -⟩ := bind_inv hresult
      exact ⟨value, c₁, hx⟩
    · rintro ⟨value, c₁, hx⟩
      obtain ⟨result, c', hresult⟩ := hf value c₁
      exact ⟨result, c', (bind_ok hx).trans hresult⟩
  · intro l rest hl hlevel
    obtain ⟨c', hx⟩ := h.of_level l rest hl hlevel
    exact ⟨c', bind_error hx⟩
  · intro l rest hl hlevel hcount
    obtain ⟨c', hx⟩ := h.of_count l rest hl hlevel hcount
    exact ⟨c', bind_error hx⟩

/-- Reads a front, and then whatever hangs on it. -/
def behindFront {β : Type} (f : Bytes → UInt16 → UInt16 → Reader β) : Reader β := do
  let handle ← counted
  let level ← word16
  let count ← word16
  f handle level count

section front

variable {β : Type} {f : Bytes → UInt16 → UInt16 → Reader β} {c : Cursor} {l : UInt8} {rest : Bytes}

theorem behindFront_of_level (hl : c.unread = l :: rest) (hshort : c.remaining - 1 - l.toNat < 2) :
    ∃ c', behindFront f c = .error (.truncated 2 (c.remaining - 1 - l.toNat)) c' := by
  obtain ⟨handle, c₁, hhandle, hleft⟩ := counted_of_unread_cons hl
  unfold behindFront
  rw [bind_ok hhandle, ← hleft]
  exact ⟨c₁, bind_error (word16_of_lt (hleft ▸ hshort))⟩

theorem behindFront_of_count (hl : c.unread = l :: rest) (henough : 2 ≤ c.remaining - 1 - l.toNat)
    (hshort : c.remaining < 5 + l.toNat) :
    ∃ c', behindFront f c = .error (.truncated 2 (c.remaining - 3 - l.toNat)) c' := by
  obtain ⟨handle, c₁, hhandle, hleft⟩ := counted_of_unread_cons hl
  obtain ⟨level, hlevel⟩ := word16_of_le (c := c₁) (hleft ▸ henough)
  have hremaining : (c₁.advance 2).remaining = c.remaining - 3 - l.toNat := by
    rw [Cursor.remaining_advance]
    omega
  unfold behindFront
  rw [bind_ok hhandle, bind_ok hlevel, ← hremaining]
  exact ⟨c₁.advance 2, bind_error (word16_of_lt (by omega))⟩

theorem behindFront_of_room (hl : c.unread = l :: rest) (hroom : 5 + l.toNat ≤ c.remaining) :
    ∃ handle level count c', behindFront f c = f handle level count c' := by
  obtain ⟨handle, c₁, hhandle, hleft⟩ := counted_of_unread_cons hl
  obtain ⟨level, hlevel⟩ := word16_of_le (c := c₁) (by omega)
  obtain ⟨count, hcount⟩ := word16_of_le (c := c₁.advance 2) (by
    rw [Cursor.remaining_advance]
    omega)
  refine ⟨handle, level, count, (c₁.advance 2).advance 2, ?_⟩
  unfold behindFront
  rw [bind_ok hhandle, bind_ok hlevel, bind_ok hcount]

/-- What hangs on a front fails by the front alone if it does not fail itself. -/
theorem failsByFront_behindFront
    (hf : ∀ handle level count c', ∃ value c'', f handle level count c' = .ok value c'') :
    FailsByFront (behindFront f) c := by
  refine { of_empty := ?_, ok_iff := ?_, of_level := fun _ _ => behindFront_of_level,
           of_count := fun _ _ => behindFront_of_count }
  · intro hempty
    refine ⟨c, bind_error ?_⟩
    exact bind_error (octet_of_remaining_eq_zero hempty)
  · intro l rest hl
    constructor
    · rintro ⟨value, c', hvalue⟩
      by_contra hroom
      -- A read has one outcome, so a failure contradicts the success.
      rcases Nat.lt_or_ge (c.remaining - 1 - l.toNat) 2 with hshort | henough
      · obtain ⟨c'', herror⟩ := behindFront_of_level (f := f) hl hshort
        rw [herror] at hvalue
        cases hvalue
      · obtain ⟨c'', herror⟩ := behindFront_of_count (f := f) hl henough (by omega)
        rw [herror] at hvalue
        cases hvalue
    · intro hroom
      obtain ⟨handle, level, count, c', hfront⟩ := behindFront_of_room (f := f) hl hroom
      rw [hfront]
      exact hf handle level count c'

end front

end Reader

namespace Record

variable (cat : Catalogue) (c : Cursor)

theorem failsByFront_readBlock : FailsByFront (readBlock cat) c :=
  Reader.failsByFront_behindFront fun _ _ _ _ => ⟨_, _, rfl⟩

/-- A trailer never fails. -/
theorem failsByFront_read : FailsByFront (read cat) c := by
  unfold read
  refine Reader.failsByFront_bind (failsByFront_readBlock cat c) fun block c' => ?_
  rw [Reader.bind_ok (Reader.get_apply c')]
  split_ifs
  · exact ⟨_, _, rfl⟩
  · exact ⟨_, _, rfl⟩

theorem decode_eq_error_iff (bytes : Bytes) (fault : Fault) :
    decode cat bytes = .error fault ↔ ∃ c', read cat (.ofBytes bytes) = .error fault c' := by
  unfold decode
  cases read cat (.ofBytes bytes) with
  | ok reading c' => simp
  | error other c' => simp

theorem code_of_decode {bytes : Bytes} {fault : Fault} (h : decode cat bytes = .error fault) :
    fault.code = "TRUNCATED" := by
  obtain ⟨c', hread⟩ := (decode_eq_error_iff cat bytes fault).mp h
  obtain ⟨needed, remaining, rfl⟩ := (failsByFront_read cat (.ofBytes bytes)).truncated hread
  rfl

end Record

/-! ### Sessions -/

namespace Session

/-- What a step leaves that could not read its record: the session as it was, nothing for the
observer, and one more failure in the registry. -/
structure CutShort {α : Type} (s : Session) (m : Metrics) (step : Step α) : Prop where
  session : step.session = s
  observed : step.observed = []
  counted : step.metrics.decodeFailures.get [("code", "TRUNCATED")] =
    m.decodeFailures.get [("code", "TRUNCATED")] + 1
  otherLabels : ∀ labels, labels ≠ .ofList [("code", "TRUNCATED")] →
    step.metrics.decodeFailures.words.cell? labels = m.decodeFailures.words.cell? labels
  otherFamilies : step.metrics = { m with decodeFailures := step.metrics.decodeFailures }

variable (s : Session) (m : Metrics)

theorem receive_eq_error_iff (data : Bytes) (fault : Fault) :
    (s.receive m data).answer = .error fault ↔ Record.decode catalogue data = .error fault := by
  unfold receive
  cases Record.decode catalogue data with
  | error other => simp
  | ok reading => simp

theorem cutShort_receive {data : Bytes} {fault : Fault}
    (h : Record.decode catalogue data = .error fault) : CutShort s m (s.receive m data) := by
  have hcode : fault.code = "TRUNCATED" := Record.code_of_decode catalogue h
  have hstep : s.receive m data =
      { answer := .error fault
        session := s
        metrics := { m with decodeFailures := m.decodeFailures.inc [("code", "TRUNCATED")] }
        events := [.undecodable fault data.length] } := by
    simp only [receive, h, hcode]
  rw [hstep]
  refine { session := rfl, observed := rfl, counted := ?_, otherLabels := ?_, otherFamilies := rfl }
  · exact Counter.get_add_self m.decodeFailures _ 1
  · intro labels hlabels
    exact (Family.cell?_add _ _ _ _).trans (if_neg (Ne.symm hlabels))

/-- **A record cannot be read only for want of its front, and then nothing changes** but the count
of failures. -/
theorem receive_cut_short :
    (∀ cat c, FailsByFront (Record.readBlock cat) c ∧ FailsByFront (Record.read cat) c) ∧
    ∀ data fault,
      ((s.receive m data).answer = .error fault ↔
        ∃ c', Record.read catalogue (.ofBytes data) = .error fault c') ∧
      ((s.receive m data).answer = .error fault → CutShort s m (s.receive m data)) := by
  refine ⟨fun cat c => ⟨Record.failsByFront_readBlock cat c, Record.failsByFront_read cat c⟩, ?_⟩
  intro data fault
  rw [receive_eq_error_iff]
  exact ⟨Record.decode_eq_error_iff catalogue data fault, cutShort_receive s m⟩

/-- A handle that ends at its second octet leaves a request waiting. -/
theorem receive_cut_short_waiting :
    ∃ s : Session, s.queue.isPending "ann" = true ∧
      (s.receive {} [3, 65]).answer = .error (.truncated 2 0) ∧
      (s.receive {} [3, 65]).session.queue.isPending "ann" = true ∧
      (s.receive {} [3, 65]).metrics.decodeFailures.get [("code", "TRUNCATED")] = 1 := by
  refine ⟨((start {}).ask {} "Ann" .explicit).session, by decide +kernel, ?_⟩
  obtain ⟨hfront, hreceive⟩ := receive_cut_short ((start {}).ask {} "Ann" .explicit).session {}
  have hread := (hfront catalogue (.ofBytes [3, 65])).2.of_level 3 [65] rfl (by decide)
  have hanswer := (hreceive [3, 65] (.truncated 2 0)).1.mpr hread
  have hcut := (hreceive [3, 65] (.truncated 2 0)).2 hanswer
  refine ⟨hanswer, ?_, hcut.counted.trans (by decide +kernel)⟩
  rw [hcut.session]
  decide +kernel

end Session
end Whereabouts
