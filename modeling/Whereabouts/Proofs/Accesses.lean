import Whereabouts.Proofs.Checked.Calls
import Whereabouts.Proofs.Checked.Writes

/-! # Accesses to a cursor

Reads and writes share one buffer and one position.  An `Access` is any step that a user of a cursor
can take: asking where it is, moving it, reading, writing.

`Lawful` says what an access may do.  The position stays inside the buffer; a read of a fixed width
takes all its octets or none; what takes as much as is there moves by that much; and the buffer
changes by nothing but octets behind it.  A machine has no type that keeps its position inside the
buffer, and a difference below zero or a slice out of range stops it.  `runAll_lawful` says that
this never happens: after any accesses, the next one is lawful. -/

namespace Whereabouts

/-- Something that is written. -/
inductive Item where
  | octet (v : UInt8)
  | word16 (v : UInt16)
  | word32 (v : UInt32)
  | raw (bytes : Bytes)
  /-- A string behind its length. -/
  | counted (bytes : Bytes)
deriving DecidableEq

namespace Item

def encode : Item → Bytes
  | octet v => [v]
  | word16 v => Bytes.ofWord16 v
  | word32 v => Bytes.ofWord32 v
  | raw bytes => bytes
  | counted bytes => bytes.counted

def put : Item → Checked Unit
  | octet v => Checked.put [v]
  | word16 v => Checked.putWord16 v
  | word32 v => Checked.put (Bytes.ofWord32 v)
  | raw bytes => Checked.put bytes
  | counted bytes => Checked.putCounted bytes

theorem puts_encode (item : Item) : Checked.Puts item.put item.encode := by
  cases item with
  | octet | word16 | word32 | raw => exact Checked.puts_put _
  | counted bytes => exact Checked.puts_counted bytes

end Item

/-- A step of the user of a cursor.  No argument is bounded. -/
inductive Access where
  | position
  | remaining
  | seek (place : Nat)
  | skip (count : Nat)
  | octet
  | word16
  | word32
  | exactly (width : Nat)
  | upTo (count : Nat)
  | counted
  | write (item : Item)
deriving DecidableEq

namespace Access

/-- An access to a cursor of the library. -/
def perform : Access → Reader Answer
  | position => do return .number (← get).position
  | remaining => do return .number (← get).remaining
  | seek place => fun c => .ok .done (c.seek place)
  | skip count => do return .number (← Reader.skip count)
  | octet => do return .octet (← Reader.octet)
  | word16 => do return .word16 (← Reader.word16)
  | word32 => do return .word32 (← Reader.word32)
  | exactly width => do return .bytes (← Reader.exactly width)
  | upTo count => do return .bytes (← Reader.upTo count)
  | counted => do return .bytes (← Reader.counted)
  | write item => fun c => .ok .done (c.append item.encode)

/-- An access to the cursor of a machine. -/
def run : Access → Checked Answer
  | position => do return .number (← get).position
  | remaining => do return .number (← Checked.remaining)
  | seek place => do
      Checked.seek place
      return .done
  | skip count => do return .number (← Checked.skip count)
  | octet => do return .octet (← Checked.octet)
  | word16 => do return .word16 (← Checked.word16)
  | word32 => do return .word32 (← Checked.word32)
  | exactly width => do return .bytes (← Checked.exactly width)
  | upTo count => do return .bytes (← Checked.upTo count)
  | counted => do return .bytes (← Checked.counted)
  | write item => do
      item.put
      return .done

/-- What accesses give, one after the other.  A fault ends the access that meets it and no other. -/
def performAll (accesses : List Access) : Reader (List (Except Fault Answer)) :=
  accesses.mapM fun a => observing a.perform

/-- What accesses to a machine give, one after the other. -/
def runAll (accesses : List Access) : Checked (List (Except Fault Answer)) :=
  accesses.mapM fun a => observing a.run

/-- The octets that an access writes. -/
def octets : Access → Bytes
  | write item => item.encode
  | _ => []

/-- The octets that accesses write. -/
def written (accesses : List Access) : Bytes := accesses.flatMap octets

end Access

/-! ### What an access may do -/

namespace Frame

def remaining (f : Frame) : Nat := f.buffer.length - f.position

def unread (f : Frame) : Bytes := f.buffer.drop f.position

end Frame

/-- The octets that an answer was read from. -/
def Answer.octets : Answer → Bytes
  | .octet v => [v]
  | .word16 v => Bytes.ofWord16 v
  | .word32 v => Bytes.ofWord32 v
  | .bytes front => front
  | _ => []

namespace Access

/-- Whether a read takes `width` octets if they are there, and else fails and does nothing. -/
structure AllOrNothing (width : Nat) (before : Frame) (result : Except Fault Answer)
    (after : Frame) : Prop where
  taken : width ≤ before.remaining → ∃ answer, result = .ok answer ∧
    answer.octets = before.unread.take width ∧ after.position = before.position + width
  refused : before.remaining < width →
    result = .error (.truncated width before.remaining) ∧ after = before

/-- Whether a read takes a length octet and what is there of as many octets as it says, and fails
and does nothing if no length octet is there. -/
structure AsAnnounced (before : Frame) (result : Except Fault Answer) (after : Frame) : Prop where
  taken : ∀ length rest, before.unread = length :: rest →
    result = .ok (.bytes (rest.take length.toNat)) ∧
      after.position = before.position + 1 + min length.toNat rest.length
  refused : before.remaining = 0 → result = .error (.truncated 1 0) ∧ after = before

/-- What an access gives, and where it leaves the position. -/
def Effect (before : Frame) (result : Except Fault Answer) (after : Frame) : Access → Prop
  | position => result = .ok (.number before.position) ∧ after.position = before.position
  | remaining => result = .ok (.number before.remaining) ∧ after.position = before.position
  | seek place => result = .ok .done ∧ after.position = min place before.buffer.length
  | skip count => result = .ok (.number (min count before.remaining)) ∧
      after.position = before.position + min count before.remaining
  | octet => AllOrNothing 1 before result after
  | word16 => AllOrNothing 2 before result after
  | word32 => AllOrNothing 4 before result after
  | exactly width => AllOrNothing width before result after
  | upTo count => result = .ok (.bytes (before.unread.take count)) ∧
      after.position = before.position + min count before.remaining
  | counted => AsAnnounced before result after
  | write _ => result = .ok .done ∧ after.position = before.position

/-- Whether an access does what it may do. -/
structure Lawful (a : Access) (before : Frame) (result : Except Fault Answer) (after : Frame) :
    Prop where
  inside : after.position ≤ after.buffer.length
  effect : a.Effect before result after
  /-- Reads and moves keep the buffer, and writes keep what is in it. -/
  buffer : after.buffer = before.buffer ++ a.octets

end Access

/-! ### One access -/

open Checked

variable {c c' : Cursor} {a : Access} {result : Except Fault Answer}

theorem Bytes.ofWord32_word32 (p q r s : UInt8) : ofWord32 (word32 p q r s) = [p, q, r, s] := by
  have hp := p.toNat_lt
  have hq := q.toNat_lt
  have hr := r.toNat_lt
  have hs := s.toNat_lt
  have hnat : (word32 p q r s).toNat =
      ((p.toNat * 256 + q.toNat) * 256 + r.toNat) * 256 + s.toNat := by
    unfold word32
    rw [UInt32.toNat_ofNat']
    omega
  have h₁ : (word32 p q r s).toNat / 16777216 = p.toNat := by omega
  have h₂ : (word32 p q r s).toNat / 65536 % 256 = q.toNat := by omega
  have h₃ : (word32 p q r s).toNat / 256 % 256 = r.toNat := by omega
  have h₄ : (word32 p q r s).toNat % 256 = s.toNat := by omega
  unfold ofWord32
  rw [h₁, h₂, h₃, h₄]
  simp only [UInt8.ofNat_toNat]

namespace Access

/-- Whether a read ends in the same buffer, and how. -/
def Ends (r : Reader Answer) (c : Cursor) (how : Except Fault Answer → Frame → Prop) : Prop :=
  ∃ result c', (observing r : Reader (Except Fault Answer)) c = .ok result c' ∧
    c'.buffer = c.buffer ∧ how result (.ofCursor c')

variable {r : Reader Answer} {how : Except Fault Answer → Frame → Prop}

theorem Ends.of_ok {answer : Answer} (h : r c = .ok answer c') (hbuffer : c'.buffer = c.buffer)
    (hhow : how (.ok answer) (.ofCursor c')) : Ends r c how :=
  ⟨_, _, Reader.observing_ok h, hbuffer, hhow⟩

theorem Ends.of_error {fault : Fault} (h : r c = .error fault c)
    (hhow : how (.error fault) (.ofCursor c)) : Ends r c how :=
  ⟨_, _, Reader.observing_error h, rfl, hhow⟩

theorem allOrNothing_of_le {width : Nat} {answer : Answer} (hleft : width ≤ c.remaining)
    (hoctets : answer.octets = c.unread.take width) :
    AllOrNothing width (.ofCursor c) (.ok answer) (.ofCursor (c.advance width)) := by
  refine ⟨fun _ => ⟨answer, rfl, hoctets, ?_⟩, fun hlt => absurd hleft (Nat.not_le.mpr hlt)⟩
  show (c.advance width).position = c.position + width
  rw [Cursor.position_advance, Nat.min_eq_left hleft]

theorem allOrNothing_of_lt {width : Nat} (hleft : c.remaining < width) :
    AllOrNothing width (.ofCursor c) (.error (.truncated width c.remaining)) (.ofCursor c) :=
  ⟨fun hle => absurd hleft (Nat.not_lt.mpr hle), fun _ => ⟨rfl, rfl⟩⟩

/-- What reads the number at the front takes all its octets or none. -/
theorem ends_front {α : Type} {read : Reader α} {width : Nat} {front? : Bytes → Option α}
    (h : ReadsFront read width front?) {answer : α → Answer}
    (hanswer : ∀ bytes v, front? bytes = some v → (answer v).octets = bytes.take width)
    (c : Cursor) :
    Ends (do return answer (← read)) c (AllOrNothing width (.ofCursor c)) := by
  have hlength : (front? c.unread).isSome ↔ width ≤ c.remaining := by
    rw [h.isSome, Cursor.length_unread]
  have hread := h.apply c
  cases hfront : front? c.unread with
  | some v =>
      rw [hfront] at hread hlength
      exact .of_ok (Reader.bind_ok hread) rfl
        (allOrNothing_of_le (hlength.mp rfl) (hanswer _ v hfront))
  | none =>
      rw [hfront] at hread hlength
      have hleft : ¬ width ≤ c.remaining := fun hle => Bool.false_ne_true (hlength.mpr hle)
      exact .of_error (Reader.bind_error hread) (allOrNothing_of_lt (Nat.not_le.mp hleft))

theorem ends_octet (c : Cursor) : Ends octet.perform c (AllOrNothing 1 (.ofCursor c)) := by
  refine ends_front readsFront_octet (fun bytes v h => ?_) c
  match bytes, h with
  | _ :: _, rfl => rfl

theorem ends_word16 (c : Cursor) : Ends word16.perform c (AllOrNothing 2 (.ofCursor c)) := by
  refine ends_front readsFront_word16 (fun bytes v h => ?_) c
  match bytes, h with
  | a :: b :: _, rfl => exact Bytes.ofWord16_word16 a b

theorem ends_word32 (c : Cursor) : Ends word32.perform c (AllOrNothing 4 (.ofCursor c)) := by
  refine ends_front readsFront_word32 (fun bytes v h => ?_) c
  match bytes, h with
  | p :: q :: r :: s :: _, rfl => exact Bytes.ofWord32_word32 p q r s

theorem ends_exactly (width : Nat) (c : Cursor) :
    Ends (exactly width).perform c (AllOrNothing width (.ofCursor c)) := by
  by_cases hleft : c.remaining < width
  · exact .of_error (Reader.bind_error (if_pos hleft)) (allOrNothing_of_lt hleft)
  · exact .of_ok (Reader.bind_ok (if_neg hleft)) rfl
      (allOrNothing_of_le (Nat.not_lt.mp hleft) rfl)

theorem ends_counted (c : Cursor) : Ends counted.perform c (AsAnnounced (.ofCursor c)) := by
  cases hunread : c.unread with
  | nil =>
      have hnone := (Cursor.remaining_eq_zero_iff c).mpr hunread
      have hoctet := Reader.octet_of_remaining_eq_zero hnone
      refine .of_error (Reader.bind_error (Reader.bind_error hoctet)) ⟨?_, fun _ => ⟨rfl, rfl⟩⟩
      intro length rest hcons
      exact absurd (hcons.symm.trans hunread) (List.cons_ne_nil length rest)
  | cons length rest =>
      obtain ⟨hoctet, hrest⟩ := Reader.octet_of_unread hunread
      have hleft : c.remaining = rest.length + 1 := by
        rw [← Cursor.length_unread, hunread, List.length_cons]
      have hread : Reader.counted c =
          .ok (rest.take length.toNat) ((c.advance 1).advance length.toNat) := by
        rw [← hrest]
        exact Reader.bind_ok hoctet
      refine .of_ok (Reader.bind_ok hread) rfl ⟨?_, fun hnone => ?_⟩
      · intro length' rest' hcons
        obtain ⟨rfl, rfl⟩ := List.cons.inj (hunread.symm.trans hcons)
        refine ⟨rfl, ?_⟩
        show ((c.advance 1).advance length.toNat).position = c.position + 1 + _
        rw [Cursor.position_advance, Cursor.position_advance, Cursor.remaining_advance, hleft]
        simp
      · exact absurd (hleft.symm.trans hnone) (Nat.succ_ne_zero _)

/-- What writes nothing and ends as it should in the same buffer is lawful. -/
theorem Ends.lawful (h : Ends a.perform c (a.Effect (.ofCursor c) · ·)) (hoctets : a.octets = []) :
    ∃ result c', (observing a.perform : Reader (Except Fault Answer)) c = .ok result c' ∧
      Lawful a (.ofCursor c) result (.ofCursor c') := by
  obtain ⟨result, c', hresult, hbuffer, heffect⟩ := h
  refine ⟨result, c', hresult, c'.position_le, heffect, ?_⟩
  rw [hoctets, List.append_nil]
  exact hbuffer

/-- **One access is lawful**, and ends whatever the cursor holds. -/
theorem exists_lawful (a : Access) (c : Cursor) :
    ∃ result c', (observing a.perform : Reader (Except Fault Answer)) c = .ok result c' ∧
      Lawful a (.ofCursor c) result (.ofCursor c') := by
  cases a with
  | position | remaining | seek => exact Ends.lawful (.of_ok rfl rfl ⟨rfl, rfl⟩) rfl
  | skip count | upTo count =>
      exact Ends.lawful (.of_ok rfl rfl ⟨rfl, Cursor.position_advance c count⟩) rfl
  | octet => exact Ends.lawful (ends_octet c) rfl
  | word16 => exact Ends.lawful (ends_word16 c) rfl
  | word32 => exact Ends.lawful (ends_word32 c) rfl
  | exactly width => exact Ends.lawful (ends_exactly width c) rfl
  | counted => exact Ends.lawful (ends_counted c) rfl
  | write item =>
      have hinside := (c.append item.encode).position_le
      exact ⟨.ok .done, c.append item.encode, rfl, hinside, ⟨rfl, rfl⟩, rfl⟩

/-- An access to a machine is one to the library, in any buffer that the machine can hold. -/
theorem run_eq (a : Access) (hc : c.Addressable) : a.run (.ofCursor c) = ended (a.perform c) := by
  cases a with
  | position => rfl
  | remaining => exact (runs_remaining c).bind (runs_pure _ c)
  | seek place => exact (runs_seek place c).bind (runs_pure _ _)
  | skip count => exact ((follows_skip count).give Answer.number c hc).run
  | octet => exact (follows_octet.give Answer.octet c hc).run
  | word16 => exact (follows_word16.give Answer.word16 c hc).run
  | word32 => exact (follows_word32.give Answer.word32 c hc).run
  | exactly width => exact ((follows_exactly width).give Answer.bytes c hc).run
  | upTo count => exact ((follows_upTo count).give Answer.bytes c hc).run
  | counted => exact (follows_counted.give Answer.bytes c hc).run
  | write item => exact (item.puts_encode c).bind (runs_pure _ _)

/-! ### Any accesses -/

theorem written_concat (accesses : List Access) (a : Access) :
    written (accesses ++ [a]) = written accesses ++ a.octets := by
  unfold written
  rw [List.flatMap_append, List.flatMap_singleton]

theorem performAll_concat {accesses : List Access} {results : List (Except Fault Answer)}
    {c₁ : Cursor} (hall : performAll accesses c = .ok results c₁)
    (hlast : (observing a.perform : Reader (Except Fault Answer)) c₁ = .ok result c') :
    performAll (accesses ++ [a]) c = .ok (results ++ [result]) c' := by
  have hone : performAll [a] c₁ = .ok [result] c' := Reader.bind_ok hlast
  unfold performAll at hall hone ⊢
  rw [List.mapM_append, Reader.bind_ok hall, Reader.bind_ok hone]
  rfl

/-- Accesses of the library end, and behind the buffer stands what they write.  Those of a machine
that can hold all of it end the same way. -/
theorem exists_performAll (accesses : List Access) (c : Cursor) :
    ∃ results c', performAll accesses c = .ok results c' ∧
      c'.buffer = c.buffer ++ written accesses ∧
      (c.buffer.length + (written accesses).length < 2 ^ 63 →
        Runs (runAll accesses) c results c') := by
  -- The three go together: what an access writes is what the room for the others shrinks by.
  induction accesses generalizing c with
  | nil => exact ⟨[], c, rfl, (List.append_nil c.buffer).symm, fun _ => runs_pure [] c⟩
  | cons a accesses ih =>
      obtain ⟨result, c₁, hresult, hlawful⟩ := exists_lawful a c
      obtain ⟨results, c', hresults, hbuffer, hruns⟩ := ih c₁
      have hfirst : c₁.buffer = c.buffer ++ a.octets := hlawful.buffer
      have hwritten : c.buffer ++ written (a :: accesses) = c₁.buffer ++ written accesses := by
        rw [hfirst, List.append_assoc]
        rfl
      refine ⟨result :: results, c', ?_, hbuffer.trans hwritten.symm, fun hroom => ?_⟩
      · unfold performAll at hresults ⊢
        rw [List.mapM_cons, Reader.bind_ok hresult, Reader.bind_ok hresults]
        rfl
      · have hc : c.Addressable := Nat.lt_of_le_of_lt (Nat.le_add_right _ _) hroom
        rw [← List.length_append, hwritten, List.length_append] at hroom
        have hrun := ended_observing (run_eq a hc)
        rw [hresult] at hrun
        have hrest := hruns hroom
        unfold runAll at hrest ⊢
        rw [List.mapM_cons]
        exact Runs.bind hrun (hrest.bind (runs_pure _ _))

/-- **Every access is lawful, whatever came before it.**  On any buffer and after any accesses, the
next one leaves the position inside the buffer, takes and moves over what it should, and keeps the
octets that are there.

A machine does the same and never stops at a trap, as long as what is there and what is written
stay below the length that no buffer of a machine can exceed. -/
theorem runAll_lawful (buffer : Bytes) (accesses : List Access) (a : Access) :
    ∃ results result c c',
      performAll accesses (.ofBytes buffer) = .ok results c ∧
      performAll (accesses ++ [a]) (.ofBytes buffer) = .ok (results ++ [result]) c' ∧
      Lawful a (.ofCursor c) result (.ofCursor c') ∧
      c.buffer = buffer ++ written accesses ∧
      (buffer.length + (written (accesses ++ [a])).length < 2 ^ 63 →
        runAll accesses ⟨buffer, 0⟩ = some (.ok (.ok results, .ofCursor c)) ∧
        runAll (accesses ++ [a]) ⟨buffer, 0⟩ =
          some (.ok (.ok (results ++ [result]), .ofCursor c'))) := by
  obtain ⟨results, c, hresults, hbuffer, hruns⟩ := exists_performAll accesses (.ofBytes buffer)
  obtain ⟨result, c', hresult, hlawful⟩ := exists_lawful a c
  have hall := performAll_concat hresults hresult
  refine ⟨results, result, c, c', hresults, hall, hlawful, hbuffer, fun hroom => ?_⟩
  obtain ⟨results', c₂, hall', -, hruns'⟩ := exists_performAll (accesses ++ [a]) (.ofBytes buffer)
  obtain ⟨rfl, rfl⟩ := EStateM.Result.ok.inj (hall.symm.trans hall')
  have hless : (Cursor.ofBytes buffer).buffer.length + (written accesses).length < 2 ^ 63 := by
    rw [written_concat, List.length_append] at hroom
    exact Nat.lt_of_le_of_lt (by simp [Cursor.ofBytes]) hroom
  exact ⟨hruns hless, hruns' hroom⟩

/-- Accesses with the greatest words as arguments. -/
def mixed : List Access :=
  [.word32, .seek (2 ^ 64 - 1), .write (.word16 258), .counted, .skip (2 ^ 64 - 1), .octet, .seek 2,
    .write (.counted [98, 111, 98]), .upTo 4]

/-- These on three octets, and then a read that finds one octet too few and moves nothing. -/
theorem runAll_lawful_mixed :
    runAll (mixed ++ [.word32]) ⟨[7, 8, 9], 0⟩ =
        some (.ok (.ok [.error (.truncated 4 3), .ok .done, .ok .done, .ok (.bytes [2]),
          .ok (.number 0), .error (.truncated 1 0), .ok .done, .ok .done, .ok (.bytes [9, 1, 2, 3]),
          .error (.truncated 4 3)], ⟨[7, 8, 9, 1, 2, 3, 98, 111, 98], 6⟩)) ∧
      Lawful .word32 ⟨[7, 8, 9, 1, 2, 3, 98, 111, 98], 6⟩ (.error (.truncated 4 3))
        ⟨[7, 8, 9, 1, 2, 3, 98, 111, 98], 6⟩ := by
  have hvalue : (match performAll (mixed ++ [.word32]) (.ofBytes [7, 8, 9]) with
    | .ok results c => some (results, Frame.ofCursor c)
    | .error _ _ => none) =
      some ([.error (.truncated 4 3), .ok .done, .ok .done, .ok (.bytes [2]),
          .ok (.number 0), .error (.truncated 1 0), .ok .done, .ok .done, .ok (.bytes [9, 1, 2, 3]),
          .error (.truncated 4 3)], ⟨[7, 8, 9, 1, 2, 3, 98, 111, 98], 6⟩) := by
    decide
  have hbefore : (match performAll mixed (.ofBytes [7, 8, 9]) with
    | .ok _ c => some (Frame.ofCursor c)
    | .error _ _ => none) = some ⟨[7, 8, 9, 1, 2, 3, 98, 111, 98], 6⟩ := by
    decide
  obtain ⟨results, result, c, c', hresults, hall, hlawful, -, hruns⟩ :=
    runAll_lawful [7, 8, 9] mixed .word32
  obtain ⟨-, hrun⟩ := hruns (by decide)
  rw [hall] at hvalue
  rw [hresults] at hbefore
  obtain ⟨hlist, hafter⟩ := Prod.mk.inj (Option.some.inj hvalue)
  rw [Option.some.inj hbefore, hafter] at hlawful
  rw [hlist, hafter] at hrun
  have hlast := congrArg List.getLast? hlist
  rw [List.getLast?_concat] at hlast
  obtain rfl : result = .error (.truncated 4 3) := Option.some.inj hlast
  exact ⟨hrun, hlawful⟩

end Access
end Whereabouts
