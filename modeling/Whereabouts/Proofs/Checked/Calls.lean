import Whereabouts.Proofs.Checked.Records
import Whereabouts.Session.Basic

/-! # Calls on a cursor

A user of the library has a cursor and calls what moves and reads it, in any order and with any
arguments; a call that fails leaves the cursor for the next one.

Every call of a machine follows the call of the library (`Call.follows`), and so does every
sequence of calls (`follows_runAll`).  As calls of the library always end, so do those of the
machine, and none of their steps traps: `runAll_spec`. -/

namespace Whereabouts

/-- A call on a cursor.  No argument is bounded. -/
inductive Call where
  | remaining
  | seek (position : Nat)
  | skip (count : Nat)
  | octet
  | word16
  | word32
  | exactly (width : Nat)
  | upTo (count : Nat)
  | counted
  /-- Reads a chain of at most `total` octets. -/
  | chain (total : Nat)
  /-- Reads at most `count` entries of a chain of at most `limit` octets. -/
  | countedChain (count : UInt16) (limit : Nat)
  /-- Looks an entry of a chain up. -/
  | nth (entries : Chain) (type : UInt16) (occurrence : Nat)
  /-- Reads a block of identifiers. -/
  | scan (length : Nat)
  /-- Reads a block of short identifiers. -/
  | scanShort (length : Nat)
  /-- Reads a record without its trailer. -/
  | block
  | record

/-- What a call gives. -/
inductive Answer where
  | done
  | number (n : Nat)
  | octet (v : UInt8)
  | word16 (v : UInt16)
  | word32 (v : UInt32)
  | bytes (bytes : Bytes)
  | entries (found : List Tlv.Found)
  | entry (t : Option Tlv)
  | scan (s : Scan) (unmatched : Nat)
  | reading (r : Reading)
deriving DecidableEq

namespace Call

/-- A call of the library. -/
def read (cat : Catalogue) : Call → Reader Answer
  | remaining => do return .number (← get).remaining
  | seek position => do
      (fun c => .ok () (c.seek position) : Reader Unit)
      return .done
  | skip count => do return .number (← Reader.skip count)
  | octet => do return .octet (← Reader.octet)
  | word16 => do return .word16 (← Reader.word16)
  | word32 => do return .word32 (← Reader.word32)
  | exactly width => do return .bytes (← Reader.exactly width)
  | upTo count => do return .bytes (← Reader.upTo count)
  | counted => do return .bytes (← Reader.counted)
  | chain total => do return .entries (← Reader.parse (Chain.split total))
  | countedChain count limit => do
      return .entries (← Reader.parse (Chain.splitCounted count.toNat limit))
  | nth entries type occurrence => return .entry (Chain.nth? entries type occurrence)
  | scan length => do
      let s ← cat.readBlock length
      return .scan s s.unmatched.length
  | scanShort length => do
      let s ← cat.readShortBlock length
      return .scan s s.unmatched.length
  | block => do return .reading (← Record.readBlock cat)
  | record => do return .reading (← Record.read cat)

/-- A call of the machine. -/
def run (cat : Catalogue) : Call → Checked Answer
  | remaining => do return .number (← Checked.remaining)
  | seek position => do
      Checked.seek position
      return .done
  | skip count => do return .number (← Checked.skip count)
  | octet => do return .octet (← Checked.octet)
  | word16 => do return .word16 (← Checked.word16)
  | word32 => do return .word32 (← Checked.word32)
  | exactly width => do return .bytes (← Checked.exactly width)
  | upTo count => do return .bytes (← Checked.upTo count)
  | counted => do return .bytes (← Checked.counted)
  | chain total => do return .entries (← Checked.chain total)
  | countedChain count limit => do return .entries (← Checked.countedChain count limit)
  | nth entries type occurrence => do return .entry (← Checked.nth? entries type occurrence)
  | scan length => do
      let s ← Checked.scan cat length
      return .scan s.1 s.2
  | scanShort length => do
      let s ← Checked.scanShort cat length
      return .scan s.1 s.2
  | block => do return .reading (← Checked.readBlock cat)
  | record => do return .reading (← Checked.read cat)

/-- What calls of the library give, one after the other. -/
def readAll (cat : Catalogue) (calls : List Call) : Reader (List (Except Fault Answer)) :=
  calls.mapM fun call => observing (call.read cat)

/-- What calls of the machine give, one after the other. -/
def runAll (cat : Catalogue) (calls : List Call) : Checked (List (Except Fault Answer)) :=
  calls.mapM fun call => observing (call.run cat)

open Checked

variable (cat : Catalogue)

theorem follows (call : Call) : Follows (call.run cat) (call.read cat) := by
  cases call with
  | remaining =>
      exact fun c _ => .of_runs rfl ((runs_remaining c).bind (runs_pure _ c)) rfl
  | seek position => exact (follows_seek position).give fun _ => Answer.done
  | skip count => exact (follows_skip count).give Answer.number
  | octet => exact follows_octet.give Answer.octet
  | word16 => exact follows_word16.give Answer.word16
  | word32 => exact follows_word32.give Answer.word32
  | exactly width => exact (follows_exactly width).give Answer.bytes
  | upTo count => exact (follows_upTo count).give Answer.bytes
  | counted => exact follows_counted.give Answer.bytes
  | chain total => exact (follows_chain total).give Answer.entries
  | countedChain count limit => exact (follows_countedChain limit count).give Answer.entries
  | nth entries type occurrence =>
      exact fun c _ =>
        .of_runs rfl ((runs_nth? entries type occurrence c).bind (runs_pure _ c)) rfl
  | scan length => exact (follows_scan cat length).bind fun _ => follows_pure _
  | scanShort length => exact (follows_scanShort cat length).bind fun _ => follows_pure _
  | block => exact (follows_readBlock cat).give Answer.reading
  | record => exact (follows_read cat).give Answer.reading

theorem follows_runAll (calls : List Call) : Follows (runAll cat calls) (readAll cat calls) := by
  unfold runAll readAll
  induction calls with
  | nil => exact follows_pure []
  | cons call calls ih =>
      rw [List.mapM_cons, List.mapM_cons]
      exact (follows_observing (call.follows cat)).bind fun _ => ih.bind fun _ => follows_pure _

/-- Calls of the library always end: a fault ends the call that meets it and no other. -/
theorem readAll_ok (calls : List Call) (c : Cursor) :
    ∃ answers c', readAll cat calls c = .ok answers c' := by
  unfold readAll
  induction calls generalizing c with
  | nil => exact ⟨[], c, rfl⟩
  | cons call calls ih =>
      obtain ⟨answer, c₁, hcall⟩ : ∃ answer c₁, observing (call.read cat) c = .ok answer c₁ := by
        cases hread : call.read cat c with
        | ok a c₁ => exact ⟨.ok a, c₁, Reader.observing_ok hread⟩
        | error fault c₁ => exact ⟨.error fault, c₁, Reader.observing_error hread⟩
      obtain ⟨answers, c', hcalls⟩ := ih c₁
      refine ⟨answer :: answers, c', ?_⟩
      rw [List.mapM_cons, Reader.bind_ok hcall, Reader.bind_ok hcalls]
      rfl

/-- **No call traps and every call ends.**  Wherever a machine starts in a buffer that it can hold,
and whatever it is asked with whatever arguments, it gives the answers of the library and stands
where the library stands, inside the buffer. -/
theorem runAll_spec (calls : List Call) {buffer : Bytes} {position : Nat}
    (hbuffer : buffer.length < 2 ^ 63) (hposition : position ≤ buffer.length) :
    ∃ answers final, final ≤ buffer.length ∧
      (∃ hfinal, readAll cat calls ⟨buffer, position, hposition⟩ =
        .ok answers ⟨buffer, final, hfinal⟩) ∧
      runAll cat calls ⟨buffer, position⟩ = some (.ok (.ok answers, ⟨buffer, final⟩)) := by
  obtain ⟨answers, c', hread⟩ := readAll_ok cat calls ⟨buffer, position, hposition⟩
  have hfollows := follows_runAll cat calls ⟨buffer, position, hposition⟩ hbuffer
  have hrun := hfollows.runs hread
  obtain rfl : c'.buffer = buffer := hfollows.buffer_eq hread
  exact ⟨answers, c'.position, c'.position_le, ⟨c'.position_le, hread⟩, hrun⟩

/-- Calls with the greatest words as arguments. -/
def greatest : List Call :=
  [.counted, .chain (2 ^ 64 - 1), .seek (2 ^ 64 - 1), .octet, .skip (2 ^ 64 - 1), .seek 2,
    .nth [] 1 (2 ^ 64 - 1), .scanShort (2 ^ 64 - 1)]

/-- These calls on eight octets: the chain is clamped, the octet is missing, and the short block
reaches the end. -/
theorem runAll_spec_greatest :
    runAll Session.catalogue greatest ⟨[1, 97, 0, 25, 0, 9, 190, 239], 0⟩ =
      some (.ok (.ok [.ok (.bytes [97]), .ok (.entries [⟨25, 9, [190, 239]⟩]), .ok .done,
        .error (.truncated 1 0), .ok (.number 0), .ok .done, .ok (.entry none),
        .ok (.scan ⟨.none, none, [[0, 25], [0, 9], [190, 239]]⟩ 3)],
        ⟨[1, 97, 0, 25, 0, 9, 190, 239], 8⟩)) := by
  have hvalue : (match readAll Session.catalogue greatest
      (.ofBytes [1, 97, 0, 25, 0, 9, 190, 239]) with
    | .ok answers c => some (answers, c.position)
    | .error _ _ => none) =
      some ([.ok (.bytes [97]), .ok (.entries [⟨25, 9, [190, 239]⟩]), .ok .done,
        .error (.truncated 1 0), .ok (.number 0), .ok .done, .ok (.entry none),
        .ok (.scan ⟨.none, none, [[0, 25], [0, 9], [190, 239]]⟩ 3)], 8) := by
    decide +kernel
  obtain ⟨answers, final, -, ⟨hfinal, hread⟩, hrun⟩ := runAll_spec Session.catalogue greatest
    (show [1, 97, 0, 25, 0, 9, 190, 239].length < 2 ^ 63 by decide) (Nat.zero_le _)
  have hstart : Cursor.ofBytes [1, 97, 0, 25, 0, 9, 190, 239] = ⟨_, 0, Nat.zero_le _⟩ := rfl
  rw [hstart, hread] at hvalue
  obtain ⟨rfl, rfl⟩ := Prod.mk.inj (Option.some.inj hvalue)
  exact hrun

end Call
end Whereabouts
