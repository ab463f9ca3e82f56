import Whereabouts.Proofs.Chain
import Whereabouts.Proofs.Checked.Reads

/-! # Checked chains

The loop that reads a chain, and the look-up in it, in the steps of a machine.  The octets that
the loop has used up never pass the position of its cursor, so their number stays a word
(`runs_entriesAfter`). -/

namespace Whereabouts

namespace Checked

/-! ### Entries -/

/-- The next entry, which may use `room` octets, if its header fits. -/
def found? (room : Nat) : Checked (Option Tlv.Found) := do
  if room < Tlv.headerSize then return none
  else
    let left ← remaining
    if left < Tlv.headerSize then return none
    else
      match ← observing word16, ← observing word16 with
      | .ok type, .ok declared =>
          let fits ← sub room Tlv.headerSize
          let value ← upTo (min declared.toNat fits)
          return some ⟨type, declared, value⟩
      | _, _ => return none

/-- One round of the loop over a chain.  The next entry goes in front of those in `done`, until there
are `most` or no header fits.  `consumed` of `total` octets are used up. -/
def nextEntry (most total : Nat) :
    Nat × List Tlv.Found → Checked ((Nat × List Tlv.Found) ⊕ List Tlv.Found)
  | (consumed, done) => do
      if done.length < most then
        match ← found? (total - consumed) with
        | none => return .inr done.reverse
        | some found =>
            let size ← add Tlv.headerSize found.value.length
            let consumed ← add consumed size
            return .inl (consumed, found :: done)
      else return .inr done.reverse

/-- Reads entries behind those in `done`, the last of which comes first. -/
def entriesAfter (most total consumed : Nat) (done : List Tlv.Found) :
    Checked (List Tlv.Found) :=
  loop (nextEntry most total) (consumed, done)

def chain (total : Nat) : Checked (List Tlv.Found) := entriesAfter (words - 1) total 0 []

/-- Reads at most `count` entries of a chain of at most `limit` octets. -/
def countedChain (count : UInt16) (limit : Nat) : Checked (List Tlv.Found) :=
  entriesAfter count.toNat limit 0 []

def nth? (c : Chain) (type : UInt16) (occurrence : Nat) : Checked (Option Tlv) := do
  if occurrence = 0 then return none
  else
    let i ← sub occurrence 1
    return (Chain.ofType c type)[i]?

/-! ### One entry -/

variable {c : Cursor} {room : Nat} {found : Tlv.Found} {rest : Bytes}

theorem runs_found?_none (h : Tlv.split? room c.unread = none) : Runs (found? room) c none c := by
  have hshort := Tlv.split?_eq_none_iff.mp h
  rw [Cursor.length_unread] at hshort
  unfold found?
  by_cases hroom : room < Tlv.headerSize
  · rw [if_pos hroom]
    exact runs_pure none c
  · rw [if_neg hroom]
    refine (runs_remaining c).bind ?_
    rw [if_pos (by omega)]
    exact runs_pure none c

/-- The entry that is read is the one that is split off, and the position moves by its size. -/
theorem runs_found?_some (hc : c.Addressable)
    (h : Tlv.split? room c.unread = some (found, rest)) :
    ∃ c', Runs (found? room) c (some found) c' ∧ c'.unread = rest ∧ c'.buffer = c.buffer ∧
      c'.position = c.position + (Tlv.headerSize + found.value.length) := by
  obtain ⟨hroom, a, b, x, y, octets, hunread, rfl, rfl⟩ := Tlv.split?_inv h
  have hlength : c.remaining = octets.length + 4 := by
    rw [← Cursor.length_unread, hunread]
    rfl
  have hbehind : (c.advance 2).unread = x :: y :: octets := by
    rw [Cursor.unread_advance, hunread]
    rfl
  have hvalue : ((c.advance 2).advance 2).unread = octets := by
    rw [Cursor.unread_advance, hbehind]
    rfl
  have htype := observes_word16 hc hunread
  have hdeclared := observes_word16 (c := c.advance 2) hc hbehind
  generalize hkept : min (Bytes.word16 x y).toNat (room - Tlv.headerSize) = kept
  have hupTo := (follows_upTo kept ((c.advance 2).advance 2) hc).runs rfl
  rw [hvalue] at hupTo
  refine ⟨((c.advance 2).advance 2).advance kept, ?_, ?_, rfl, ?_⟩
  · unfold found?
    rw [if_neg (Nat.not_lt.mpr hroom)]
    refine (runs_remaining c).bind ?_
    rw [if_neg (by rw [hlength, Tlv.headerSize]; omega)]
    refine htype.bind <| hdeclared.bind <| (runs_sub hroom _).bind ?_
    rw [hkept]
    exact hupTo.bind (runs_pure _ _)
  · rw [Cursor.unread_advance, hvalue]
  · simp only [Cursor.position_advance, Cursor.remaining_advance, hlength,
      List.length_take, Tlv.headerSize]
    omega

/-! ### All entries -/

theorem runs_stay {α : Type} (a : α) (c : Cursor) :
    Runs (pure a) c a (c.leaving c.unread.length) := by
  rw [Cursor.length_unread, Cursor.leaving_remaining]
  exact runs_pure a c

/-- The octets that are used up are all in front of the position, so they can be counted. -/
theorem runs_entriesAfter {most total consumed count : Nat} {done : List Tlv.Found}
    (hc : c.Addressable) (hconsumed : consumed ≤ c.position) (hcount : most - done.length = count) :
    Runs (entriesAfter most total consumed done) c
      (Chain.splitAfter count (total - consumed) done c.unread).1
      (c.leaving (Chain.splitAfter count (total - consumed) done c.unread).2.length) := by
  induction count generalizing c consumed done with
  | zero =>
      have hfull : ¬ done.length < most := by omega
      refine Runs.loop_last ?_
      rw [nextEntry, if_neg hfull]
      exact runs_stay _ c
  | succ count ih =>
      have hmore : done.length < most := by omega
      rw [Chain.splitAfter]
      cases hsplit : Tlv.split? (total - consumed) c.unread with
      | none =>
          refine Runs.loop_last ?_
          rw [nextEntry, if_pos hmore]
          exact (runs_found?_none hsplit).bind (runs_stay _ c)
      | some split =>
          obtain ⟨found, rest⟩ := split
          obtain ⟨c', hentry, rfl, hbuffer, hposition⟩ := runs_found?_some hc hsplit
          have hc' := hc.of_buffer hbuffer
          have hword := hc'.position_lt
          have hround : Runs (nextEntry most total (consumed, done)) c
              (.inl (consumed + (Tlv.headerSize + found.value.length), found :: done)) c' := by
            rw [nextEntry, if_pos hmore]
            exact hentry.bind <| (runs_add (by omega) c').bind <|
              (runs_add (by omega) c').bind (runs_pure _ c')
          have hnext := @ih c' (consumed + (Tlv.headerSize + found.value.length)) (found :: done) hc'
            (by omega) (by rw [List.length_cons]; omega)
          rw [← Nat.sub_sub, Cursor.leaving_eq hbuffer] at hnext
          exact hround.loop_next hnext

variable (limit : Nat)

theorem follows_countedChain (count : UInt16) :
    Follows (countedChain count limit) (Reader.parse (Chain.splitCounted count.toNat limit)) :=
  fun _ hc => .of_runs rfl (runs_entriesAfter hc (Nat.zero_le _) rfl) rfl

/-- No buffer has so many entries that their number leaves the words. -/
theorem follows_chain (total : Nat) :
    Follows (chain total) (Reader.parse (Chain.split total)) := by
  intro c hc
  have hmost : c.unread.length ≤ words - 1 := by
    have hbuffer : c.unread.length ≤ c.buffer.length := by
      unfold Cursor.unread
      rw [List.length_drop]
      exact Nat.sub_le _ _
    exact Nat.le_trans hbuffer (Nat.le_pred_of_lt hc.length_lt)
  have hchain : Runs (chain total) c (Chain.splitAfter (words - 1) total [] c.unread).1
      (c.leaving (Chain.splitAfter (words - 1) total [] c.unread).2.length) :=
    runs_entriesAfter hc (Nat.zero_le _) rfl
  rw [Chain.splitAfter_of_length_le hmost (Nat.le_refl _)] at hchain
  exact .of_runs rfl hchain rfl

theorem runs_nth? (entries : Chain) (type : UInt16) (occurrence : Nat) (c : Cursor) :
    Runs (nth? entries type occurrence) c (Chain.nth? entries type occurrence) c := by
  unfold nth?
  cases occurrence with
  | zero => exact runs_pure none c
  | succ i =>
      rw [if_neg (Nat.succ_ne_zero i)]
      exact (runs_sub (Nat.succ_le_succ (Nat.zero_le i)) c).bind (runs_pure _ c)

end Checked
end Whereabouts
