import Mathlib.Data.List.Basic
import Whereabouts.Wire.Cursor

/-! # Reading what was written

A read looks at nothing but the unread octets.  If these begin with a written number or string,
the matching read gives it back and leaves the rest unread: `octet_of_unread`,
`word16_of_unread`, `word32_of_unread`, `counted_of_unread`.  A read that meets the end fails and
says how much remained: `octet_of_remaining_eq_zero`, `word16_of_lt`. -/

namespace Whereabouts

namespace Cursor

@[simp] theorem unread_ofBytes (bytes : Bytes) : (ofBytes bytes).unread = bytes := rfl

theorem buffer_append (c : Cursor) (bytes : Bytes) : (c.append bytes).buffer = c.buffer ++ bytes := rfl

theorem unread_append (c : Cursor) (bytes : Bytes) :
    (c.append bytes).unread = c.unread ++ bytes :=
  List.drop_append_of_le_length c.position_le

theorem unread_seek (c : Cursor) (n : Nat) : (c.seek n).unread = c.buffer.drop n := by
  show c.buffer.drop (min n c.buffer.length) = c.buffer.drop n
  rcases Nat.le_total n c.buffer.length with h | h
  · rw [Nat.min_eq_left h]
  · rw [Nat.min_eq_right h, List.drop_of_length_le h, List.drop_of_length_le (Nat.le_refl _)]

@[simp] theorem unread_advance (c : Cursor) (n : Nat) : (c.advance n).unread = c.unread.drop n := by
  unfold advance
  rw [unread_seek, unread, List.drop_drop]

theorem leaving_eq_advance {c : Cursor} {front rest : Bytes} (h : c.unread = front ++ rest) :
    c.leaving rest.length = c.advance front.length := by
  have hlength : c.remaining = front.length + rest.length := by
    rw [← length_unread, h, List.length_append]
  have hposition := c.position_le
  have hadd : c.length - rest.length = c.position + front.length := by
    unfold remaining length at *
    omega
  unfold leaving advance
  rw [hadd]

theorem unread_leaving {c : Cursor} {front rest : Bytes} (h : c.unread = front ++ rest) :
    (c.leaving rest.length).unread = rest := by
  rw [leaving_eq_advance h, unread_advance, h, List.drop_left]

theorem leaving_eq {c c' : Cursor} (h : c'.buffer = c.buffer) (n : Nat) :
    c'.leaving n = c.leaving n := by
  unfold leaving seek length
  simp only [h]

theorem leaving_remaining (c : Cursor) : c.leaving c.remaining = c := by
  have hposition := c.position_le
  have hback : min (c.length - c.remaining) c.buffer.length = c.position := by
    unfold remaining length
    omega
  unfold leaving seek
  simp only [hback]

theorem position_advance (c : Cursor) (n : Nat) :
    (c.advance n).position = c.position + min n c.remaining := by
  have hposition := c.position_le
  show min (c.position + n) c.buffer.length = _
  unfold remaining length
  omega

@[simp] theorem remaining_advance (c : Cursor) (n : Nat) :
    (c.advance n).remaining = c.remaining - n := by
  rw [← length_unread, unread_advance, List.length_drop, length_unread]

theorem advance_advance (c : Cursor) (m n : Nat) :
    (c.advance m).advance n = c.advance (m + n) := by
  have hend : min (min (c.position + m) c.buffer.length + n) c.buffer.length =
      min (c.position + (m + n)) c.buffer.length := by
    omega
  unfold advance seek
  simp only [hend]

theorem advance_zero (c : Cursor) : c.advance 0 = c := by
  unfold advance seek
  simp only [Nat.add_zero, Nat.min_eq_left c.position_le]

theorem advance_length_take (c : Cursor) (length : Nat) :
    c.advance (c.unread.take length).length = c.advance length := by
  have hposition := c.position_le
  have hend : min (c.position + min length c.remaining) c.buffer.length =
      min (c.position + length) c.buffer.length := by
    unfold remaining Cursor.length
    omega
  unfold advance seek
  rw [List.length_take, length_unread]
  simp only [hend]

theorem remaining_eq_zero_iff (c : Cursor) : c.remaining = 0 ↔ c.unread = [] := by
  rw [← length_unread, List.length_eq_zero_iff]

end Cursor

namespace Reader

theorem bind_ok {α β : Type} {x : Reader α} {f : α → Reader β} {a : α} {c c' : Cursor}
    (h : x c = .ok a c') : (x >>= f) c = f a c' := by
  show EStateM.bind x f c = _
  rw [EStateM.bind, h]

/-- A read that succeeds is a run of its two parts. -/
theorem bind_inv {α β : Type} {x : Reader α} {f : α → Reader β} {b : β} {c c' : Cursor}
    (h : (x >>= f) c = .ok b c') : ∃ a c₁, x c = .ok a c₁ ∧ f a c₁ = .ok b c' := by
  change EStateM.bind x f c = _ at h
  rw [EStateM.bind] at h
  split at h
  · exact ⟨_, _, ‹_›, h⟩
  · cases h

theorem bind_error {α β : Type} {x : Reader α} {f : α → Reader β} {fault : Fault} {c c' : Cursor}
    (h : x c = .error fault c') : (x >>= f) c = .error fault c' := by
  show EStateM.bind x f c = _
  rw [EStateM.bind, h]

theorem pure_inv {α : Type} {a b : α} {c c' : Cursor} (h : (pure a : Reader α) c = .ok b c') :
    a = b ∧ c = c' :=
  EStateM.Result.ok.inj h

theorem get_apply (c : Cursor) : (get : Reader Cursor) c = .ok c c := rfl

/-- A read that is observed never fails: it ends with what the read ends with. -/
theorem observing_apply {α : Type} (r : Reader α) (c : Cursor) :
    (observing r : Reader (Except Fault α)) c = match r c with
      | .ok a c' => .ok (.ok a) c'
      | .error fault c' => .ok (.error fault) c' := by
  show EStateM.tryCatch (EStateM.bind r _) _ c = _
  unfold EStateM.tryCatch EStateM.bind
  cases r c <;> rfl

theorem observing_ok {α : Type} {r : Reader α} {a : α} {c c' : Cursor} (h : r c = .ok a c') :
    (observing r : Reader (Except Fault α)) c = .ok (.ok a) c' := by
  rw [observing_apply, h]

theorem observing_error {α : Type} {r : Reader α} {fault : Fault} {c c' : Cursor}
    (h : r c = .error fault c') :
    (observing r : Reader (Except Fault α)) c = .ok (.error fault) c' := by
  rw [observing_apply, h]

theorem get_bind {α : Type} (f : Cursor → Reader α) (c : Cursor) : (get >>= f) c = f c c := rfl

variable {c : Cursor} {rest : Bytes}

theorem octet_of_unread {b : UInt8} (h : c.unread = b :: rest) :
    octet c = .ok b (c.advance 1) ∧ (c.advance 1).unread = rest := by
  refine ⟨?_, ?_⟩
  · unfold octet
    rw [h]
  · rw [Cursor.unread_advance, h]
    rfl

theorem word16_of_unread {v : UInt16} (h : c.unread = Bytes.ofWord16 v ++ rest) :
    word16 c = .ok v (c.advance 2) ∧ (c.advance 2).unread = rest := by
  refine ⟨?_, ?_⟩
  · unfold word16
    rw [h]
    exact congrArg (fun n => EStateM.Result.ok n (c.advance 2)) (Bytes.word16_ofWord16 v)
  · rw [Cursor.unread_advance, h]
    rfl

theorem word32_of_unread {v : UInt32} (h : c.unread = Bytes.ofWord32 v ++ rest) :
    word32 c = .ok v (c.advance 4) ∧ (c.advance 4).unread = rest := by
  refine ⟨?_, ?_⟩
  · unfold word32
    rw [h]
    exact congrArg (fun n => EStateM.Result.ok n (c.advance 4)) (Bytes.word32_ofWord32 v)
  · rw [Cursor.unread_advance, h]
    rfl

/-! ### Reads that meet the end -/

theorem octet_of_remaining_eq_zero (h : c.remaining = 0) :
    octet c = .error (.truncated 1 0) c := by
  unfold octet
  rw [(Cursor.remaining_eq_zero_iff c).mp h, h]

theorem word16_of_le (h : 2 ≤ c.remaining) : ∃ v, word16 c = .ok v (c.advance 2) := by
  have hlen : 2 ≤ c.unread.length := by rw [Cursor.length_unread]; exact h
  unfold word16
  match c.unread, hlen with
  | a :: b :: _, _ => exact ⟨Bytes.word16 a b, rfl⟩

theorem word16_of_lt (h : c.remaining < 2) :
    word16 c = .error (.truncated 2 c.remaining) c := by
  have hlen : c.unread.length < 2 := by rw [Cursor.length_unread]; exact h
  unfold word16
  match c.unread, hlen with
  | [], _ => rfl
  | [_], _ => rfl

theorem counted_of_unread_cons {l : UInt8} (h : c.unread = l :: rest) :
    ∃ bytes c', counted c = .ok bytes c' ∧ c'.remaining = c.remaining - 1 - l.toNat := by
  obtain ⟨hread, -⟩ := octet_of_unread h
  refine ⟨(c.advance 1).unread.take l.toNat, (c.advance 1).advance l.toNat, ?_, ?_⟩
  · unfold counted
    rw [bind_ok hread]
    rfl
  · rw [Cursor.remaining_advance, Cursor.remaining_advance]

/-- A read of what is there ends behind it, whatever length was asked for. -/
theorem upTo_of_take {length : Nat} {bytes : Bytes} (h : c.unread.take length = bytes) :
    upTo length c = .ok bytes (c.advance bytes.length) := by
  rw [← h, Cursor.advance_length_take]
  rfl

/-! ### Written strings -/

/-- A string behind its length octet is read back, up to what the octet can announce. -/
theorem counted_of_unread {bytes : Bytes} (h : c.unread = Bytes.counted bytes ++ rest) :
    ∃ c', counted c = .ok (bytes.take Bytes.countedLimit) c' ∧ c'.unread = rest ∧
      c'.buffer = c.buffer := by
  have hcons : c.unread =
      UInt8.ofNat (bytes.take 255).length :: (bytes.take 255 ++ rest) := h
  obtain ⟨read, left⟩ := octet_of_unread hcons
  have e : (UInt8.ofNat (bytes.take 255).length).toNat = (bytes.take 255).length := by
    have : (bytes.take 255).length ≤ 255 := List.length_take_le _ _
    rw [UInt8.toNat_ofNat']
    omega
  refine ⟨(c.advance 1).advance (bytes.take 255).length, ?_, ?_, rfl⟩
  · unfold counted
    rw [bind_ok read, upTo, e, left, List.take_left]
    rfl
  · rw [Cursor.unread_advance, left, List.drop_left]

theorem parse_inv {α : Type} {parser : Bytes → α × Bytes} {value : α} {c' : Cursor}
    (h : parse parser c = .ok value c') :
    value = (parser c.unread).1 ∧ c' = c.leaving (parser c.unread).2.length := by
  obtain ⟨rfl, rfl⟩ := EStateM.Result.ok.inj h
  exact ⟨rfl, rfl⟩

theorem parse_eq {α : Type} {parser : Bytes → α × Bytes} {value : α}
    (h : parser c.unread = (value, rest)) : parse parser c = .ok value (c.leaving rest.length) := by
  unfold parse
  rw [h]

/-- A parser is given the unread octets; what it returns as the rest stays unread. -/
theorem parse_of_unread {α : Type} (parser : Bytes → α × Bytes) {value : α} {front : Bytes}
    (h : c.unread = front ++ rest) (hp : parser (front ++ rest) = (value, rest)) :
    ∃ c', parse parser c = .ok value c' ∧ c'.unread = rest ∧ c'.buffer = c.buffer :=
  ⟨c.leaving rest.length, parse_eq (h ▸ hp), Cursor.unread_leaving h, rfl⟩

end Reader
end Whereabouts
