import Mathlib.Algebra.Ring.Nat
import Whereabouts.Proofs.Cursor

/-! # Checked reads

What a cursor does, in the steps of a machine with words of 64 bits.  A step that leaves the words,
takes away more than there is or reaches outside a string ends the run with a `Trap`, and a loop
may go on for ever.

`Follows` says that such a run does neither, and that it gives what a read of the library gives.
All reads of `Reader` have a checked form that follows them, on any buffer that a machine can hold. -/

namespace Whereabouts

/-- Why a machine stops. -/
inductive Trap where
  /-- A number beyond its word. -/
  | overflow
  /-- A difference below zero. -/
  | underflow
  /-- Octets outside a string. -/
  | outOfRange
deriving DecidableEq, Repr

/-- The cursor of a machine: nothing keeps the position inside the buffer. -/
structure Frame where
  buffer : Bytes
  position : Nat
deriving DecidableEq, Repr

/-- The frame of a cursor. -/
def Frame.ofCursor (c : Cursor) : Frame := ⟨c.buffer, c.position⟩

/-- A run of the machine: it goes on for ever, it stops at a trap, or it ends with a fault or a
value. -/
abbrev Checked := ExceptT Fault (StateT Frame (ExceptT Trap Option))

namespace Checked

variable {α β : Type}

/-! ### Steps -/

/-- How many words there are. -/
def words : Nat := 2 ^ 64

def trap (t : Trap) : Checked α := fun _ => some (.error t)

def add (a b : Nat) : Checked Nat :=
  if a + b < words then pure (a + b) else trap .overflow

def sub (a b : Nat) : Checked Nat :=
  if b ≤ a then pure (a - b) else trap .underflow

/-- The octets of a string from one place up to another. -/
def slice (bytes : Bytes) (start stop : Nat) : Checked Bytes :=
  if start ≤ stop ∧ stop ≤ bytes.length then pure ((bytes.drop start).take (stop - start))
  else trap .outOfRange

/-! ### Reads -/

def remaining : Checked Nat := do
  let f ← get
  sub f.buffer.length f.position

def unread : Checked Bytes := do
  let f ← get
  slice f.buffer f.position f.buffer.length

/-- Goes to a position, or to the end if the position is beyond it. -/
def seek (position : Nat) : Checked Unit := do
  let f ← get
  set { f with position := min position f.buffer.length }

/-- Adds to the position. -/
def move (count : Nat) : Checked Unit := do
  let f ← get
  let position ← add f.position count
  set { f with position }

/-- Fails unless these many octets are left. -/
def ensure (needed : Nat) : Checked Unit := do
  let left ← remaining
  if left < needed then throw (.truncated needed left) else pure ()

def take (count : Nat) : Checked Bytes := do
  let f ← get
  let stop ← add f.position count
  let bytes ← slice f.buffer f.position stop
  move count
  return bytes

def exactly (width : Nat) : Checked Bytes := do
  ensure width
  take width

def upTo (count : Nat) : Checked Bytes := do
  let left ← remaining
  take (min count left)

def skip (count : Nat) : Checked Nat := do
  let left ← remaining
  move (min count left)
  return min count left

/-- The number at the front, which takes `width` octets. -/
def number (width : Nat) (front? : Bytes → Option α) : Checked α := do
  ensure width
  match front? (← unread) with
  | some v =>
      move width
      return v
  | none => trap .outOfRange

def octet : Checked UInt8 := number 1 List.head?

def word16 : Checked UInt16 := number 2 Bytes.leading16?

def word32 : Checked UInt32 := number 4 Bytes.leading32?

def counted : Checked Bytes := do
  let length ← octet
  upTo length.toNat

/-- Runs on a string of its own, from its start. -/
def within (bytes : Bytes) (x : Checked α) : Checked α := do
  let here ← get
  set (⟨bytes, 0⟩ : Frame)
  let a ← x
  set here
  return a

section Loops

variable {σ : Type} (round : σ → Checked (σ ⊕ β))

/-- Rounds from a state on, until one gives a result instead of the next state.  If none does, the
run goes on for ever: this is the least solution of the equation. -/
def loop (s : σ) : Checked β := do
  match ← round s with
  -- A call that is applied by a tactic carries no place in the text with it.
  | .inl next => by apply loop; exact next
  | .inr b => return b
partial_fixpoint

end Loops

/-! ### Runs that end -/

/-- The end of a run, if it is that of a read. -/
def ended : EStateM.Result Fault Cursor α → Option (Except Trap (Except Fault α × Frame))
  | .ok a c => some (.ok (.ok a, .ofCursor c))
  | .error fault c => some (.ok (.error fault, .ofCursor c))

/-- Whether a run that starts at a cursor ends with a value at another, without a trap. -/
def Runs (x : Checked α) (c : Cursor) (a : α) (c' : Cursor) : Prop :=
  x (.ofCursor c) = ended (.ok a c')

/-- Whether a run ends with a fault, without a trap. -/
def Fails (x : Checked α) (c : Cursor) (fault : Fault) (c' : Cursor) : Prop :=
  x (.ofCursor c) = ended (.error fault c')

variable {x : Checked α} {f : α → Checked β} {a : α} {b : β} {fault : Fault} {c c₁ c₂ : Cursor}
  {σ : Type} {round : σ → Checked (σ ⊕ β)} {s s' : σ}

theorem bind_apply {frame frame' : Frame} (h : x frame = some (.ok (.ok a, frame'))) :
    (x >>= f) frame = f a frame' := by
  show StateT.bind x (ExceptT.bindCont f) frame = _
  unfold StateT.bind
  rw [h]
  rfl

theorem bind_fails {frame frame' : Frame} (h : x frame = some (.ok (.error fault, frame'))) :
    (x >>= f) frame = some (.ok (.error fault, frame')) := by
  show StateT.bind x (ExceptT.bindCont f) frame = _
  unfold StateT.bind
  rw [h]
  rfl

theorem Runs.bind (hx : Runs x c a c₁) (hf : Runs (f a) c₁ b c₂) : Runs (x >>= f) c b c₂ :=
  (bind_apply hx).trans hf

theorem Runs.bind_fails (hx : Runs x c a c₁) (hf : Fails (f a) c₁ fault c₂) :
    Fails (x >>= f) c fault c₂ :=
  (bind_apply hx).trans hf

theorem Fails.bind (hx : Fails x c fault c₁) : Fails (x >>= f) c fault c₁ :=
  Checked.bind_fails hx

theorem runs_pure (a : α) (c : Cursor) : Runs (pure a) c a c := rfl

theorem runs_get (c : Cursor) : Runs get c (.ofCursor c) c := rfl

theorem Runs.loop_next (hround : Runs (round s) c (.inl s') c₁) (hrest : Runs (loop round s') c₁ b c₂) :
    Runs (loop round s) c b c₂ := by
  rw [loop]
  exact hround.bind hrest

theorem Runs.loop_last (hround : Runs (round s) c (.inr b) c₁) : Runs (loop round s) c b c₁ := by
  rw [loop]
  exact hround.bind (runs_pure b c₁)

/-! ### Steps that do not trap -/

theorem runs_add {m n : Nat} (h : m + n < words) (c : Cursor) : Runs (add m n) c (m + n) c := by
  unfold add
  rw [if_pos h]
  exact runs_pure _ c

theorem runs_sub {m n : Nat} (h : n ≤ m) (c : Cursor) : Runs (sub m n) c (m - n) c := by
  unfold sub
  rw [if_pos h]
  exact runs_pure _ c

theorem runs_slice {bytes : Bytes} {start stop : Nat} (h : start ≤ stop)
    (hstop : stop ≤ bytes.length) (c : Cursor) :
    Runs (slice bytes start stop) c ((bytes.drop start).take (stop - start)) c := by
  unfold slice
  rw [if_pos ⟨h, hstop⟩]
  exact runs_pure _ c

theorem runs_remaining (c : Cursor) : Runs remaining c c.remaining c :=
  (runs_get c).bind (runs_sub c.position_le c)

theorem runs_unread (c : Cursor) : Runs unread c c.unread c := by
  have htake : (c.buffer.drop c.position).take (c.buffer.length - c.position) = c.unread :=
    List.take_of_length_le (Nat.le_of_eq List.length_drop)
  have hslice := runs_slice c.position_le (Nat.le_refl c.buffer.length) c
  rw [htake] at hslice
  exact Runs.bind (f := fun f => slice f.buffer f.position f.buffer.length) (runs_get c) hslice

theorem runs_seek (position : Nat) (c : Cursor) : Runs (seek position) c () (c.seek position) := rfl

theorem runs_ensure {needed : Nat} (h : needed ≤ c.remaining) : Runs (ensure needed) c () c := by
  refine (runs_remaining c).bind ?_
  rw [if_neg (Nat.not_lt.mpr h)]
  exact runs_pure () c

theorem fails_ensure {needed : Nat} (h : c.remaining < needed) :
    Fails (ensure needed) c (.truncated needed c.remaining) c := by
  refine (runs_remaining c).bind_fails ?_
  rw [if_pos h]
  rfl

/-- What starts on a string of its own goes back to where it was. -/
theorem runs_within {bytes : Bytes} (h : Runs x (.ofBytes bytes) a c₁) :
    Runs (within bytes x) c a c := by
  have hback : (do
      let a ← x
      set (Frame.ofCursor c)
      return a) (.ofCursor (.ofBytes bytes)) = ended (.ok a c) :=
    (bind_apply h).trans rfl
  exact hback

end Checked

/-! ### Following a read -/

/-- Whether a machine can hold the buffer: none is longer than a signed word can say. -/
def Cursor.Addressable (c : Cursor) : Prop := c.buffer.length < 2 ^ 63

theorem Cursor.Addressable.of_buffer {c c' : Cursor} (h : c.Addressable)
    (hbuffer : c'.buffer = c.buffer) : c'.Addressable := by
  unfold Addressable
  rwa [hbuffer]

theorem Cursor.Addressable.length_lt {c : Cursor} (h : c.Addressable) :
    c.buffer.length < Checked.words := Nat.lt_trans h (by decide)

theorem Cursor.Addressable.position_lt {c : Cursor} (h : c.Addressable) :
    c.position < Checked.words := Nat.lt_of_le_of_lt c.position_le h.length_lt

/-- The cursor that a read ends at. -/
def Reader.endOf {α : Type} : EStateM.Result Fault Cursor α → Cursor
  | .ok _ c => c
  | .error _ c => c

namespace Checked

variable {α β : Type}

/-- Whether a run from a cursor ends as a read does, in the same buffer. -/
structure FollowsAt (x : Checked α) (r : Reader α) (c : Cursor) : Prop where
  run : x (.ofCursor c) = ended (r c)
  buffer : (Reader.endOf (r c)).buffer = c.buffer

/-- Whether runs end as a read does, wherever they start in a buffer that a machine can hold. -/
def Follows (x : Checked α) (r : Reader α) : Prop :=
  ∀ c : Cursor, c.Addressable → FollowsAt x r c

variable {x : Checked α} {r : Reader α} {f : α → Checked β} {g : α → Reader β} {c c' : Cursor}

theorem FollowsAt.runs {a : α} (h : FollowsAt x r c) (hr : r c = .ok a c') : Runs x c a c' := by
  unfold Runs
  rw [h.run, hr]

theorem FollowsAt.buffer_eq {a : α} (h : FollowsAt x r c) (hr : r c = .ok a c') :
    c'.buffer = c.buffer := by
  have hbuffer := h.buffer
  rw [hr] at hbuffer
  exact hbuffer

theorem FollowsAt.of_runs {a : α} (hr : r c = .ok a c') (h : Runs x c a c')
    (hbuffer : c'.buffer = c.buffer) : FollowsAt x r c := by
  refine ⟨?_, ?_⟩
  · rw [hr]
    exact h
  · rw [hr]
    exact hbuffer

theorem FollowsAt.of_fails {fault : Fault} (hr : r c = .error fault c') (h : Fails x c fault c')
    (hbuffer : c'.buffer = c.buffer) : FollowsAt x r c := by
  refine ⟨?_, ?_⟩
  · rw [hr]
    exact h
  · rw [hr]
    exact hbuffer

/-- A read goes on where it was left, and so does what follows it. -/
theorem FollowsAt.bind (hx : FollowsAt x r c)
    (hf : ∀ a c', r c = .ok a c' → c'.buffer = c.buffer → FollowsAt (f a) (g a) c') :
    FollowsAt (x >>= f) (r >>= g) c := by
  cases hr : r c with
  | ok a c' =>
      have hrest := hf a c' hr (hx.buffer_eq hr)
      refine ⟨?_, ?_⟩
      · rw [Reader.bind_ok hr, bind_apply (hx.runs hr)]
        exact hrest.run
      · rw [Reader.bind_ok hr, hrest.buffer]
        exact hx.buffer_eq hr
  | error fault c' =>
      have hfails := hx.run
      have hbuffer := hx.buffer
      rw [hr] at hfails hbuffer
      refine ⟨?_, ?_⟩
      · rw [Reader.bind_error hr]
        exact Checked.bind_fails hfails
      · rw [Reader.bind_error hr]
        exact hbuffer

theorem Follows.bind (hx : Follows x r) (hf : ∀ a, Follows (f a) (g a)) :
    Follows (x >>= f) (r >>= g) := by
  intro c hc
  exact (hx c hc).bind fun a c' _ hbuffer => hf a c' (hc.of_buffer hbuffer)

theorem follows_pure (a : α) : Follows (pure a) (pure a) := fun _ _ => ⟨rfl, rfl⟩

theorem Follows.give (h : Follows x r) (f : α → β) :
    Follows (do return f (← x)) (do return f (← r)) :=
  h.bind fun a => follows_pure (f a)

/-- What is observed of a run is how it ends. -/
theorem observing_apply {result : Except Fault α} {frame frame' : Frame}
    (h : x frame = some (.ok (result, frame'))) :
    observing x frame = some (.ok (.ok result, frame')) := by
  have hx : (x >>= fun a => pure (.ok a) : Checked (Except Fault α)) frame =
      some (.ok (result.map .ok, frame')) := by
    cases result with
    | ok a => exact (bind_apply h).trans rfl
    | error fault => exact bind_fails h
  show ExceptT.tryCatch (x >>= fun a => pure (.ok a) : Checked (Except Fault α))
    (fun e => pure (.error e)) frame = _
  unfold ExceptT.tryCatch ExceptT.mk
  show StateT.bind (x >>= fun a => pure (.ok a) : Checked (Except Fault α)) _ frame = _
  unfold StateT.bind
  rw [hx]
  cases result <;> rfl

theorem runs_observing {a : α} (h : Runs x c a c') : Runs (observing x) c (.ok a) c' :=
  observing_apply h

theorem ended_observing (h : x (.ofCursor c) = ended (r c)) :
    observing x (.ofCursor c) = ended (observing r c) := by
  rw [Reader.observing_apply]
  cases hr : r c with
  | ok a c' =>
      rw [hr] at h
      exact observing_apply h
  | error fault c' =>
      rw [hr] at h
      exact observing_apply h

theorem follows_observing (h : Follows x r) : Follows (observing x) (observing r) := by
  intro c hc
  obtain ⟨hrun, hbuffer⟩ := h c hc
  refine ⟨ended_observing hrun, ?_⟩
  rw [Reader.observing_apply]
  cases hr : r c with
  | ok a c' | error fault c' =>
      rw [hr] at hbuffer
      exact hbuffer

/-! ### The reads of a cursor -/

theorem position_add_le {count : Nat} (h : count ≤ c.remaining) :
    c.position + count ≤ c.buffer.length := by
  have hposition := c.position_le
  unfold Cursor.remaining Cursor.length at h
  omega

theorem position_add_lt {count : Nat} (hc : c.Addressable) (h : count ≤ c.remaining) :
    c.position + count < words :=
  Nat.lt_of_le_of_lt (position_add_le h) hc.length_lt

theorem runs_move {count : Nat} (hc : c.Addressable) (h : count ≤ c.remaining) :
    Runs (move count) c () (c.advance count) := by
  have hset : Runs (set (⟨c.buffer, c.position + count⟩ : Frame)) c () (c.advance count) := by
    show some (Except.ok (Except.ok (), (⟨c.buffer, c.position + count⟩ : Frame))) =
      some (.ok (.ok (), ⟨c.buffer, min (c.position + count) c.buffer.length⟩))
    rw [Nat.min_eq_left (position_add_le h)]
  exact (runs_get c).bind ((runs_add (position_add_lt hc h) c).bind hset)

theorem runs_take {count : Nat} (hc : c.Addressable) (h : count ≤ c.remaining) :
    Runs (take count) c (c.unread.take count) (c.advance count) := by
  have hslice := runs_slice (Nat.le_add_right c.position count) (position_add_le h) c
  rw [Nat.add_sub_cancel_left] at hslice
  exact (runs_get c).bind <| (runs_add (position_add_lt hc h) c).bind <|
    hslice.bind <| (runs_move hc h).bind (runs_pure _ _)

theorem advance_min (c : Cursor) (count : Nat) :
    c.advance (min count c.remaining) = c.advance count := by
  have hposition := c.position_le
  have hend : min (c.position + min count c.remaining) c.buffer.length =
      min (c.position + count) c.buffer.length := by
    unfold Cursor.remaining Cursor.length
    omega
  unfold Cursor.advance Cursor.seek
  simp only [hend]

theorem follows_exactly (width : Nat) : Follows (exactly width) (Reader.exactly width) := by
  intro c hc
  by_cases h : c.remaining < width
  · exact .of_fails (if_pos h) (fails_ensure h).bind rfl
  · have hwidth := Nat.not_lt.mp h
    exact .of_runs (if_neg h) ((runs_ensure hwidth).bind (runs_take hc hwidth)) rfl

theorem follows_upTo (count : Nat) : Follows (upTo count) (Reader.upTo count) := by
  intro c hc
  have htake := runs_take hc (Nat.min_le_right count c.remaining)
  rw [advance_min, ← Cursor.length_unread, ← List.take_eq_take_min] at htake
  exact .of_runs rfl ((runs_remaining c).bind (by rwa [← Cursor.length_unread])) rfl

theorem follows_skip (count : Nat) : Follows (skip count) (Reader.skip count) := by
  intro c hc
  have hmove := runs_move hc (Nat.min_le_right count c.remaining)
  rw [advance_min] at hmove
  exact .of_runs rfl ((runs_remaining c).bind (hmove.bind (runs_pure _ _))) rfl

theorem follows_seek (position : Nat) :
    Follows (seek position) fun c => .ok () (c.seek position) :=
  fun _ _ => ⟨rfl, rfl⟩

section Front

variable {width : Nat} {front? : Bytes → Option α}
  (hfront : ∀ bytes, (front? bytes).isSome ↔ width ≤ bytes.length)

include hfront

theorem runs_number {v : α} (hc : c.Addressable) (hv : front? c.unread = some v) :
    Runs (number width front?) c v (c.advance width) := by
  have hleft : width ≤ c.remaining := by
    rw [← Cursor.length_unread, ← hfront, hv]
    rfl
  refine (runs_ensure hleft).bind ((runs_unread c).bind ?_)
  rw [hv]
  exact (runs_move hc hleft).bind (runs_pure v _)

theorem fails_number (hv : front? c.unread = none) :
    Fails (number width front?) c (.truncated width c.remaining) c := by
  have hleft : c.remaining < width := by
    rw [← Nat.not_le, ← Cursor.length_unread, ← hfront, hv]
    exact Bool.false_ne_true
  exact (fails_ensure hleft).bind

end Front

/-- Whether a read gives the number at the front, which takes `width` octets, or fails. -/
structure ReadsFront (r : Reader α) (width : Nat) (front? : Bytes → Option α) : Prop where
  isSome : ∀ bytes, (front? bytes).isSome ↔ width ≤ bytes.length
  apply : ∀ c, r c = match front? c.unread with
    | some v => .ok v (c.advance width)
    | none => .error (.truncated width c.remaining) c

theorem ReadsFront.follows {width : Nat} {front? : Bytes → Option α}
    (h : ReadsFront r width front?) : Follows (number width front?) r := by
  intro c hc
  cases hv : front? c.unread with
  | some v => exact .of_runs (by rw [h.apply, hv]) (runs_number h.isSome hc hv) rfl
  | none => exact .of_fails (by rw [h.apply, hv]) (fails_number h.isSome hv) rfl

theorem isSome_head? (bytes : Bytes) : bytes.head?.isSome ↔ 1 ≤ bytes.length := by
  cases bytes <;> simp

theorem isSome_leading16? (bytes : Bytes) :
    (Bytes.leading16? bytes).isSome ↔ 2 ≤ bytes.length := by
  match bytes with
  | [] | [_] | _ :: _ :: _ => simp [Bytes.leading16?]

theorem isSome_leading32? (bytes : Bytes) :
    (Bytes.leading32? bytes).isSome ↔ 4 ≤ bytes.length := by
  match bytes with
  | [] | [_] | [_, _] | [_, _, _] | _ :: _ :: _ :: _ :: _ => simp [Bytes.leading32?]

theorem observes_octet {a : UInt8} {rest : Bytes} (hc : c.Addressable)
    (h : c.unread = a :: rest) : Runs (observing octet) c (.ok a) (c.advance 1) :=
  runs_observing (runs_number isSome_head? hc (by rw [h]; rfl))

theorem observes_word16 {a b : UInt8} {rest : Bytes} (hc : c.Addressable)
    (h : c.unread = a :: b :: rest) :
    Runs (observing word16) c (.ok (Bytes.word16 a b)) (c.advance 2) :=
  runs_observing (runs_number isSome_leading16? hc (by rw [h]; rfl))

theorem observes_no_word16 (h : c.unread.length < 2) :
    Runs (observing word16) c (.error (.truncated 2 c.remaining)) c := by
  have hnone : Bytes.leading16? c.unread = none := by
    rw [← Option.not_isSome_iff_eq_none, isSome_leading16?]
    exact Nat.not_le.mpr h
  exact observing_apply (fails_number isSome_leading16? hnone)

theorem readsFront_octet : ReadsFront Reader.octet 1 List.head? := by
  refine ⟨isSome_head?, fun c => ?_⟩
  unfold Reader.octet
  cases c.unread <;> rfl

theorem readsFront_word16 : ReadsFront Reader.word16 2 Bytes.leading16? := by
  refine ⟨isSome_leading16?, fun c => ?_⟩
  unfold Reader.word16
  match c.unread with
  | [] | [_] | _ :: _ :: _ => rfl

theorem readsFront_word32 : ReadsFront Reader.word32 4 Bytes.leading32? := by
  refine ⟨isSome_leading32?, fun c => ?_⟩
  unfold Reader.word32
  match c.unread with
  | [] | [_] | [_, _] | [_, _, _] | _ :: _ :: _ :: _ :: _ => rfl

theorem follows_octet : Follows octet Reader.octet := readsFront_octet.follows

theorem follows_word16 : Follows word16 Reader.word16 := readsFront_word16.follows

theorem follows_word32 : Follows word32 Reader.word32 := readsFront_word32.follows

theorem follows_counted : Follows counted Reader.counted :=
  follows_octet.bind fun length => follows_upTo length.toNat

end Checked
end Whereabouts
