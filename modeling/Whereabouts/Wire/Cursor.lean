import Whereabouts.Fault

/-! # Cursors

A cursor is a buffer with a read position that never leaves it.  A read of fixed width either
takes all its octets or fails and leaves the cursor alone; a read of variable length takes what
is there.  Writes append to the buffer and leave the position alone.

Reads are actions in `Reader`, which keeps the cursor where it stood when a read fails, so a
caller can see how far it got. -/

namespace Whereabouts

/-- A buffer and a position in it. -/
structure Cursor where
  buffer : Bytes
  position : Nat
  position_le : position ≤ buffer.length
deriving DecidableEq

namespace Cursor

def ofBytes (buffer : Bytes) : Cursor := ⟨buffer, 0, Nat.zero_le _⟩

def length (c : Cursor) : Nat := c.buffer.length

/-- The octets from the position on. -/
def unread (c : Cursor) : Bytes := c.buffer.drop c.position

def remaining (c : Cursor) : Nat := c.length - c.position

/-- The cursor at a position, or at the end if the position is beyond it. -/
def seek (c : Cursor) (position : Nat) : Cursor :=
  ⟨c.buffer, min position c.buffer.length, Nat.min_le_right _ _⟩

/-- The cursor moved on by a number of octets, at most to the end. -/
def advance (c : Cursor) (count : Nat) : Cursor := c.seek (c.position + count)

/-- The cursor with only these many octets left to read. -/
def leaving (c : Cursor) (left : Nat) : Cursor := c.seek (c.length - left)

def append (c : Cursor) (bytes : Bytes) : Cursor :=
  ⟨c.buffer ++ bytes, c.position,
    Nat.le_trans c.position_le (by rw [List.length_append]; omega)⟩

@[simp] theorem length_unread (c : Cursor) : c.unread.length = c.remaining := by
  simp [unread, remaining, length]

@[simp] theorem buffer_seek (c : Cursor) (n : Nat) : (c.seek n).buffer = c.buffer := rfl

@[simp] theorem position_append (c : Cursor) (bs : Bytes) :
    (c.append bs).position = c.position := rfl

end Cursor

/-! ### Reading -/

/-- A read that may fail.  A failed read leaves the cursor where the failing step met it. -/
abbrev Reader := EStateM Fault Cursor

namespace Reader

/-- Exactly `width` octets. -/
def exactly (width : Nat) : Reader Bytes := fun c =>
  if c.remaining < width then .error (.truncated width c.remaining) c
  else .ok (c.unread.take width) (c.advance width)

def octet : Reader UInt8 := fun c =>
  match c.unread with
  | a :: _ => .ok a (c.advance 1)
  | [] => .error (.truncated 1 c.remaining) c

def word16 : Reader UInt16 := fun c =>
  match c.unread with
  | a :: b :: _ => .ok (Bytes.word16 a b) (c.advance 2)
  | _ => .error (.truncated 2 c.remaining) c

def word32 : Reader UInt32 := fun c =>
  match c.unread with
  | p :: q :: r :: s :: _ => .ok (Bytes.word32 p q r s) (c.advance 4)
  | _ => .error (.truncated 4 c.remaining) c

/-- The next `count` octets, or all that are left. -/
def upTo (count : Nat) : Reader Bytes := fun c =>
  .ok (c.unread.take count) (c.advance count)

/-- Moves on by `count` octets, or to the end, and tells by how many. -/
def skip (count : Nat) : Reader Nat := fun c =>
  .ok (min count c.remaining) (c.advance count)

/-- One length octet and as many octets as it says, or all that are left. -/
def counted : Reader Bytes := do
  let length ← octet
  upTo length.toNat

/-- Applies a parser that returns what it left to the unread octets. -/
def parse {α : Type} (parser : Bytes → α × Bytes) : Reader α := fun c =>
  let (value, rest) := parser c.unread
  .ok value (c.leaving rest.length)

end Reader

/-! ### Writing -/

/-- The longest string that one length octet can announce. -/
def Bytes.countedLimit : Nat := 255

/-- A string behind its length octet.  What a length octet cannot announce is cut. -/
def Bytes.counted (bytes : Bytes) : Bytes :=
  let kept := bytes.take countedLimit
  UInt8.ofNat kept.length :: kept

end Whereabouts
