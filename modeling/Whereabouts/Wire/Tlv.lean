import Whereabouts.Wire.Cursor

/-! # Chains of typed entries

An entry on the wire is a 16-bit type, a 16-bit length and as many octets of value.  A chain is
a run of entries; types may repeat and their order counts.

Reading a chain never fails.  An entry whose declared length runs over the enclosing block or
over the buffer gets the octets that are there, and a header that does not fit ends the chain.
`Tlv.Found` keeps the declared length beside the value, so such an entry can be told apart. -/

namespace Whereabouts

/-- A typed entry. -/
structure Tlv where
  type : UInt16
  value : Bytes
deriving DecidableEq, Repr

/-- A run of entries. -/
abbrev Chain := List Tlv

namespace Tlv

/-- The octets of type and length. -/
def headerSize : Nat := 4

/-- The longest value that a length can announce. -/
def valueLimit : Nat := 65535

/-- The value as it is written: what the length cannot announce is cut. -/
def written (t : Tlv) : Bytes := t.value.take valueLimit

def encode (t : Tlv) : Bytes :=
  Bytes.ofWord16 t.type ++ Bytes.ofWord16 (UInt16.ofNat t.written.length) ++ t.written

/-- The octets that the entry takes on the wire. -/
def size (t : Tlv) : Nat := headerSize + t.written.length

def ofWord16 (type v : UInt16) : Tlv := ⟨type, Bytes.ofWord16 v⟩

def ofWord32 (type : UInt16) (v : UInt32) : Tlv := ⟨type, Bytes.ofWord32 v⟩

/-- The 16-bit number that the value starts with. -/
def word16? (t : Tlv) : Option UInt16 := Bytes.leading16? t.value

/-- The 32-bit number that the value starts with. -/
def word32? (t : Tlv) : Option UInt32 := Bytes.leading32? t.value

@[simp] theorem length_encode (t : Tlv) : t.encode.length = t.size := by
  simp [encode, size, headerSize]
  omega

/-- An entry as it was found, with the length that its header declares. -/
structure Found where
  type : UInt16
  declared : UInt16
  value : Bytes
deriving DecidableEq, Repr

namespace Found

/-- The entry without its declared length. -/
def toTlv (f : Found) : Tlv := ⟨f.type, f.value⟩

/-- Whether the value is shorter than declared. -/
def isClamped (f : Found) : Bool := f.value.length < f.declared.toNat

end Found

/-- Splits one entry off the front, using at most `room` octets. -/
def split? (room : Nat) : Bytes → Option (Found × Bytes)
  | a :: b :: c :: d :: rest =>
      if room < headerSize then none
      else
        let declared := Bytes.word16 c d
        let kept := min declared.toNat (room - headerSize)
        some (⟨Bytes.word16 a b, declared, rest.take kept⟩, rest.drop kept)
  | _ => none

end Tlv

namespace Chain

/-- Splits at most `count` entries off the front, using at most `room` octets, and puts them
behind those in `done`, the last of which comes first.  Returns what is left of the octets. -/
def splitAfter : Nat → Nat → List Tlv.Found → Bytes → List Tlv.Found × Bytes
  | 0, _, done, bytes => (done.reverse, bytes)
  | count + 1, room, done, bytes =>
      match Tlv.split? room bytes with
      | none => (done.reverse, bytes)
      | some (found, rest) =>
          splitAfter count (room - (Tlv.headerSize + found.value.length)) (found :: done) rest

/-- Splits at most `count` entries off the front, using at most `room` octets. -/
def splitCounted (count room : Nat) (bytes : Bytes) : List Tlv.Found × Bytes :=
  splitAfter count room [] bytes

/-- Splits entries off the front, using at most `room` octets.  As each takes at least a header,
so many octets bound their number. -/
def split (room : Nat) (bytes : Bytes) : List Tlv.Found × Bytes :=
  splitCounted bytes.length room bytes

/-- The entries without their declared lengths. -/
def ofFound (found : List Tlv.Found) : Chain := found.map Tlv.Found.toTlv

def encode (c : Chain) : Bytes := c.flatMap Tlv.encode

/-- The octets that the chain takes on the wire. -/
def encodedLength (c : Chain) : Nat := c.foldr (fun t n => t.size + n) 0

/-- The entries of one type, in order. -/
def ofType (c : Chain) (type : UInt16) : Chain := c.filter fun t => t.type == type

/-- The `occurrence`-th entry of a type, counting from one. -/
def nth? (c : Chain) (type : UInt16) : Nat → Option Tlv
  | 0 => none
  | k + 1 => (ofType c type)[k]?

def last? (c : Chain) (type : UInt16) : Option Tlv := (ofType c type).getLast?

def has (c : Chain) (type : UInt16) : Bool := c.any fun t => t.type == type

@[simp] theorem length_encode (c : Chain) : (encode c).length = encodedLength c := by
  induction c with
  | nil => rfl
  | cons t c ih =>
      simp only [encode, encodedLength, List.flatMap_cons, List.length_append,
        Tlv.length_encode, List.foldr_cons] at ih ⊢
      rw [ih]

end Chain
end Whereabouts
