import Whereabouts.Capability.Standard
import Whereabouts.Record.Basic
import Whereabouts.Record.Remark

/-! # Presence extras on the wire

The block of extras is a run of entries with a header of four octets: a 16-bit type, a number
and a length, each of one octet.  As in a chain, a body that runs over the block is clamped and
a header that does not fit ends the run.

A text among the extras is a 16-bit length, the text, a 16-bit flag and, if the flag is one,
another 16-bit number and the name of the encoding behind its 16-bit length.  Reading takes
what is there; writing cuts name and text so that the whole fits the one octet of length. -/

namespace Whereabouts

/-! ### Entries -/

/-- An entry of the extras as it was found. -/
structure ExtraEntry where
  type : UInt16
  number : UInt8
  declared : UInt8
  body : Bytes
deriving DecidableEq, Repr

namespace ExtraEntry

/-- The longest body. -/
def bodyLimit : Nat := 255

/-- Splits one entry off the front. -/
def split? : Bytes → Option (ExtraEntry × Bytes)
  | a :: b :: number :: declared :: rest =>
      let length := declared.toNat
      some (⟨Bytes.word16 a b, number, declared, rest.take length⟩, rest.drop length)
  | _ => none

/-- Splits at most `count` entries off the front and puts them behind those in `done`, the last
of which comes first. -/
def splitAfter : Nat → List ExtraEntry → Bytes → List ExtraEntry
  | 0, done, _ => done.reverse
  | count + 1, done, bytes =>
      match split? bytes with
      | none => done.reverse
      | some (entry, rest) => splitAfter count (entry :: done) rest

/-- The entries of a block.  As each takes at least a header, the length of the block bounds
their number. -/
def splitAll (block : Bytes) : List ExtraEntry := splitAfter block.length [] block

/-- An entry on the wire.  What its length cannot announce is cut. -/
def encode (type : UInt16) (number : UInt8) (body : Bytes) : Bytes :=
  let kept := body.take bodyLimit
  Bytes.ofWord16 type ++ [number, UInt8.ofNat kept.length] ++ kept

end ExtraEntry

/-- The known types of extras. -/
inductive ExtraType where
  | iconChecksum
  | statusText
  | externalLink
  | mood
deriving DecidableEq, Repr

namespace ExtraType

def code : ExtraType → UInt16
  | iconChecksum => 0x0001
  | statusText => 0x0002
  | externalLink => 0x0009
  | mood => 0x000E

def all : List ExtraType := [iconChecksum, statusText, externalLink, mood]

def ofCode? (n : UInt16) : Option ExtraType := all.find? fun t => t.code == n

theorem ofCode?_code (t : ExtraType) : ofCode? t.code = some t := by cases t <;> rfl

end ExtraType

/-! ### Texts -/

namespace Text

/-- The flag that announces the name of an encoding. -/
def hasEncoding : UInt16 := 1

/-- The longest name of an encoding that is written. -/
def encodingLimit : Nat := 64

/-- The name of an encoding behind the octets of a text. -/
def encodingOfBody : Bytes → Option String
  | f :: g :: _ :: _ :: m :: n :: rest =>
      if Bytes.word16 f g = hasEncoding then
        some (Utf8.decodeLossy (rest.take (Bytes.word16 m n).toNat))
      else none
  | _ => none

/-- Reads the body of an entry.  A body too short for length and flag is an empty text. -/
def ofBody (body : Bytes) : Text :=
  if body.length < 4 then empty
  else
    match body with
    | a :: b :: rest =>
        let length := (Bytes.word16 a b).toNat
        ⟨rest.take length, encodingOfBody (rest.drop length)⟩
    | _ => empty

/-- The name of the encoding as it is written. -/
def writtenEncoding (t : Text) : Option Bytes :=
  t.encoding.map fun name => (Utf8.encode name).take encodingLimit

/-- What a body needs beside the octets of its text. -/
def overhead : Option Bytes → Nat
  | none => 4
  | some name => 8 + name.length

/-- The octets of the text as they are written. -/
def writtenBytes (t : Text) : Bytes :=
  t.bytes.take (ExtraEntry.bodyLimit - overhead t.writtenEncoding)

/-- The body of an entry that holds a text. -/
def toBody (t : Text) : Bytes :=
  let kept := t.writtenBytes
  Bytes.ofWord16 (UInt16.ofNat kept.length) ++ kept ++
    match t.writtenEncoding with
    | none => Bytes.ofWord16 0
    | some name =>
        Bytes.ofWord16 hasEncoding ++ Bytes.ofWord16 0 ++
          Bytes.ofWord16 (UInt16.ofNat name.length) ++ name

end Text

/-! ### Meaning of an entry -/

/-- What an entry of the extras says. -/
inductive Extra where
  | iconChecksum (sum : IconChecksum)
  | away (text : Text)
  | externalLink (text : Text)
  | mood (icon : Icon)
  /-- A token that names no icon. -/
  | unknownMood (token : String)
  /-- A checksum of no known kind or without digest, or an empty mood token. -/
  | void
  | unknown (entry : ExtraEntry)
deriving DecidableEq, Repr

namespace Extra

/-- What an entry says, given the icons of a catalogue. -/
def ofEntry (cat : Catalogue) (entry : ExtraEntry) : Extra :=
  match ExtraType.ofCode? entry.type with
  | some .iconChecksum =>
      match (ChecksumKind.ofNumber? entry.number).bind
          fun v => IconChecksum.ofDigest? v entry.body with
      | some sum => iconChecksum sum
      | none => void
  | some .statusText => away (Text.ofBody entry.body)
  | some .externalLink => externalLink (Text.ofBody entry.body)
  | some .mood =>
      let token := Utf8.decodeLossy entry.body
      if token.isEmpty then void
      else
        match cat.moodIcon? token with
        | some icon => mood icon
        | none => unknownMood token
  | none => unknown entry

def apply (x : Extras) : Extra → Extras
  | iconChecksum sum => { x with iconChecksum := some sum }
  | away text => { x with away := some text }
  | externalLink text => { x with externalLink := some text }
  | mood icon => { x with mood := some icon }
  | unknownMood _ | void | unknown _ => x

/-- The types of the unknown fields that an entry counts for. -/
def unknownTypes : Extra → List UInt16
  | unknown entry => [entry.type]
  | _ => []

def remarks : Extra → List Remark
  | unknownMood token => [.unknownMood token]
  | unknown entry => [.unknownExtra entry.type entry.number entry.declared]
  | _ => []

def ofBlock (cat : Catalogue) (block : Bytes) : List Extra :=
  (ExtraEntry.splitAll block).map (ofEntry cat)

end Extra

namespace Extras

/-- The number that entries with a text bear. -/
def textNumber : UInt8 := 4

def encode (cat : Catalogue) (x : Extras) : Bytes :=
  let entry (type : ExtraType) (number : UInt8) (body : Bytes) : Bytes :=
    ExtraEntry.encode type.code number body
  let sum := x.iconChecksum.map fun c => entry .iconChecksum c.kind.number c.digest
  let away := x.away.map fun t => entry .statusText textNumber t.toBody
  let link := x.externalLink.map fun t => entry .externalLink textNumber t.toBody
  let mood := (x.mood.bind cat.row?).map fun row => entry .mood 0 (Utf8.encode row.mood)
  ([sum, away, link, mood].filterMap id).flatten

end Extras
end Whereabouts
