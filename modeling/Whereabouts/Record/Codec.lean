import Whereabouts.Record.Trailer

/-! # Records on the wire

A record is the handle behind its length octet, the warning level, the number of entries in the
counted block, these entries, and a trailer up to the end.

Only the three parts in front can be missing, so they alone can make a read fail.  Whatever
follows is read as far as it goes: `Reading` has the record, and what was not understood as
numbers and as remarks. -/

namespace Whereabouts

/-- A record as it was read. -/
structure Reading where
  record : Record
  /-- How many identifiers were in neither table. -/
  unmatched : Nat
  /-- How many entries were of unknown type. -/
  unknown : Nat
  remarks : List Remark
deriving DecidableEq, Repr

namespace Reading

/-- What the front of a record and the entries of its counted block say. -/
def ofBlock (cat : Catalogue) (handle : String) (warningLevel : UInt16)
    (found : List Tlv.Found) : Reading :=
  let entries := (Chain.ofFound found).map (Entry.ofTlv cat)
  let unknown := (entries.flatMap Entry.unknownTypes).length
  { record := entries.foldl Entry.apply { handle, warningLevel }
    unmatched := (entries.flatMap Entry.unmatched).length
    unknown
    remarks := Remark.ofFound found ++ entries.flatMap Entry.remarks ++
      [.blockRead handle found.length unknown] }

/-- What is read with the entries of a trailer. -/
def addTrailer (cat : Catalogue) (r : Reading) (found : List Tlv.Found) : Reading :=
  let trailer := Trailer.ofChain cat (Chain.ofFound found)
  { record := trailer.apply r.record
    unmatched := r.unmatched + trailer.unmatched.length
    unknown := r.unknown + trailer.unknownTypes.length
    remarks := r.remarks ++ Remark.ofFound found ++ trailer.remarks }

end Reading

namespace Record

/-! ### Reading -/

/-- Reads the front of a record and its counted block, and leaves what follows. -/
def readBlock (cat : Catalogue) : Reader Reading := do
  let handle ← Reader.counted
  let warningLevel ← Reader.word16
  let count ← Reader.word16
  let found ← Reader.parse fun bytes => Chain.splitCounted count.toNat bytes.length bytes
  return .ofBlock cat (Utf8.decodeLossy handle) warningLevel found

/-- Reads a record with its trailer. -/
def read (cat : Catalogue) : Reader Reading := do
  let block ← readBlock cat
  if (← get).remaining = 0 then return block
  else
    let found ← Reader.parse fun bytes => Chain.split bytes.length bytes
    return block.addTrailer cat found

/-- Reads the record at the start of a buffer. -/
def decode (cat : Catalogue) (bytes : Bytes) : Except Fault Reading :=
  match read cat (Cursor.ofBytes bytes) with
  | .ok reading _ => .ok reading
  | .error fault _ => .error fault

/-! ### Writing -/

/-- The entries of the counted block. -/
def blockChain (cat : Catalogue) (aol : Bool) (r : Record) : Chain :=
  let word16 (type : EntryType) (v : UInt16) : Tlv := .ofWord16 type.code v
  let word32 (type : EntryType) (v : UInt32) : Tlv := .ofWord32 type.code v
  let sessionType := if aol then EntryType.sessionLengthAol else EntryType.sessionLength
  [r.userClass.map fun c => word16 .userClass c.bits,
    r.createdAt.map (word32 .createdAt),
    r.onlineSince.map (word32 .onlineSince),
    r.idleMinutes.map (word16 .idleMinutes),
    r.memberSince.map (word32 .memberSince),
    r.icqStatus.map fun s => word32 .icqStatus s.toWord32,
    r.externalIp.map (word32 .externalIp),
    r.advertised.map fun a => ⟨EntryType.capabilities.code, cat.encodeBlock a.features a.icon⟩,
    r.sessionLength.map (word32 sessionType),
    r.extras.map fun x => ⟨EntryType.extras.code, x.encode cat⟩].filterMap id

/-- The record on the wire.  `aol` chooses the type of the session length. -/
def encode (cat : Catalogue) (aol : Bool) (r : Record) : Bytes :=
  let block := r.blockChain cat aol
  Bytes.counted (Utf8.encode r.handle) ++ Bytes.ofWord16 r.warningLevel ++
    Bytes.ofWord16 (UInt16.ofNat block.length) ++ Chain.encode block ++
    Chain.encode (Trailer.texts r.profile r.awayMessage)

end Record
end Whereabouts
