import Whereabouts.Capability.Block
import Whereabouts.Record.Extras

/-! # Entries of a record

The counted block of a record is a chain.  `Entry` is what one entry of it says; a record is
the start record with all entries applied in order.  A value too short for its type says
nothing, so that it never undoes an entry before it. -/

namespace Whereabouts

/-- The known types of entries.  The length of a session has a type of its own for customers of
AOL. -/
inductive EntryType where
  | userClass
  | createdAt
  | onlineSince
  | idleMinutes
  | memberSince
  | icqStatus
  | externalIp
  | capabilities
  | sessionLength
  | sessionLengthAol
  | shortCapabilities
  | extras
deriving DecidableEq, Repr

namespace EntryType

def code : EntryType → UInt16
  | userClass => 0x0001
  | createdAt => 0x0002
  | onlineSince => 0x0003
  | idleMinutes => 0x0004
  | memberSince => 0x0005
  | icqStatus => 0x0006
  | externalIp => 0x000A
  | capabilities => 0x000D
  | sessionLength => 0x000F
  | sessionLengthAol => 0x0010
  | shortCapabilities => 0x0019
  | extras => 0x001D

def all : List EntryType :=
  [userClass, createdAt, onlineSince, idleMinutes, memberSince, icqStatus, externalIp,
    capabilities, sessionLength, sessionLengthAol, shortCapabilities, extras]

def ofCode? (n : UInt16) : Option EntryType := all.find? fun t => t.code == n

theorem ofCode?_code (t : EntryType) : ofCode? t.code = some t := by cases t <;> rfl

end EntryType

/-- What an entry of the counted block says. -/
inductive Entry where
  | userClass (c : UserClass)
  | createdAt (v : UInt32)
  | onlineSince (v : UInt32)
  | memberSince (v : UInt32)
  | idleMinutes (v : UInt16)
  | sessionLength (v : UInt32)
  | icqStatus (s : IcqStatus)
  | externalIp (v : UInt32)
  | capabilities (scan : Scan)
  | shortCapabilities (scan : Scan)
  | extras (entries : List Extra)
  /-- A value too short for its type. -/
  | void
  | unknown (type : UInt16) (length : Nat)
deriving DecidableEq, Repr

namespace Entry

/-- What an entry says if its value starts with a 16-bit number. -/
def ofWord16 (t : Tlv) (entry : UInt16 → Entry) : Entry :=
  match t.word16? with
  | some v => entry v
  | none => void

/-- What an entry says if its value starts with a 32-bit number. -/
def ofWord32 (t : Tlv) (entry : UInt32 → Entry) : Entry :=
  match t.word32? with
  | some v => entry v
  | none => void

/-- What an entry says, given a catalogue. -/
def ofTlv (cat : Catalogue) (t : Tlv) : Entry :=
  match EntryType.ofCode? t.type with
  | some .userClass => ofWord16 t fun v => userClass ⟨v⟩
  | some .createdAt => ofWord32 t createdAt
  | some .onlineSince => ofWord32 t onlineSince
  | some .memberSince => ofWord32 t memberSince
  | some .idleMinutes => ofWord16 t idleMinutes
  | some .sessionLength | some .sessionLengthAol => ofWord32 t sessionLength
  | some .icqStatus => ofWord32 t fun v => icqStatus (.ofWord32 v)
  | some .externalIp => ofWord32 t externalIp
  | some .capabilities => capabilities (cat.scan t.value)
  | some .shortCapabilities => shortCapabilities (cat.scanShort t.value)
  | some .extras => extras (Extra.ofBlock cat t.value)
  | none => unknown t.type t.value.length

end Entry

/-- What is advertised after one more block: the features of all, the icon of the first that
has one. -/
def Advertised.add (a : Advertised) (scan : Scan) : Advertised :=
  ⟨a.features.union scan.features, a.icon.or scan.icon⟩

namespace Record

def addScan (r : Record) (scan : Scan) : Record :=
  { r with advertised := some ((r.advertised.getD {}).add scan) }

end Record

namespace Entry

def apply (r : Record) : Entry → Record
  | userClass c => { r with userClass := some c }
  | createdAt v => { r with createdAt := some v }
  | onlineSince v => { r with onlineSince := some v }
  | memberSince v => { r with memberSince := some v }
  | idleMinutes v => { r with idleMinutes := some v }
  | sessionLength v => { r with sessionLength := some v }
  | icqStatus s => { r with icqStatus := some s }
  | externalIp v => { r with externalIp := some v }
  | capabilities scan | shortCapabilities scan => r.addScan scan
  | extras entries => { r with extras := some (entries.foldl Extra.apply (r.extras.getD {})) }
  | void | unknown .. => r

def unmatched : Entry → List Bytes
  | capabilities scan | shortCapabilities scan => scan.unmatched
  | _ => []

/-- The types of the unknown fields that an entry counts for. -/
def unknownTypes : Entry → List UInt16
  | unknown type _ => [type]
  | extras entries => entries.flatMap Extra.unknownTypes
  | _ => []

def remarks : Entry → List Remark
  | capabilities scan => scan.unmatched.map .unmatched
  | shortCapabilities scan => scan.unmatched.map .unmatchedShort
  | extras entries => entries.flatMap Extra.remarks
  | unknown type length => [.unknownEntry type length]
  | _ => []

end Entry
end Whereabouts
