import Whereabouts.Record.Entry

/-! # Trailers and announcements

Behind its counted block a record may have a chain without a count: profile, away message and
further capabilities.  The same chain, sent the other way, announces what the local user wants
others to see, `Announcement.toRecord`. -/

namespace Whereabouts

/-- The known types of a trailer. -/
inductive TrailerType where
  | profileEncoding
  | profile
  | awayEncoding
  | awayMessage
  | capabilities
deriving DecidableEq, Repr

namespace TrailerType

def code : TrailerType → UInt16
  | profileEncoding => 0x0001
  | profile => 0x0002
  | awayEncoding => 0x0003
  | awayMessage => 0x0004
  | capabilities => 0x0005

def all : List TrailerType := [profileEncoding, profile, awayEncoding, awayMessage, capabilities]

def ofCode? (n : UInt16) : Option TrailerType := all.find? fun t => t.code == n

theorem ofCode?_code (t : TrailerType) : ofCode? t.code = some t := by cases t <;> rfl

end TrailerType

/-- What a trailer says. -/
structure Trailer where
  profile : Option Text
  awayMessage : Option Text
  /-- One for each capability block. -/
  scans : List Scan
  /-- The types that are unknown, one for each entry. -/
  unknownTypes : List UInt16
deriving DecidableEq, Repr

namespace Trailer

/-- The last text of a type with the last encoding of a type, wherever that stands. -/
def textOf (c : Chain) (text encoding : TrailerType) : Option Text :=
  (Chain.last? c text.code).map fun t =>
    ⟨t.value, (Chain.last? c encoding.code).map fun e => Utf8.decodeLossy e.value⟩

/-- What a chain says as a trailer. -/
def ofChain (cat : Catalogue) (c : Chain) : Trailer where
  profile := textOf c .profile .profileEncoding
  awayMessage := textOf c .awayMessage .awayEncoding
  scans := (Chain.ofType c TrailerType.capabilities.code).map fun t => cat.scan t.value
  unknownTypes := (c.map Tlv.type).filter fun type => (TrailerType.ofCode? type).isNone

def apply (r : Record) (t : Trailer) : Record :=
  t.scans.foldl Record.addScan
    { r with
      profile := t.profile.or r.profile
      awayMessage := t.awayMessage.or r.awayMessage }

def unmatched (t : Trailer) : List Bytes := t.scans.flatMap Scan.unmatched

def remarks (t : Trailer) : List Remark := t.unmatched.map .unmatched

/-- The entries that say a text: its encoding, if it has one, and the text itself. -/
def entriesOf (text encoding : TrailerType) : Option Text → Chain
  | none => []
  | some t =>
      match t.encoding with
      | some name => [⟨encoding.code, Utf8.encode name⟩, ⟨text.code, t.bytes⟩]
      | none => [⟨text.code, t.bytes⟩]

/-- The chain that says a profile and an away message. -/
def texts (profile awayMessage : Option Text) : Chain :=
  entriesOf .profile .profileEncoding profile ++ entriesOf .awayMessage .awayEncoding awayMessage

end Trailer

/-! ### Announcements -/

/-- What the local user wants others to see. -/
structure Announcement where
  /-- The name of the local user. -/
  handle : String
  profile : Option Text := none
  /-- An empty message takes back the one announced before. -/
  awayMessage : Option Text := none
  features : Features := .none
  icon : Option Icon := none
deriving DecidableEq, Repr

namespace Announcement

/-- The chain that announces it. -/
def toChain (cat : Catalogue) (a : Announcement) : Chain :=
  Trailer.texts a.profile a.awayMessage ++
    [⟨TrailerType.capabilities.code, cat.encodeBlock a.features a.icon⟩]

def encode (cat : Catalogue) (a : Announcement) : Bytes := Chain.encode (a.toChain cat)

/-- The record that others should end up with. -/
def toRecord (a : Announcement) : Record where
  handle := a.handle
  advertised := some ⟨a.features, a.icon⟩
  profile := a.profile
  awayMessage := a.awayMessage

end Announcement
end Whereabouts
