import Whereabouts.Capability.Basic
import Whereabouts.Handle
import Whereabouts.Wire.Utf8

/-! # Records

A record is what is known of one user.  Apart from handle and warning level every field may be
missing, so an update carries exactly the fields that it was sent with.

Presence extras are a block of their own.  "No block", "a block without an away text" and "a
block with an empty away text" are three different things: the second clears a known away text
and the third sets it to nothing. -/

namespace Whereabouts

/-! ### Fields -/

/-- A text as it was sent, with the name of its encoding if one was given. -/
structure Text where
  bytes : Bytes
  encoding : Option String := none
deriving DecidableEq, Repr

namespace Text

def empty : Text := ⟨[], none⟩

/-- The text read as UTF-8. -/
def lossy (t : Text) : String := Utf8.decodeLossy t.bytes

end Text

/-- The class of a user, one bit a property. -/
structure UserClass where
  bits : UInt16
deriving DecidableEq, Repr

namespace UserClass

def bitNames : BitNames :=
  [(0, "UNCONFIRMED"), (1, "ADMINISTRATOR"), (2, "AOL"), (3, "COMMERCIAL"), (4, "FREE"),
    (5, "AWAY"), (6, "ICQ"), (7, "WIRELESS"), (10, "BOT")]

def render (c : UserClass) : String := bitNames.render c.bits.toNat

/-- Whether the user is a customer of AOL. -/
def isAol (c : UserClass) : Bool := c.bits &&& 4 == 4

end UserClass

/-- The two halves of an ICQ status. -/
structure IcqStatus where
  flags : UInt16
  status : UInt16
deriving DecidableEq, Repr

namespace IcqStatus

/-- The status in a number: flags in the high half, status in the low half. -/
def ofWord32 (v : UInt32) : IcqStatus :=
  ⟨UInt16.ofNat (v.toNat / 65536), UInt16.ofNat (v.toNat % 65536)⟩

def toWord32 (s : IcqStatus) : UInt32 := UInt32.ofNat (s.flags.toNat * 65536 + s.status.toNat)

theorem ofWord32_toWord32 (s : IcqStatus) : ofWord32 s.toWord32 = s := by
  cases s with
  | mk flags status =>
      have h := flags.toNat_lt
      have h' := status.toNat_lt
      simp only [ofWord32, toWord32, IcqStatus.mk.injEq]
      constructor <;>
        (apply UInt16.toNat_inj.mp; simp only [UInt16.toNat_ofNat', UInt32.toNat_ofNat']; omega)

end IcqStatus

/-- The two kinds of icon checksum, told apart by the number of their entry. -/
inductive ChecksumKind where
  | primary
  | secondary
deriving DecidableEq, Repr

namespace ChecksumKind

def ofNumber? (n : UInt8) : Option ChecksumKind :=
  if n = 0 then some primary else if n = 1 then some secondary else none

def number : ChecksumKind → UInt8
  | primary => 0
  | secondary => 1

def name : ChecksumKind → String
  | primary => "Primary"
  | secondary => "Secondary"

theorem ofNumber?_number (v : ChecksumKind) : ofNumber? v.number = some v := by
  cases v <;> rfl

end ChecksumKind

/-- The checksum of a user's picture.  The digest is never empty and fits one entry of the
presence extras. -/
structure IconChecksum where
  kind : ChecksumKind
  digest : Bytes
  digest_length : 0 < digest.length ∧ digest.length ≤ 255
deriving DecidableEq, Repr

/-- The checksum with a digest, if the digest has a proper length. -/
def IconChecksum.ofDigest? (kind : ChecksumKind) (digest : Bytes) :
    Option IconChecksum :=
  if h : 0 < digest.length ∧ digest.length ≤ 255 then some ⟨kind, digest, h⟩ else none

/-- The presence extras. -/
structure Extras where
  iconChecksum : Option IconChecksum := none
  away : Option Text := none
  externalLink : Option Text := none
  /-- The icon that a mood token named. -/
  mood : Option Icon := none
deriving DecidableEq, Repr

/-- What the capability blocks said. -/
structure Advertised where
  features : Features := .none
  /-- The icon whose identifier was among the capabilities. -/
  icon : Option Icon := none
deriving DecidableEq, Repr

/-- What is known of one user. -/
structure Record where
  /-- The name as it was spelled. -/
  handle : String
  /-- In tenths of a percent. -/
  warningLevel : UInt16 := 0
  userClass : Option UserClass := none
  /-- Times are in seconds since the epoch. -/
  createdAt : Option UInt32 := none
  onlineSince : Option UInt32 := none
  memberSince : Option UInt32 := none
  idleMinutes : Option UInt16 := none
  /-- In seconds. -/
  sessionLength : Option UInt32 := none
  icqStatus : Option IcqStatus := none
  /-- The address that the user connects from. -/
  externalIp : Option UInt32 := none
  advertised : Option Advertised := none
  extras : Option Extras := none
  profile : Option Text := none
  awayMessage : Option Text := none
deriving DecidableEq, Repr

namespace Record

def key (r : Record) : String := Handle.key r.handle

/-- The icon that the record shows: the one of the mood if there is one, else the one among the
capabilities. -/
def icon? (r : Record) : Option Icon :=
  (r.extras.bind Extras.mood).or (r.advertised.bind Advertised.icon)

def away? (r : Record) : Option Text := r.extras.bind Extras.away

def features (r : Record) : Features :=
  match r.advertised with
  | some a => a.features
  | none => .none

def isAol (r : Record) : Bool :=
  match r.userClass with
  | some c => c.isAol
  | none => false

/-! ### Presence -/

/-- What a record may carry. -/
inductive Field where
  | userClass
  | createdAt
  | onlineSince
  | memberSince
  | idle
  | sessionLength
  | icqStatus
  | externalIp
  | capabilities
  | customIcon
  | extras
  | iconChecksum
  | awayText
  | externalLink
  | profile
  | awayMessage
deriving DecidableEq, Repr

/-- All fields, in the order of their bits. -/
def Field.all : List Field :=
  [userClass, createdAt, onlineSince, memberSince, idle, sessionLength, icqStatus, externalIp,
    capabilities, customIcon, extras, iconChecksum, awayText, externalLink, profile, awayMessage]

def Field.bit (f : Field) : UInt32 := UInt32.ofNat (1 <<< f.ctorIdx)

/-- Whether a record carries a field. -/
def carries (r : Record) : Field → Bool
  | .userClass => r.userClass.isSome
  | .createdAt => r.createdAt.isSome
  | .onlineSince => r.onlineSince.isSome
  | .memberSince => r.memberSince.isSome
  | .idle => r.idleMinutes.isSome
  | .sessionLength => r.sessionLength.isSome
  | .icqStatus => r.icqStatus.isSome
  | .externalIp => r.externalIp.isSome
  | .capabilities => r.advertised.isSome
  | .customIcon => r.icon?.isSome
  | .extras => r.extras.isSome
  | .iconChecksum => (r.extras.bind Extras.iconChecksum).isSome
  | .awayText => r.away?.isSome
  | .externalLink => (r.extras.bind Extras.externalLink).isSome
  | .profile => r.profile.isSome
  | .awayMessage => r.awayMessage.isSome

/-- The bits of the fields that a record carries. -/
def presence (r : Record) : UInt32 :=
  (Field.all.filter r.carries).foldl (fun bits f => bits ||| f.bit) 0

end Record
end Whereabouts
