import Whereabouts.Json
import Whereabouts.Record.Basic

/-! # Records as JSON

A record is shown as an object with all its fields, in the order of the record, and null for
what is missing.  Octets are lists of numbers, sets of bits are shown by name, and an address
in its dotted form. -/

namespace Whereabouts

/-- The dotted form of an address. -/
def dottedAddress (v : UInt32) : String :=
  ".".intercalate ((Bytes.ofWord32 v).map fun b => toString b.toNat)

namespace Text

def toJson (t : Text) : Json :=
  .object [("bytes", .ofBytes t.bytes), ("encoding", .ofOption .string t.encoding)]

end Text

/-- An icon as its number. -/
def Icon.toJson (i : Icon) : Json := .number i.index.toNat

def IcqStatus.toJson (s : IcqStatus) : Json :=
  .object [("flags", .number s.flags.toNat), ("status", .number s.status.toNat)]

def IconChecksum.toJson (c : IconChecksum) : Json :=
  .object [("variant", .string c.kind.name), ("digest", .ofBytes c.digest)]

def Extras.toJson (x : Extras) : Json :=
  .object
    [("icon_checksum", .ofOption IconChecksum.toJson x.iconChecksum),
      ("away", .ofOption Text.toJson x.away),
      ("external_link", .ofOption Text.toJson x.externalLink),
      ("mood", .ofOption Icon.toJson x.mood)]

def Advertised.toJson (a : Advertised) : Json :=
  .object
    [("flags", .string a.features.render), ("custom_icon", .ofOption Icon.toJson a.icon)]

namespace Record

def toJson (r : Record) : Json :=
  let word16 (v : UInt16) : Json := .number v.toNat
  let word32 (v : UInt32) : Json := .number v.toNat
  .object
    [("handle", .string r.handle),
      ("warning_level", word16 r.warningLevel),
      ("user_class", .ofOption (fun c => .string c.render) r.userClass),
      ("created_at", .ofOption word32 r.createdAt),
      ("online_since", .ofOption word32 r.onlineSince),
      ("member_since", .ofOption word32 r.memberSince),
      ("idle_minutes", .ofOption word16 r.idleMinutes),
      ("session_length", .ofOption word32 r.sessionLength),
      ("icq_status", .ofOption IcqStatus.toJson r.icqStatus),
      ("external_ip", .ofOption (fun v => .string (dottedAddress v)) r.externalIp),
      ("capabilities", .ofOption Advertised.toJson r.advertised),
      ("extras", .ofOption Extras.toJson r.extras),
      ("profile", .ofOption Text.toJson r.profile),
      ("away_message", .ofOption Text.toJson r.awayMessage)]

end Record
end Whereabouts
