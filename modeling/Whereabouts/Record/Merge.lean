import Whereabouts.Record.Basic

/-! # Merging updates

An update overwrites what it carries and leaves the rest as it was.  Handle and warning level
are always carried.  The away text follows a rule of its own: any block of extras replaces it,
so a block without an away text clears it. -/

namespace Whereabouts

/-- The extras after an update that carries extras. -/
def Extras.merge (known update : Extras) : Extras where
  iconChecksum := update.iconChecksum.or known.iconChecksum
  away := update.away
  externalLink := update.externalLink.or known.externalLink
  mood := update.mood.or known.mood

namespace Record

/-- The extras after an update. -/
def mergeExtras (known : Option Extras) : Option Extras → Option Extras
  | none => known
  | some update => some ((known.getD {}).merge update)

def merge (known update : Record) : Record where
  handle := update.handle
  warningLevel := update.warningLevel
  userClass := update.userClass.or known.userClass
  createdAt := update.createdAt.or known.createdAt
  onlineSince := update.onlineSince.or known.onlineSince
  memberSince := update.memberSince.or known.memberSince
  idleMinutes := update.idleMinutes.or known.idleMinutes
  sessionLength := update.sessionLength.or known.sessionLength
  icqStatus := update.icqStatus.or known.icqStatus
  externalIp := update.externalIp.or known.externalIp
  advertised := update.advertised.or known.advertised
  extras := mergeExtras known.extras update.extras
  profile := update.profile.or known.profile
  awayMessage := update.awayMessage.or known.awayMessage

/-- The update's spelling of the handle wins. -/
@[simp] theorem key_merge (known update : Record) : (known.merge update).key = update.key := rfl

end Record
end Whereabouts
