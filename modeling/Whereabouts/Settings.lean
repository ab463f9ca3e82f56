import Whereabouts.Fault

/-! # Settings

What a session may be told, and what is looked at in settings that were read.  How they are written
down is left to a reader of their text, which gives their version along with them. -/

namespace Whereabouts

/-- What a session may be told. -/
structure Settings where
  /-- Whether entries of unknown type are remarked on. -/
  logUnknownFields : Bool := false
  /-- Whether unmatched identifiers are remarked on. -/
  logUnmatchedCapabilities : Bool := true
  /-- How many requests may wait. -/
  maxPending : Nat := 256
deriving DecidableEq, Repr

namespace Settings

def version : Nat := 1

/-- The longest queue that may be asked for. -/
def pendingLimit : Nat := 65536

/-- The settings that were read with their version, if they are of this version and within the
limits. -/
def check (given : Option (Nat × Settings)) : Except Fault Settings :=
  match given with
  | none => .error .malformedSettings
  | some (given, settings) =>
      if given ≠ version then .error .unsupportedVersion
      else if 1 ≤ settings.maxPending ∧ settings.maxPending ≤ pendingLimit then .ok settings
      else .error (.queueLimit pendingLimit)

end Settings
end Whereabouts
