import Whereabouts.Fault
import Whereabouts.Record.Remark
import Whereabouts.Request
import Whereabouts.Roster

/-! # Session events

What a session reports to its journal: the remarks made while a record was read, and what
became of records and requests.  Events are told apart by cause. -/

namespace Whereabouts

/-- How a record met the requests that wait for it. -/
inductive Settlement where
  /-- It answers a request of the application. -/
  | explicit
  /-- It answers a request made ahead of need, and no other. -/
  | implicit
  /-- Nothing waited for it. -/
  | unsolicited
deriving DecidableEq, Repr

namespace Settlement

/-- The settlement of a request that waited, or of none. -/
def ofKind : Option Request.Kind → Settlement
  | some .explicit => explicit
  | some .implicit => implicit
  | none => unsolicited

def name : Settlement → String
  | explicit => "explicit"
  | implicit => "implicit"
  | unsolicited => "unsolicited"

/-- The word for a settlement by failure. -/
def failureName (s : Settlement) : String := "failed_" ++ s.name

end Settlement

/-- What a session reports. -/
inductive Event where
  | remark (r : Remark)
  /-- A record could not be read. -/
  | undecodable (fault : Fault) (length : Nat)
  /-- A record had identifiers in neither table. -/
  | unmatchedCapabilities (handle : String) (count : Nat)
  /-- A record had entries of unknown type. -/
  | unknownFields (handle : String) (count : Nat)
  /-- A record went into the roster. -/
  | merged (handle : String) (change : Roster.Change)
  /-- A record was dealt with. -/
  | handled (handle : String) (settlement : Settlement)
  /-- A request found the queue full. -/
  | queueFull (handle : String) (kind : Request.Kind) (capacity : Nat)
  /-- A request failed. -/
  | failed (handle : String) (settlement : Settlement)
  /-- An announcement was written. -/
  | announced (handle : String) (names : List String) (length : Nat)
  /-- Requests were given up. -/
  | abandoned (pending : Nat)
  /-- The records of a roster were given up. -/
  | released (records : Nat)
deriving DecidableEq, Repr

namespace Event

def renderNames (names : List String) : String :=
  "[" ++ ", ".intercalate (names.map fun name => "\"" ++ name ++ "\"") ++ "]"

def line : Event → JournalLine
  | remark r => r.line
  | undecodable fault length =>
      ⟨.warn, "dropping undecodable user info record",
        [("error", fault.message), ("len", toString length)]⟩
  | unmatchedCapabilities handle count =>
      ⟨.debug, "unmatched capabilities", [("handle", handle), ("count", toString count)]⟩
  | unknownFields handle count =>
      ⟨.debug, "unknown user info fields skipped",
        [("handle", handle), ("count", toString count)]⟩
  | merged handle change =>
      ⟨.trace, "user info merged", [("handle", handle), ("result", change.name)]⟩
  | handled handle settlement =>
      ⟨.debug, "user info handled", [("handle", handle), ("outcome", settlement.name)]⟩
  | queueFull handle kind capacity =>
      ⟨.warn, "pending request queue full; dropping request",
        [("handle", handle), ("kind", kind.name), ("max_entries", toString capacity)]⟩
  | failed handle settlement =>
      ⟨.debug, "user info request failed",
        [("handle", handle), ("outcome", settlement.failureName)]⟩
  | announced handle names length =>
      ⟨.debug, "profile announcement encoded",
        [("handle", handle), ("capabilities", renderNames names), ("len", toString length)]⟩
  | abandoned pending => ⟨.debug, "abandoning pending requests", [("pending", toString pending)]⟩
  | released records => ⟨.debug, "user info cache released", [("records", toString records)]⟩

/-- The lines of the events that pass a journal kept down to a level. -/
def journal (least : Level) (events : List Event) : List JournalLine :=
  (events.map line).filter fun l => least.passes l.level

end Event
end Whereabouts
