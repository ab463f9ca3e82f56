import Whereabouts.Metrics.Registry
import Whereabouts.Record.Codec
import Whereabouts.Session.Event
import Whereabouts.Settings

/-! # Sessions

A session keeps a roster of the users that it heard of and a queue of the requests that it made.
Each record that arrives is read, merged into the roster and settled against the queue.  A
record that cannot be read changes nothing but the count of failures.

Every operation is a function of the session and of the registry that it counts in, which
sessions may share.  Its result is a `Step`. -/

namespace Whereabouts

structure Session where
  settings : Settings
  roster : Roster
  queue : RequestQueue

/-- What an operation of a session answers and leaves behind. -/
structure Step (α : Type) where
  answer : α
  session : Session
  metrics : Metrics
  events : List Event := []
  /-- The merged records that the observer is shown. -/
  observed : List Record := []

namespace Session

/-- A session that heard of nobody. -/
def start (settings : Settings) : Session := ⟨settings, .empty, .empty settings.maxPending⟩

def catalogue : Catalogue := .standard

/-! ### Records -/

/-- The metrics after a record was read. -/
def countReading (m : Metrics) (reading : Reading) : Metrics :=
  let m := { m with recordsDecoded := m.recordsDecoded.inc [] }
  let m :=
    if reading.unmatched = 0 then m
    else
      { m with
        unmatchedCapabilities :=
          m.unmatchedCapabilities.add [] (UInt64.ofNat reading.unmatched) }
  if reading.unknown = 0 then m
  else { m with unknownFields := m.unknownFields.add [] (UInt64.ofNat reading.unknown) }

/-- The metrics after a record went into a roster. -/
def countChange (m : Metrics) (change : Roster.Change) : Metrics :=
  let m := { m with cacheMerges := m.cacheMerges.inc [("result", change.name)] }
  match change with
  | .created => { m with cacheEntries := m.cacheEntries.inc [] }
  | .updated => m

/-- The metrics after requests were settled. -/
def countResolution (m : Metrics) (outcome : String) : Metrics :=
  { m with resolutions := m.resolutions.inc [("outcome", outcome)] }

/-- The events about what was not understood, as far as the settings ask for them. -/
def readingEvents (settings : Settings) (reading : Reading) : List Event :=
  let handle := reading.record.handle
  reading.remarks.map .remark ++
    (if reading.unmatched ≠ 0 ∧ settings.logUnmatchedCapabilities then
      [.unmatchedCapabilities handle reading.unmatched] else []) ++
    (if reading.unknown ≠ 0 ∧ settings.logUnknownFields then
      [.unknownFields handle reading.unknown] else [])

/-- Takes in a record that was read. -/
def accept (s : Session) (m : Metrics) (reading : Reading) : Step Settlement :=
  let handle := reading.record.handle
  let (roster, merged, change) := s.roster.merge reading.record
  let (queue, kind) := s.queue.resolve handle
  let settlement := Settlement.ofKind kind
  { answer := settlement
    session := { s with roster, queue }
    metrics := countResolution (countChange (countReading m reading) change) settlement.name
    events := readingEvents s.settings reading ++
      [.merged merged.handle change, .handled handle settlement]
    observed := [merged] }

/-- Takes in a record from the wire. -/
def receive (s : Session) (m : Metrics) (data : Bytes) : Step (Except Fault Settlement) :=
  match Record.decode catalogue data with
  | .error fault =>
      { answer := .error fault
        session := s
        metrics := { m with decodeFailures := m.decodeFailures.inc [("code", fault.code)] }
        events := [.undecodable fault data.length] }
  | .ok reading =>
      let step := s.accept m reading
      { step with answer := .ok step.answer }

/-! ### Requests -/

def ask (s : Session) (m : Metrics) (handle : String) (kind : Request.Kind) :
    Step Request.Fate :=
  let (queue, fate) := s.queue.request handle kind
  { answer := fate
    session := { s with queue }
    metrics :=
      { m with requests := m.requests.inc [("kind", kind.name), ("outcome", fate.name)] }
    events := if fate = .dropped then [.queueFull handle kind s.queue.capacity] else [] }

/-- Takes notice that a request failed.  The application is told of it exactly if it had asked. -/
def fail (s : Session) (m : Metrics) (handle : String) : Step Bool :=
  let (queue, kind) := s.queue.resolve handle
  let settlement := Settlement.ofKind kind
  { answer := settlement = .explicit
    session := { s with queue }
    metrics := countResolution m settlement.failureName
    events := [.failed handle settlement] }

/-! ### Known records -/

def find? (s : Session) (handle : String) : Option Record := s.roster.find? handle

/-- The known record of a handle on the wire. -/
def encodeKnown? (s : Session) (handle : String) : Option Bytes :=
  (s.find? handle).map fun r => r.encode catalogue r.isAol

def forget (s : Session) (m : Metrics) (handle : String) : Step (Option Record) :=
  match s.find? handle with
  | none => { answer := none, session := s, metrics := m }
  | some known =>
      { answer := some known
        session := { s with roster := s.roster.erase handle }
        metrics := { m with cacheEntries := m.cacheEntries.dec [] } }

/-! ### Announcing and ending -/

def announce (s : Session) (m : Metrics) (a : Announcement) : Step Bytes :=
  let bytes := a.encode catalogue
  { answer := bytes
    session := s
    metrics := m
    events := [.announced a.handle (catalogue.names a.features) bytes.length] }

/-- What the end of a session leaves behind. -/
structure Ending where
  /-- How many records were given up. -/
  released : Nat
  metrics : Metrics
  events : List Event

def finish (s : Session) (m : Metrics) : Ending :=
  let released := s.roster.size
  { released
    metrics := { m with cacheEntries := m.cacheEntries.add [] (-(Int64.ofNat released)) }
    events := (if s.queue.size = 0 then [] else [.abandoned s.queue.size]) ++
      [.released released] }

end Session
end Whereabouts
