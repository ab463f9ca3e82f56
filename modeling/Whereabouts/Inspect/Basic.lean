import Whereabouts.Record.Json
import Whereabouts.Session.Basic

/-! # Inspecting records

The command line takes records in hexadecimal and, with `--config`, the path of a settings
file.  All records go through one fresh session.  Its roster is then shown as JSON, one record
for each user in the order in which they first appeared, and behind it the metrics.

Nothing is shown unless everything succeeds.  The journal is another matter: it is written while
the run goes on, and where it goes is for the surroundings of the program to say (`Inspect.Host`). -/

namespace Whereabouts

/-- What the command line asks for. -/
structure Invocation where
  /-- The path of the settings file.  The last one given counts. -/
  settingsPath : Option String := none
  records : List String := []
deriving DecidableEq, Repr

namespace Invocation

/-- The option that names the settings file. -/
def settingsOption : String := "--config"

/-- Reads the arguments behind those that `inv` stands for. -/
def readArgs (inv : Invocation) : List String → Except Fault Invocation
  | [] => .ok inv
  | arg :: args =>
      if arg = settingsOption then
        match args with
        | [] => .error .missingPath
        | path :: args => readArgs { inv with settingsPath := some path } args
      else readArgs { inv with records := inv.records ++ [arg] } args

def ofArgs (args : List String) : Except Fault Invocation := readArgs {} args

end Invocation

/-! ### Runs with a journal -/

/-- What a run noted in its journal, and its result or the fault that ended it. -/
structure Journaled (α : Type) where
  lines : List JournalLine
  result : Except Fault α

namespace Journaled

variable {α β : Type}

/-- A result that is not noted. -/
def ofResult (result : Except Fault α) : Journaled α := ⟨[], result⟩

def note (lines : List JournalLine) : Journaled Unit := ⟨lines, .ok ()⟩

/-- A run that goes on with its result, unless a fault ended it. -/
def andThen (run : Journaled α) (next : α → Journaled β) : Journaled β :=
  match run.result with
  | .ok a => ⟨run.lines ++ (next a).lines, (next a).result⟩
  | .error fault => ⟨run.lines, .error fault⟩

instance : Monad Journaled where
  pure a := ofResult (.ok a)
  bind := andThen

instance : MonadLift (Except Fault) Journaled := ⟨ofResult⟩

end Journaled

namespace Inspect

/-- What a command line gets from its surroundings. -/
structure Host where
  /-- The contents of a file. -/
  readFile : String → Except ReadFailure Bytes
  /-- The version and the settings in the text of a settings file. -/
  readSettings? : String → Option (Nat × Settings)
  /-- What the journal of a run puts on standard output. -/
  journal : List JournalLine → String

namespace Host

/-- The settings in a file that was or could not be read. -/
def settingsOf (host : Host) (file : Except ReadFailure Bytes) : Except Fault Settings :=
  match file with
  | .error failure => .error (.unreadableSettings failure)
  | .ok bytes =>
      match Utf8.decode? bytes with
      | none => .error (.unreadableSettings .notText)
      | some text => Settings.check (host.readSettings? text)

/-- The settings of a command line: those of the file that it names, or the usual ones. -/
def settingsFor (host : Host) (inv : Invocation) : Except Fault Settings :=
  match inv.settingsPath with
  | some path => host.settingsOf (host.readFile path)
  | none => .ok {}

end Host

/-! ### Records -/

/-- The octets of a record on the command line. -/
def bytesOf (index : Nat) (text : String) : Except Fault Bytes :=
  match Hex.read (Utf8.encode (trimBlanks text)) with
  | .ok bytes => .ok bytes
  | .error fault => .error (.badRecord index fault)

/-- The handle at the front of a record. -/
def handleOf (bytes : Bytes) : Except Fault String :=
  match Reader.counted (Cursor.ofBytes bytes) with
  | .ok handle _ => .ok (Utf8.decodeLossy handle)
  | .error fault _ => .error fault

/-- The session, the metrics and the handles met so far. -/
structure Progress where
  session : Session
  metrics : Metrics := {}
  /-- One spelling for each key, in the order in which the keys appeared. -/
  handles : List String := []

/-- The journal line of a record that was taken in. -/
def decodedLine (index : Nat) (handle : String) (settlement : Settlement) : JournalLine :=
  ⟨.info, "decoded",
    [("record", toString index), ("handle", handle), ("outcome", settlement.name)]⟩

def takeRecord (p : Progress) (index : Nat) (text : String) : Journaled Progress := do
  let bytes ← bytesOf index text
  let handle ← handleOf bytes
  let step := p.session.receive p.metrics bytes
  Journaled.note (step.events.map Event.line)
  let settlement ← step.answer
  Journaled.note [decodedLine index handle settlement]
  let known := p.handles.any fun h => Handle.same h handle
  let handles := if known then p.handles else p.handles ++ [handle]
  return { session := step.session, metrics := step.metrics, handles }

/-- Takes in records, the first of which has a number. -/
def takeRecords (p : Progress) (index : Nat) : List String → Journaled Progress
  | [] => return p
  | text :: texts => do takeRecords (← takeRecord p index text) (index + 1) texts

/-! ### Reports -/

/-- What is shown of a session. -/
def report (p : Progress) : String :=
  let records := p.handles.filterMap p.session.find?
  String.join (records.map fun r => r.toJson.pretty ++ "\n") ++ p.metrics.render

/-- What a run of the program leaves behind. -/
structure Outcome where
  exitCode : UInt32
  output : String
  errorOutput : String
deriving DecidableEq, Repr

/-- The journal line of a fault that ends the program. -/
def failedLine (fault : Fault) : JournalLine :=
  ⟨.error, "locate-inspect failed", [("code", fault.code), ("error", fault.message)]⟩

namespace Host

/-- What a command line reports. -/
def run (host : Host) (args : List String) : Journaled String := do
  let inv ← Invocation.ofArgs args
  let settings ← host.settingsFor inv
  return report (← takeRecords { session := .start settings } 0 inv.records)

/-- Runs the program on its arguments.  The report comes when all else is done, so it stands
behind the journal. -/
def execute (host : Host) (args : List String) : Outcome :=
  let run := host.run args
  match run.result with
  | .ok text => ⟨0, host.journal run.lines ++ text, ""⟩
  | .error fault => ⟨1, host.journal (run.lines ++ [failedLine fault]), fault.line ++ "\n"⟩

end Host
end Inspect
end Whereabouts
