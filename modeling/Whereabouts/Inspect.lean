import Whereabouts.Inspect.Basic
import Whereabouts.Settings.Reader

/-! # The program that inspects records

Settings are read as YAML, and the journal is kept from standard output. -/

namespace Whereabouts
namespace Inspect

/-- The surroundings of a program that writes no journal. -/
def quietHost (readFile : String → Except ReadFailure Bytes) : Host where
  readFile := readFile
  readSettings? := Settings.read?
  journal _ := ""

/-- Runs the program on its arguments.  `readFile` gives the contents of the settings file. -/
def execute (args : List String) (readFile : String → Except ReadFailure Bytes) : Outcome :=
  (quietHost readFile).execute args

end Inspect
end Whereabouts
