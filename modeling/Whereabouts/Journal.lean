import Whereabouts.Wire.Octets

/-! # Journal lines

What the library remarks upon while it works is data: a remark names its cause, and a journal
line is how it is shown, with a level, a message and named values. -/

namespace Whereabouts

/-- How much a line matters, the most severe first. -/
inductive Level where
  | error
  | warn
  | info
  | debug
  | trace
deriving DecidableEq, Repr

namespace Level

def name : Level → String
  | error => "ERROR"
  | warn => "WARN"
  | info => "INFO"
  | debug => "DEBUG"
  | trace => "TRACE"

/-- The place of a level, counted from the most severe. -/
def rank : Level → Nat
  | error => 0
  | warn => 1
  | info => 2
  | debug => 3
  | trace => 4

/-- Whether a line of level `l` passes a journal that is kept down to `least`. -/
def passes (least l : Level) : Bool := l.rank ≤ least.rank

end Level

structure JournalLine where
  level : Level
  message : String
  fields : List (String × String)
deriving DecidableEq, Repr

end Whereabouts
