import Whereabouts.Wire.Hex

/-! # Named bits

A set of flags is shown by the names of its bits, lowest first, and one hexadecimal number for
the bits that have no name. -/

namespace Whereabouts

/-- Names for some of the bits of a number, by bit position. -/
abbrev BitNames := List (Nat × String)

namespace BitNames

/-- The named bits that are set, in the order of the names. -/
def known (names : BitNames) (bits : Nat) : BitNames :=
  names.filter fun entry => bits.testBit entry.1

/-- What remains of the bits without the named ones. -/
def unknown (names : BitNames) (bits : Nat) : Nat :=
  (names.known bits).foldl (fun rest entry => rest - 1 <<< entry.1) bits

def render (names : BitNames) (bits : Nat) : String :=
  let rest := names.unknown bits
  let tail := if rest = 0 then [] else ["0x" ++ Hex.ofNat rest]
  " | ".intercalate ((names.known bits).map Prod.snd ++ tail)

end BitNames
end Whereabouts
