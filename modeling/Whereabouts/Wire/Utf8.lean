import Whereabouts.Wire.Octets

/-! # UTF-8

Text that was received may be damaged.  `decodeLossy` reads it all the same: each longest run of
octets that could have begun a character and does not finish one becomes a single replacement
character, and so does each octet that can begin none.

The decoder is an automaton over the octets.  Between characters its state is `ready`; inside
one it is `inside`, with the bits so far, the number of octets still to come and the range that
the next of them must fall in. -/

namespace Whereabouts
namespace Utf8

def encode (s : String) : Bytes := s.toList.flatMap String.utf8EncodeChar

/-- Stands for octets that are no character. -/
def replacement : Char := '\uFFFD'

/-- Where the decoder stands. -/
inductive State where
  | ready
  /-- `bits` are read, `more + 1` octets are to come, the next from `low` to `high`. -/
  | inside (bits more : Nat) (low high : UInt8)
deriving DecidableEq, Repr

/-- The state after an octet that begins a character, with the characters it completes. -/
def begin (b : UInt8) : State × List Char :=
  if b ≤ 0x7F then (.ready, [Char.ofNat b.toNat])
  else if b < 0xC2 then (.ready, [replacement])
  else if b ≤ 0xDF then (.inside (b.toNat - 0xC0) 0 0x80 0xBF, [])
  else if b = 0xE0 then (.inside 0 1 0xA0 0xBF, [])
  else if b = 0xED then (.inside 0xD 1 0x80 0x9F, [])
  else if b ≤ 0xEF then (.inside (b.toNat - 0xE0) 1 0x80 0xBF, [])
  else if b = 0xF0 then (.inside 0 2 0x90 0xBF, [])
  else if b ≤ 0xF3 then (.inside (b.toNat - 0xF0) 2 0x80 0xBF, [])
  else if b = 0xF4 then (.inside 4 2 0x80 0x8F, [])
  else (.ready, [replacement])

/-- The state after one more octet, with the characters it completes, the last of which comes
first. -/
def step : State → UInt8 → State × List Char
  | .ready, b => begin b
  | .inside bits more low high, b =>
      if low ≤ b ∧ b ≤ high then
        let bits := bits * 64 + (b.toNat - 0x80)
        match more with
        | 0 => (.ready, [Char.ofNat bits])
        | more + 1 => (.inside bits more 0x80 0xBF, [])
      else
        let (state, chars) := begin b
        (state, chars ++ [replacement])

/-- The characters that the end of the text completes. -/
def finish : State → List Char
  | .ready => []
  | .inside .. => [replacement]

/-- Runs the decoder over octets, putting characters before those in `done`. -/
def run : State → List Char → Bytes → List Char
  | state, done, [] => finish state ++ done
  | state, done, b :: rest =>
      let (next, chars) := step state b
      run next (chars ++ done) rest

/-- The text of octets, with a replacement character for what is no text. -/
def decodeLossy (bytes : Bytes) : String := String.ofList (run .ready [] bytes).reverse

/-- The text of octets that are UTF-8 throughout. -/
def decode? (bytes : Bytes) : Option String := String.fromUTF8? ⟨bytes.toArray⟩

end Utf8
end Whereabouts
