import Whereabouts.Unicode.Blank
import Whereabouts.Unicode.Lowercase

/-! # Handles

A handle is the name that a user goes by, as the user or the server spelled it.  Spellings that
differ in case, in white space or in the width of ASCII characters are one handle: they have
the same key. -/

namespace Whereabouts
namespace Handle

/-- The ASCII form of a full-width character, and the space for the ideographic space. -/
def narrow (c : Char) : Char :=
  let n := c.toNat
  if 0xFF01 ≤ n ∧ n ≤ 0xFF5E then Char.ofNat (n - 0xFEE0)
  else if n = 0x3000 then ' '
  else c

/-- What a character adds to the key. -/
def keyOfChar (c : Char) : List Char :=
  if isBlank (narrow c) then [] else Lowercase.ofChar (narrow c)

/-- The key that all spellings of a handle share. -/
def key (handle : String) : String := String.ofList (handle.toList.flatMap keyOfChar)

def same (a b : String) : Bool := key a == key b

/-- The key is taken character by character. -/
theorem key_append (a b : String) : key (a ++ b) = key a ++ key b := by
  simp [key, String.toList_append, List.flatMap_append, String.ofList_append]

end Handle
end Whereabouts
