import Whereabouts.Capability.Standard
import Whereabouts.Wire.Cursor

/-! # Capability blocks

A block is a run of identifiers without a separator; a short block is a run of short ones.  A
tail too short for an identifier is ignored.  An identifier in neither table of the catalogue
is unmatched, however often it occurs.

A block that is written holds the identifiers of the rows that stand for the wanted features,
in the order of the table, and the identifier of the icon at the end. -/

namespace Whereabouts

/-- What a block says. -/
structure Scan where
  features : Features
  /-- The first icon found. -/
  icon : Option Icon
  /-- The identifiers in neither table, in order. -/
  unmatched : List Bytes
deriving DecidableEq, Repr

namespace Catalogue

def scan (cat : Catalogue) (block : Bytes) : Scan :=
  let ids := Bytes.pieces Identifier.width block
  let misses := ids.filter fun id => (cat.features? id).isNone
  { features := .unions (ids.filterMap cat.features?)
    icon := ids.findSome? cat.icon?
    unmatched := misses.filter fun id => (cat.icon? id).isNone }

/-- Reads a block of short identifiers.  Icons have no short form. -/
def scanShort (cat : Catalogue) (block : Bytes) : Scan :=
  let ids := Bytes.pieces Identifier.shortWidth block
  { features := .unions (ids.filterMap cat.shortFeatures?)
    icon := none
    unmatched := ids.filter fun id => (cat.shortFeatures? id).isNone }

/-- Reads at most `length` octets as a block of identifiers. -/
def readBlock (cat : Catalogue) (length : Nat) : Reader Scan := do
  return cat.scan (← Reader.upTo length)

/-- Reads at most `length` octets as a block of short identifiers. -/
def readShortBlock (cat : Catalogue) (length : Nat) : Reader Scan := do
  return cat.scanShort (← Reader.upTo length)

/-- The block that says a set of features and an icon.  Features without a row and icons
without a row are left out. -/
def encodeBlock (cat : Catalogue) (features : Features) (icon : Option Icon) : Bytes :=
  let iconId := match icon.bind cat.row? with
    | some row => row.id.bytes
    | none => []
  (cat.rowsFor features).flatMap (fun row => row.id.bytes) ++ iconId

end Catalogue
end Whereabouts
