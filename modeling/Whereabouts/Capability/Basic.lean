import Whereabouts.BitNames

/-! # Capabilities and icons

A client advertises what it can do by 16-octet identifiers.  A catalogue gives each identifier
its features, and has a second table of identifiers for the custom icons that a user may show
beside a name.  A look-up takes the first row that fits.

Row 0 of the icon table stands for "no icon" and is never found, and an icon is told by one
octet, so a row beyond 255 cannot be named: `Icon` is the number of a row from 1 to 255. -/

namespace Whereabouts

/-! ### Features -/

/-- A set of features, one bit each. -/
structure Features where
  bits : UInt32
deriving DecidableEq, Repr

namespace Features

def none : Features := ⟨0⟩

def union (a b : Features) : Features := ⟨a.bits ||| b.bits⟩

/-- Whether all features of `b` are in `a`. -/
def includes (a b : Features) : Bool := a.bits &&& b.bits == b.bits

def unions (sets : List Features) : Features := sets.foldl union none

def ofBit (bit : Nat) : Features := ⟨UInt32.ofNat (1 <<< bit)⟩

def bitNames : BitNames :=
  [(0, "BUDDY_ICON"), (1, "VOICE"), (2, "DIRECT_IM"), (3, "CHAT"), (4, "GET_FILE"),
    (5, "SEND_FILE"), (6, "GAMES"), (7, "ADD_INS"), (8, "SEND_BUDDY_LIST"), (9, "ICQ_DIRECT"),
    (10, "AP_INFO"), (11, "ICQ_RTF"), (12, "SHORT_CAPS"), (13, "ICQ_SERVER_RELAY"),
    (14, "UNICODE_OLD"), (15, "TRILLIAN_CRYPT"), (16, "UNICODE"), (17, "INTEROPERATE"),
    (18, "HIPTOP"), (19, "SECURE_IM"), (20, "VIDEO"), (21, "LIVE_VIDEO"), (22, "CAMERA"),
    (23, "SCREEN_SHARE"), (24, "ICHAT_AV"), (25, "TYPING"), (26, "XTRAZ"), (27, "SMS")]

def render (f : Features) : String := bitNames.render f.bits.toNat

end Features

/-! ### Identifiers -/

/-- A 16-octet identifier. -/
structure Identifier where
  bytes : Bytes
  length_eq : bytes.length = 16
deriving DecidableEq, Repr

namespace Identifier

def width : Nat := 16

def shortWidth : Nat := 2

/-- The identifier with the big-endian digits of a number. -/
def ofNat (n : Nat) : Identifier :=
  ⟨(List.range 16).map fun i => UInt8.ofNat (n >>> (8 * (15 - i))), by simp⟩

/-- The short form: the third and the fourth octet. -/
def short (id : Identifier) : Bytes := (id.bytes.drop 2).take shortWidth

end Identifier

/-! ### Tables -/

/-- A row of the capability table. -/
structure Capability where
  features : Features
  name : String
  id : Identifier
deriving DecidableEq, Repr

/-- A row of the icon table: its name, the token that presence extras call it by, and the
identifier among the capabilities. -/
structure IconRow where
  name : String
  mood : String
  id : Identifier
deriving DecidableEq, Repr

/-- The number of a row of the icon table. -/
structure Icon where
  index : UInt8
  index_ne_zero : index ≠ 0
deriving DecidableEq, Repr

/-- The icon of a row number that fits an octet. -/
def Icon.ofNat? (n : Nat) : Option Icon :=
  if n < 256 then
    if h : UInt8.ofNat n ≠ 0 then some ⟨UInt8.ofNat n, h⟩ else none
  else none

/-- A table of capabilities and a table of icons. -/
structure Catalogue where
  capabilities : List Capability
  icons : List IconRow
deriving Repr

namespace Catalogue

def features? (cat : Catalogue) (id : Bytes) : Option Features :=
  (cat.capabilities.find? fun row => row.id.bytes == id).map Capability.features

def shortFeatures? (cat : Catalogue) (id : Bytes) : Option Features :=
  (cat.capabilities.find? fun row => row.id.short == id).map Capability.features

/-- The icon of the first row after row 0 that satisfies a test.  If that row has no icon
number, there is none, even if a later row fits. -/
def findIcon? (cat : Catalogue) (test : IconRow → Bool) : Option Icon :=
  match cat.icons with
  | [] => none
  | _ :: rows => (rows.findIdx? test).bind fun i => Icon.ofNat? (i + 1)

def icon? (cat : Catalogue) (id : Bytes) : Option Icon :=
  cat.findIcon? fun row => row.id.bytes == id

def moodIcon? (cat : Catalogue) (token : String) : Option Icon :=
  cat.findIcon? fun row => row.mood == token

/-- The icon of a row number, if the table has that row. -/
def iconAt? (cat : Catalogue) (index : UInt8) : Option Icon :=
  if index.toNat < cat.icons.length then Icon.ofNat? index.toNat else none

/-- The row of an icon, if the table has it. -/
def row? (cat : Catalogue) (icon : Icon) : Option IconRow := cat.icons[icon.index.toNat]?

/-- The rows that stand for a set of features: each row whose features are all wanted, unless
the rows before it already stand for them. -/
def rowsFor (cat : Catalogue) (wanted : Features) : List Capability :=
  (cat.capabilities.foldl pick ([], Features.none)).1.reverse
where
  /-- Takes a row if it stands for something new.  The row taken last comes first. -/
  pick (acc : List Capability × Features) (row : Capability) : List Capability × Features :=
    if wanted.includes row.features && !acc.2.includes row.features then
      (row :: acc.1, acc.2.union row.features)
    else acc

def names (cat : Catalogue) (wanted : Features) : List String :=
  (cat.rowsFor wanted).map Capability.name

end Catalogue
end Whereabouts
