import Whereabouts.Journal
import Whereabouts.Wire.Tlv

/-! # Remarks on a record

Reading a record never stops at what it does not understand; it remarks on it.  A remark is
told apart by its cause, so that it can be counted and filtered without looking at words. -/

namespace Whereabouts

/-- What the reading of a record remarks on. -/
inductive Remark where
  /-- An entry runs over its block; `got` octets of its value are there. -/
  | clamped (type declared : UInt16) (got : Nat)
  /-- An identifier in neither table. -/
  | unmatched (id : Bytes)
  /-- A short identifier not in the table. -/
  | unmatchedShort (id : Bytes)
  /-- An entry of unknown type. -/
  | unknownEntry (type : UInt16) (length : Nat)
  /-- An entry of unknown type among the extras. -/
  | unknownExtra (type : UInt16) (number length : UInt8)
  /-- A mood token that the catalogue does not have. -/
  | unknownMood (token : String)
  /-- The counted block is read. -/
  | blockRead (handle : String) (entries unknown : Nat)
deriving DecidableEq, Repr

namespace Remark

/-- The remarks on a run of entries: one for each that is clamped. -/
def ofFound (found : List Tlv.Found) : List Remark :=
  (found.filter Tlv.Found.isClamped).map fun f => .clamped f.type f.declared f.value.length

def line : Remark → JournalLine
  | clamped type declared got =>
      ⟨.trace, "tlv value clamped to enclosing block",
        [("tlv_type", toString type), ("declared", toString declared), ("got", toString got)]⟩
  | unmatched id => ⟨.debug, "unmatched capability", [("id", id.toHex)]⟩
  | unmatchedShort id => ⟨.debug, "unmatched short capability", [("id", id.toHex)]⟩
  | unknownEntry type length =>
      ⟨.trace, "skipping unknown user info tlv",
        [("tlv_type", toString type), ("len", toString length)]⟩
  | unknownExtra type number length =>
      ⟨.trace, "skipping unknown presence extra",
        [("sub_type", toString type), ("number", toString number), ("len", toString length)]⟩
  | unknownMood token => ⟨.debug, "unknown mood token", [("token", token)]⟩
  | blockRead handle entries unknown =>
      ⟨.trace, "user info block decoded",
        [("handle", handle), ("tlvs", toString entries), ("unknown", toString unknown)]⟩

end Remark
end Whereabouts
