import Std.Data.HashMap.Basic
import Whereabouts.Yaml.Token

/-! # YAML documents

A document is a tree of scalars, sequences and mappings.  Where a collection names an entry and
gives none, the entry is the absent scalar: plain and empty.  A text with more than one
document has no tree here.

A value may be anchored, and a reference then stands for it.  A document need not be finite with
its references followed, so `Document.resolve` follows one at a time. -/

namespace Whereabouts
namespace Yaml

/-- A value of a document. -/
inductive Node where
  | scalar (style : Style) (tag : Option Tag) (text : String)
  | sequence (items : List Node)
  | mapping (entries : List (Node × Node))
  /-- A value with the number of its anchor. -/
  | anchored (number : Nat) (value : Node)
  | reference (number : Nat)
deriving Repr

namespace Node

/-- The value that was not given. -/
def absent : Node := .scalar .plain none ""

/-- Whether the tokens are at their end or go on with one of some. -/
def atAny (stops : List Token) : List Token → Bool
  | [] => false
  | t :: _ => stops.contains t

/-- The tokens behind the comma that any item but the first needs. -/
def afterComma (first : Bool) (ts : List Token) : Option (List Token) :=
  if first then some ts
  else
    match ts with
    | .comma :: rest => some rest
    | _ => none

/-- What stands in front of a value. -/
structure Properties where
  anchor : Option Nat := none
  tag : Option Tag := none

namespace Properties

/-- Reads an anchor and a tag in either order, each of which may be missing. -/
def take : List Token → Properties × List Token
  | .anchor number :: .tag tag :: rest => (⟨number, tag⟩, rest)
  | .tag tag :: .anchor number :: rest => (⟨number, tag⟩, rest)
  | .anchor number :: rest => (⟨number, none⟩, rest)
  | .tag tag :: rest => (⟨none, tag⟩, rest)
  | ts => ({}, ts)

/-- The value behind the properties with its anchor. -/
def apply (p : Properties) (value : Node) : Node :=
  match p.anchor with
  | some number => .anchored number value
  | none => value

/-- The value that was not given behind the properties.  Without properties it is missed. -/
def absent? (p : Properties) : Option Node :=
  if p.anchor.isNone && p.tag.isNone then none else some (.scalar .plain p.tag "")

end Properties

mutual

/-- Reads a value.  Block collections may begin only where `block` allows it, and a sequence
without indentation of its own only as the value of a mapping. -/
def read (fuel : Nat) (block inMapping : Bool) (ts : List Token) : Option (Node × List Token) :=
  match fuel with
  | 0 => none
  | fuel + 1 =>
      match ts with
      | .reference number :: rest => some (.reference number, rest)
      | _ => do
          let (properties, ts) := Properties.take ts
          let (value, rest) ← readValue fuel properties block inMapping ts
          return (properties.apply value, rest)

/-- Reads a value behind its properties. -/
def readValue (fuel : Nat) (properties : Properties) (block inMapping : Bool)
    (ts : List Token) : Option (Node × List Token) :=
  match fuel with
  | 0 => none
  | fuel + 1 =>
      match block, inMapping, ts with
      | _, _, .scalar style text :: rest => some (.scalar style properties.tag text, rest)
      | _, _, .flowSequenceStart :: rest => readFlowSequence fuel true [] rest
      | _, _, .flowMappingStart :: rest => readFlowMapping fuel true [] rest
      | true, _, .sequenceStart :: rest => readSequence fuel [] rest
      | true, _, .mappingStart :: rest => readMapping fuel [] rest
      | _, true, .dash :: _ => readBareSequence fuel [] ts
      | _, _, _ => properties.absent?.map fun value => (value, ts)

/-- Reads a value, or takes it as absent in front of some tokens. -/
def readOr (fuel : Nat) (stops : List Token) (block inMapping : Bool) (ts : List Token) :
    Option (Node × List Token) :=
  match fuel with
  | 0 => none
  | fuel + 1 =>
      if atAny stops ts then some (absent, ts) else read fuel block inMapping ts

def readSequence (fuel : Nat) (items : List Node) (ts : List Token) :
    Option (Node × List Token) :=
  match fuel with
  | 0 => none
  | fuel + 1 =>
      match ts with
      | .dash :: rest => do
          let (item, rest) ← readOr fuel [.dash, .blockEnd] true false rest
          readSequence fuel (item :: items) rest
      | .blockEnd :: rest => some (.sequence items.reverse, rest)
      | _ => none

/-- Reads the entries of a sequence without indentation of its own. -/
def readBareSequence (fuel : Nat) (items : List Node) (ts : List Token) :
    Option (Node × List Token) :=
  match fuel with
  | 0 => none
  | fuel + 1 =>
      match ts with
      | .dash :: rest => do
          let (item, rest) ← readOr fuel [.dash, .key, .value, .blockEnd] true false rest
          readBareSequence fuel (item :: items) rest
      | _ => some (.sequence items.reverse, ts)

def readMapping (fuel : Nat) (entries : List (Node × Node)) (ts : List Token) :
    Option (Node × List Token) :=
  match fuel with
  | 0 => none
  | fuel + 1 =>
      match ts with
      | .key :: rest => do
          let (entry, rest) ← readEntry fuel [.key, .value, .blockEnd] true rest
          readMapping fuel (entry :: entries) rest
      | .blockEnd :: rest => some (.mapping entries.reverse, rest)
      | _ => none

def readEntry (fuel : Nat) (stops : List Token) (block : Bool) (ts : List Token) :
    Option ((Node × Node) × List Token) :=
  match fuel with
  | 0 => none
  | fuel + 1 => do
      let (key, rest) ← readOr fuel (.value :: stops) block block ts
      match rest with
      | .value :: rest => do
          let (value, rest) ← readOr fuel stops block block rest
          return ((key, value), rest)
      | _ => return ((key, absent), rest)

/-- Reads the items of a flow sequence.  An item with a colon is a mapping of one entry. -/
def readFlowSequence (fuel : Nat) (first : Bool) (items : List Node) (ts : List Token) :
    Option (Node × List Token) :=
  match fuel with
  | 0 => none
  | fuel + 1 =>
      match ts with
      | .flowSequenceEnd :: rest => some (.sequence items.reverse, rest)
      | _ => do
          let ts ← afterComma first ts
          match ts with
          | .flowSequenceEnd :: rest => some (.sequence items.reverse, rest)
          | .key :: rest => do
              let (entry, rest) ← readEntry fuel [.comma, .flowSequenceEnd] false rest
              readFlowSequence fuel false (.mapping [entry] :: items) rest
          | _ => do
              let (item, rest) ← read fuel false false ts
              readFlowSequence fuel false (item :: items) rest

/-- Reads the entries of a flow mapping.  An entry without a colon has no value. -/
def readFlowMapping (fuel : Nat) (first : Bool) (entries : List (Node × Node))
    (ts : List Token) : Option (Node × List Token) :=
  match fuel with
  | 0 => none
  | fuel + 1 =>
      match ts with
      | .flowMappingEnd :: rest => some (.mapping entries.reverse, rest)
      | _ => do
          let ts ← afterComma first ts
          match ts with
          | .flowMappingEnd :: rest => some (.mapping entries.reverse, rest)
          | .key :: rest => do
              let (entry, rest) ← readEntry fuel [.comma, .flowMappingEnd] false rest
              readFlowMapping fuel false (entry :: entries) rest
          | _ => do
              let (key, rest) ← read fuel false false ts
              readFlowMapping fuel false ((key, absent) :: entries) rest

end

/-- Reads the value of a document behind its start. -/
def readContent (ts : List Token) : Option (Node × List Token) :=
  match ts with
  | [] | .directive :: _ | .documentStart :: _ | .documentEnd :: _ => some (absent, ts)
  | _ => read (4 * ts.length + 4) true false ts

/-- Reads the first document: directives may stand in front of its start marker, which may be
missing otherwise. -/
def readDocument (ts : List Token) : Option (Node × List Token) :=
  match ts with
  | .documentStart :: rest => readContent rest
  | .directive :: _ =>
      match ts.dropWhile fun t => t == .directive with
      | .documentStart :: rest => readContent rest
      | _ => none
  | .documentEnd :: _ => none
  | _ => readContent ts

mutual

/-- The anchored values of a tree, by the numbers of their anchors, on top of others.  Of values
with one number, that which begins last counts. -/
def targets (others : Std.HashMap Nat Node) : Node → Std.HashMap Nat Node
  | .scalar .. | .reference _ => others
  | .sequence items => itemTargets others items
  | .mapping entries => entryTargets others entries
  | .anchored number value => targets (others.insert number value) value

/-- The anchored values of the items of a sequence on top of others. -/
def itemTargets (others : Std.HashMap Nat Node) : List Node → Std.HashMap Nat Node
  | [] => others
  | item :: items => itemTargets (targets others item) items

/-- The anchored values of the entries of a mapping on top of others. -/
def entryTargets (others : Std.HashMap Nat Node) : List (Node × Node) → Std.HashMap Nat Node
  | [] => others
  | (key, value) :: entries => entryTargets (targets (targets others key) value) entries

end

end Node

structure Document where
  root : Node
  /-- The anchored values, by the numbers of their anchors. -/
  targets : Std.HashMap Nat Node

namespace Document

/-- The document that a text holds, or nothing if it does not hold exactly one. -/
def ofText? (text : String) : Option Document := do
  let (root, rest) ← Node.readDocument (← tokens? text)
  if rest.all fun t => t == .documentEnd then return ⟨root, root.targets {}⟩ else none

/-- The scalar or collection that a value stands for. -/
def resolve (d : Document) : Node → Node
  | .anchored _ value => value
  | .reference number => d.targets.getD number .absent
  | value => value

end Document
end Yaml
end Whereabouts
