import Std.Data.HashMap.Basic
import Whereabouts.Yaml.Scalar
import Whereabouts.Yaml.Tag

/-! # YAML tokens

A YAML text is read as a run of tokens.  Indentation and the place of a colon decide about
structure, so they become tokens of their own: a block collection is opened by the first entry
that stands further right than those around it and closed by the first token that stands
further left.

A mapping key is known as such only at the colon behind it.  The scanner therefore remembers
where a key could have begun (`Spot`) and inserts the tokens there.  Such a key is at most 1024
characters long and stays on its line.

Anchors are numbered: an anchor gets the number of names met before it.  A name that is given
again takes a new number, so that two names can come to share one. -/

namespace Whereabouts
namespace Yaml

inductive Token where
  | directive
  | documentStart
  | documentEnd
  | sequenceStart
  | mappingStart
  /-- Closes a block collection. -/
  | blockEnd
  | flowSequenceStart
  | flowSequenceEnd
  | flowMappingStart
  | flowMappingEnd
  /-- The dash in front of an entry. -/
  | dash
  | comma
  | key
  | value
  | scalar (style : Style) (text : String)
  /-- Names the value behind it. -/
  | anchor (number : Nat)
  /-- Stands for a value named before. -/
  | reference (number : Nat)
  | tag (tag : Tag)
deriving DecidableEq, Repr

/-! ### The scanner -/

/-- Where a key could have begun. -/
structure Spot where
  place : Place
  /-- How many tokens were in front of it. -/
  token : Nat
  /-- Whether a key must have begun here. -/
  required : Bool

/-- The longest key. -/
def keyLimit : Nat := 1024

/-- How far the scanner got. -/
structure Scanner where
  rest : List Char
  place : Place := ⟨0, 0, 0⟩
  /-- The column of the innermost block collection, -1 outside of all. -/
  indent : Int := -1
  /-- The columns of the collections around it, the innermost first. -/
  indents : List Int := []
  /-- Where a key could have begun in the innermost collection. -/
  spot : Option Spot := none
  /-- The same for the collections around it, one for each flow collection. -/
  spots : List (Option Spot) := []
  /-- The one of these where a key must have begun, which only a block collection asks for. -/
  due : Option Spot := none
  /-- Whether a key may begin here. -/
  keyAllowed : Bool := true
  tokens : Array Token := #[]
  /-- The numbers of the anchors. -/
  anchors : Std.HashMap String Nat := {}
  /-- The version that a directive named. -/
  version : Option (Nat × Nat) := none
  /-- What handles stand for by directives. -/
  handles : Std.HashMap String Tag := {}

namespace Scanner

def inFlow (s : Scanner) : Bool := !s.spots.isEmpty

def emit (s : Scanner) (t : Token) : Scanner := { s with tokens := s.tokens.push t }

/-- Adds a token behind the first `i`. -/
def insert (s : Scanner) (i : Nat) (t : Token) : Scanner :=
  { s with tokens := s.tokens.insertIdxIfInBounds i t }

/-- Adds the token of one character and moves behind it. -/
def emitChar (s : Scanner) (t : Token) : Scanner :=
  match s.rest with
  | [] => s
  | c :: rest => { s.emit t with rest, place := s.place.after c }

/-- Skips spaces, line breaks and comments.  A new line outside of flow collections may begin
with a key; there, a tab is no space. -/
def skipGap (inFlow : Bool) : (comment keyAllowed : Bool) → Place → List Char →
    Bool × Place × List Char
  | _, keyAllowed, p, [] => (keyAllowed, p, [])
  | comment, keyAllowed, p, c :: rest =>
      if isBreak c then skipGap inFlow false (keyAllowed || !inFlow) (p.after c) rest
      else if comment then skipGap inFlow true keyAllowed (p.after c) rest
      else if c == ' ' || (c == '\t' && (inFlow || !keyAllowed)) ||
          (c == '\uFEFF' && p.column == 0) then
        skipGap inFlow false keyAllowed (p.after c) rest
      else if c == '#' then skipGap inFlow true keyAllowed (p.after c) rest
      else (keyAllowed, p, c :: rest)

/-- Gives up a spot that is too far back.  A required key is missed. -/
def refresh (p : Place) : Option Spot → Option (Option Spot)
  | none => some none
  | some spot =>
      if spot.place.line < p.line || spot.place.index + keyLimit < p.index then
        if spot.required then none else some none
      else some (some spot)

/-- Closes the block collections further right than a column. -/
def unrollFrom (tokens : Array Token) (column indent : Int) :
    List Int → Array Token × Int × List Int
  | [] => (tokens, indent, [])
  | outer :: indents =>
      if indent > column then unrollFrom (tokens.push .blockEnd) column outer indents
      else (tokens, indent, outer :: indents)

/-- Closes the block collections further right than a column, outside of flow collections. -/
def unroll (s : Scanner) (column : Int) : Scanner :=
  if s.inFlow then s
  else
    let (tokens, indent, indents) := unrollFrom s.tokens column s.indent s.indents
    { s with tokens, indent, indents }

/-- Opens a block collection at a column, if that is further right than the one around it, with
its token behind the first `i`. -/
def roll (s : Scanner) (column i : Nat) (t : Token) : Scanner :=
  if s.inFlow || (column : Int) ≤ s.indent then s
  else
    { s with
      tokens := s.tokens.insertIdxIfInBounds i t
      indent := column
      indents := s.indent :: s.indents }

/-- Gives up the innermost spot. -/
def dropSpot (s : Scanner) : Option Scanner :=
  if s.spot.any Spot.required then none else some { s with spot := none }

/-- Remembers that a key could begin here. -/
def saveSpot (s : Scanner) : Option Scanner :=
  if s.keyAllowed then do
    let s ← s.dropSpot
    let required := !s.inFlow && s.indent == (s.place.column : Int)
    return { s with spot := some ⟨s.place, s.tokens.size, required⟩ }
  else some s

/-- Moves to the next token and closes the collections that end before it.  The spots of the
collections around wait until they are the innermost, the due one apart. -/
def settle (s : Scanner) : Option Scanner := do
  let (keyAllowed, place, rest) := skipGap s.inFlow false s.keyAllowed s.place s.rest
  let spot ← refresh place s.spot
  let due ← refresh place s.due
  return { s with keyAllowed, place, rest, spot, due }.unroll place.column

def openFlow (s : Scanner) (t : Token) : Option Scanner := do
  let s ← s.saveSpot
  let due := if s.inFlow then s.due else s.spot.filter Spot.required
  return { s with spot := none, spots := s.spot :: s.spots, due, keyAllowed := true }.emitChar t

def closeFlow (s : Scanner) (t : Token) : Option Scanner := do
  let s ← s.dropSpot
  let s := match s.spots with
    | [] => s
    | spot :: spots => { s with spot, spots, due := if spots.isEmpty then none else s.due }
  return { s with keyAllowed := false }.emitChar t

def takeDash (s : Scanner) : Option Scanner := do
  if !s.inFlow && !s.keyAllowed then none
  else
    let s ← (s.roll s.place.column s.tokens.size .sequenceStart).dropSpot
    return { s with keyAllowed := true }.emitChar .dash

/-- Reads the question mark in front of a key. -/
def takeKey (s : Scanner) : Option Scanner := do
  if !s.inFlow && !s.keyAllowed then none
  else
    let s ← (s.roll s.place.column s.tokens.size .mappingStart).dropSpot
    return { s with keyAllowed := !s.inFlow }.emitChar .key

/-- Reads the colon in front of a value. -/
def takeValue (s : Scanner) : Option Scanner :=
  match s.spot with
  | some spot =>
      let s := (s.insert spot.token .key).roll spot.place.column spot.token .mappingStart
      some ({ s with spot := none, keyAllowed := false }.emitChar .value)
  | none =>
      if !s.inFlow && !s.keyAllowed then none
      else
        let s := s.roll s.place.column s.tokens.size .mappingStart
        some ({ s with keyAllowed := !s.inFlow }.emitChar .value)

/-- Puts a scalar behind the tokens. -/
def emitScalar (s : Scanner) (style : Style) (read : Scanned) : Scanner :=
  { s.emit (.scalar style read.text) with
    rest := read.rest
    place := read.place
    keyAllowed := read.broken }

def takePlain (s : Scanner) : Option Scanner := do
  let s ← s.saveSpot
  let read ← scanPlain s.inFlow (s.indent + 1) s.place .none [] s.rest
  return s.emitScalar .plain read

def takeQuoted (s : Scanner) (double : Bool) : Option Scanner := do
  let s ← s.saveSpot
  match s.rest with
  | [] => none
  | c :: rest =>
      let read ← scanQuoted double .body (s.place.after c) .none [] rest
      return s.emitScalar .quoted read

/-- Reads a block scalar, whose lines stand further right than the collection around it. -/
def takeBlock (s : Scanner) (folded : Bool) : Option Scanner := do
  let s ← s.dropSpot
  let line := s.rest.takeWhile fun c => !isBreak c
  let below := s.rest.dropWhile fun c => !isBreak c
  let header ← BlockHeader.ofLine? folded (line.drop 1)
  let margin ←
    if header.indent = 0 then
      (shownColumn? 0 0 (below.drop 1)).map (max (max 1 (s.indent + 1).toNat))
    else some ((max 0 s.indent).toNat + header.indent)
  let place := (line ++ below.take 1).foldl Place.after s.place
  let read ← scanBlock header margin false place {} [] (below.drop 1)
  return s.emitScalar (if folded then .folded else .literal) read

/-- Closes everything in front of a document marker or a directive. -/
def leaveDocument (s : Scanner) : Option Scanner := do
  let s ← (s.unroll (-1)).dropSpot
  return { s with keyAllowed := false }

def takeMarker (s : Scanner) (t : Token) : Option Scanner := do
  let s ← s.leaveDocument
  let place := (s.rest.take 3).foldl Place.after s.place
  return { s.emit t with rest := s.rest.drop 3, place }

/-- The versions of YAML that a directive may name. -/
def versions : List (Nat × Nat) := [(1, 1), (1, 2)]

/-- Reads a number of at most nine digits. -/
def takeNumber? (line : List Char) : Option (Nat × List Char) :=
  let digits := line.takeWhile Char.isDigit
  if digits.isEmpty || digits.length > 9 then none
  else some (digits.foldl (fun n d => n * 10 + (d.toNat - 48)) 0, line.drop digits.length)

/-- Reads a version: two numbers with a dot between them. -/
def takeVersion? (line : List Char) : Option ((Nat × Nat) × List Char) := do
  let (major, line) ← takeNumber? line
  match line with
  | '.' :: line =>
      let (minor, line) ← takeNumber? line
      return ((major, minor), line)
  | _ => none

/-- Follows a directive, whose name and value these are.  There is one for the version and one
for each handle. -/
def direct (s : Scanner) (name : String) (value : List Char) : Option Scanner :=
  match name with
  | "YAML" => do
      let (version, tail) ← takeVersion? value
      if s.version.isNone && versions.contains version && isLineTail tail then
        return { s with version }
      else none
  | "TAG" => do
      let (handle, value) ← Tag.takeHandle? value
      let first ← Tag.readSome? true 0 (value.dropWhile isSpace)
      if value.head?.any isSpace && startsWithGap first.rest && isLineTail first.rest &&
          !s.handles.contains handle then
        return { s with handles := s.handles.insert handle first.octets }
      else none
  | _ => none

def takeDirective (s : Scanner) : Option Scanner := do
  let s ← s.leaveDocument
  let line := s.rest.takeWhile fun c => !isBreak c
  let rest := s.rest.dropWhile fun c => !isBreak c
  let name := (line.drop 1).takeWhile isWord
  let value := line.drop (name.length + 1)
  if startsWithGap value then
    let s ← s.direct (String.ofList name) (value.dropWhile isSpace)
    return { s.emit .directive with rest, place := s.place.skip line.length }
  else none

/-- Whether the name of an anchor can end in front of this. -/
def endsName : List Char → Bool
  | [] => true
  | c :: _ => isGap c || ['?', ':', ',', ']', '\x7d', '%', '@', '\x60'].contains c

/-- Reads an anchor or a reference to one. -/
def takeAnchor (s : Scanner) (reference : Bool) : Option Scanner := do
  let s ← s.saveSpot
  let name := (s.rest.drop 1).takeWhile isWord
  let rest := s.rest.drop (name.length + 1)
  if name.isEmpty || !endsName rest then none
  else
    let s := { s with rest, place := s.place.skip (name.length + 1), keyAllowed := false }
    let name := String.ofList name
    if reference then return s.emit (.reference (← s.anchors[name]?))
    else
      let number := s.anchors.size
      return { s with anchors := s.anchors.insert name number }.emit (.anchor number)

def takeTag (s : Scanner) : Option Scanner := do
  let s ← s.saveSpot
  let read ← Tag.take? (fun handle => s.handles[handle]?.or (Tag.ofHandle? handle)) s.rest
  if startsWithGap read.rest || (s.inFlow && read.rest.head? == some ',') then
    return { s.emit (.tag read.octets) with
      rest := read.rest
      place := s.place.skip read.count
      keyAllowed := false }
  else none

/-- Whether a plain scalar begins here. -/
def startsPlain (inFlow : Bool) (c : Char) (rest : List Char) : Bool :=
  !indicators.contains c && !isGap c || (c == '-' && !(rest.head?.any isSpace)) ||
    (!inFlow && (c == '?' || c == ':') && !startsWithGap rest)

/-- Reads one token, which begins with the first character of the rest. -/
def take (s : Scanner) (c : Char) (rest : List Char) : Option Scanner :=
  let atStart := s.place.column == 0
  if atStart && c == '%' then s.takeDirective
  else if atStart && isMarker '-' s.rest then s.takeMarker .documentStart
  else if atStart && isMarker '.' s.rest then s.takeMarker .documentEnd
  else if c == '[' then s.openFlow .flowSequenceStart
  else if c == '\x7b' then s.openFlow .flowMappingStart
  else if c == ']' then s.closeFlow .flowSequenceEnd
  else if c == '\x7d' then s.closeFlow .flowMappingEnd
  else if c == ',' then do
    let s ← s.dropSpot
    return { s with keyAllowed := true }.emitChar .comma
  else if c == '-' && startsWithGap rest then s.takeDash
  else if c == '?' && (s.inFlow || startsWithGap rest) then s.takeKey
  else if c == ':' && (s.inFlow || startsWithGap rest) then s.takeValue
  else if c == '*' then s.takeAnchor true
  else if c == '&' then s.takeAnchor false
  else if c == '!' then s.takeTag
  else if c == '|' && !s.inFlow then s.takeBlock false
  else if c == '>' && !s.inFlow then s.takeBlock true
  else if c == '\'' then s.takeQuoted false
  else if c == '"' then s.takeQuoted true
  else if startsPlain s.inFlow c rest then s.takePlain
  else none

/-- Reads at most `count` tokens up to the end of the text. -/
def run : Nat → Scanner → Option Scanner
  | 0, _ => none
  | count + 1, s => do
      let s ← s.settle
      match s.rest with
      | [] => (s.unroll (-1)).dropSpot
      | c :: rest => run count (← s.take c rest)

end Scanner

/-- The tokens of a text.  Each takes at least one character, which bounds their number. -/
def tokens? (text : String) : Option (List Token) :=
  if text.toList.all isAllowed then
    let chars := unifyBreaks text.toList
    (Scanner.run (chars.length + 1) { rest := chars }).map fun s => s.tokens.toList
  else none

end Yaml
end Whereabouts
