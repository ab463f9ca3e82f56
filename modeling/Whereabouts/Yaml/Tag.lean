import Whereabouts.Wire.Utf8
import Whereabouts.Yaml.Text

/-! # YAML tags

A tag names the type of a value.  It is written in full between angle brackets, or as a handle
and a suffix, where the handle stands for the first part of the tag.  A percent sign and two
digits to the base sixteen stand for an octet of the tag, so a tag is a string of octets. -/

namespace Whereabouts
namespace Yaml

/-- A tag in full. -/
abbrev Tag := Bytes

namespace Tag

/-- The handle of a tag with no handle of its own. -/
def primary : String := "!"

/-- What the handle of the standard types stands for. -/
def standard : Tag := Utf8.encode "tag:yaml.org,2002:"

/-- What a handle stands for if no directive says otherwise. -/
def ofHandle? (handle : String) : Option Tag :=
  if handle = primary then some (Utf8.encode primary)
  else if handle = "!!" then some standard
  else none

def int : Tag := standard ++ Utf8.encode "int"

def bool : Tag := standard ++ Utf8.encode "bool"

/-- Reads a handle: the mark alone, or a word between two marks. -/
def takeHandle? : List Char → Option (String × List Char)
  | '!' :: chars =>
      let word := chars.takeWhile isWord
      match chars.drop word.length with
      | '!' :: rest => some (String.ofList ('!' :: word ++ ['!']), rest)
      | rest => if word.isEmpty then some (primary, rest) else none
  | _ => none

/-- The marks that a tag may hold besides words. -/
def marks : List Char :=
  [';', '/', '?', ':', '@', '&', '=', '+', '$', '.', '!', '~', '*', '\'', '(', ')']

/-- Whether a character may stand in a tag as it is.  The marks of flow collections may only
stand between angle brackets and in directives. -/
def isPlain (flow : Bool) (c : Char) : Bool :=
  isWord c || marks.contains c || (flow && [',', '[', ']'].contains c)

/-- How many octets go on with a character that begins with this one. -/
def followers? (octet : UInt8) : Option Nat :=
  if octet < 0x80 then some 0
  else if octet < 0xC0 then none
  else if octet < 0xE0 then some 1
  else if octet < 0xF0 then some 2
  else if octet < 0xF8 then some 3
  else none

/-- Octets that were read, with the number of characters that they took and what is left. -/
structure Read where
  octets : Bytes
  count : Nat
  rest : List Char

/-- Reads octets of a tag, the last of which comes first in `octets`.  After an escaped octet,
`more` escaped octets go on with its character. -/
def read? (flow : Bool) (more : Nat) (octets : Bytes) (count : Nat) : List Char → Option Read
  | [] => if more = 0 then some ⟨octets.reverse, count, []⟩ else none
  | '%' :: a :: b :: rest =>
      match hexValue? a, hexValue? b with
      | some a, some b =>
          let octet := UInt8.ofNat (a * 16 + b)
          match more with
          | 0 =>
              match followers? octet with
              | some more => read? flow more (octet :: octets) (count + 3) rest
              | none => none
          | more + 1 =>
              if 0x80 ≤ octet && octet < 0xC0 then
                read? flow more (octet :: octets) (count + 3) rest
              else none
      | _, _ => none
  | c :: rest =>
      if more > 0 || c == '%' then none
      else if isPlain flow c then
        read? flow 0 (UInt8.ofNat c.toNat :: octets) (count + 1) rest
      else some ⟨octets.reverse, count, c :: rest⟩

/-- Reads octets of a tag behind `count` characters.  There must be one. -/
def readSome? (flow : Bool) (count : Nat) (chars : List Char) : Option Read :=
  (read? flow 0 [] count chars).filter fun r => !r.octets.isEmpty

/-- Reads a tag.  `find?` says what a handle stands for. -/
def take? (find? : String → Option Tag) (chars : List Char) : Option Read := do
  match chars with
  | '!' :: '<' :: inner =>
      let full ← readSome? true 2 inner
      match full.rest with
      | '>' :: rest => return { full with count := full.count + 1, rest }
      | _ => none
  | _ =>
      match (takeHandle? chars).filter fun (handle, _) => handle ≠ primary with
      | some (handle, suffix) =>
          let suffix ← readSome? false handle.length suffix
          return { suffix with octets := (← find? handle) ++ suffix.octets }
      | none =>
          let suffix ← read? false 0 [] 1 (chars.drop 1)
          -- The mark alone is a tag, whatever its handle stands for.
          if suffix.octets.isEmpty then return { suffix with octets := Utf8.encode primary }
          else return { suffix with octets := (← find? primary) ++ suffix.octets }

end Tag
end Yaml
end Whereabouts
