import Whereabouts.Wire.Hex

/-! # JSON

Values in the shape that records are shown in, and their text with two columns of indentation a
level.  The fields of an object keep their order.  Numbers are whole. -/

namespace Whereabouts

inductive Json where
  | null
  | bool (b : Bool)
  | number (n : Int)
  | string (s : String)
  | array (items : List Json)
  | object (fields : List (String × Json))
deriving Repr

namespace Json

/-- The value, or null where there is none. -/
def ofOption {α : Type} (f : α → Json) : Option α → Json
  | some a => f a
  | none => null

/-- The list of the octets of a string, as numbers. -/
def ofBytes (bytes : Bytes) : Json := array (bytes.map fun b => number b.toNat)

/-- A character inside a quoted text.  Quotes, backslashes and control characters are escaped,
those that have a letter by that letter. -/
def escapeChar (c : Char) : String :=
  if c = '"' then "\\\""
  else if c = '\\' then "\\\\"
  else if c = '\n' then "\\n"
  else if c = '\t' then "\\t"
  else if c = '\r' then "\\r"
  else if c.toNat = 8 then "\\b"
  else if c.toNat = 12 then "\\f"
  else if c.toNat < 32 then
    "\\u00" ++ String.ofList [Hex.digit (c.toNat / 16), Hex.digit (c.toNat % 16)]
  else String.singleton c

def quote (s : String) : String :=
  s.toList.foldl (fun out c => out ++ escapeChar c) "\"" ++ "\""

/-- The line break in front of a value at some depth. -/
def lineBreak (depth : Nat) : String := "\n" ++ "".pushn ' ' (2 * depth)

mutual

/-- Writes a value behind `out`.  What is inside it stands at the next depth. -/
def write (depth : Nat) (out : String) : Json → String
  | .null => out ++ "null"
  | .bool b => out ++ if b then "true" else "false"
  | .number n => out ++ toString n
  | .string s => out ++ quote s
  | .array [] => out ++ "[]"
  | .array (item :: items) =>
      let out := write (depth + 1) (out ++ "[" ++ lineBreak (depth + 1)) item
      writeItems (depth + 1) out items ++ lineBreak depth ++ "]"
  | .object [] => out ++ "\x7b\x7d"
  | .object ((name, value) :: fields) =>
      let out := out ++ "\x7b" ++ lineBreak (depth + 1) ++ quote name ++ ": "
      writeFields (depth + 1) (write (depth + 1) out value) fields ++ lineBreak depth ++ "\x7d"

/-- Writes the items that follow the first. -/
def writeItems (depth : Nat) (out : String) : List Json → String
  | [] => out
  | item :: items =>
      writeItems depth (write depth (out ++ "," ++ lineBreak depth) item) items

/-- Writes the fields that follow the first. -/
def writeFields (depth : Nat) (out : String) : List (String × Json) → String
  | [] => out
  | (name, value) :: fields =>
      let out := out ++ "," ++ lineBreak depth ++ quote name ++ ": "
      writeFields depth (write depth out value) fields

end

def pretty (v : Json) : String := write 0 "" v

end Json
end Whereabouts
