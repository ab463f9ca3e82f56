/-! # Characters of YAML texts

Classes of characters and the places in a text.  A line break is one character: `unifyBreaks`
makes it so before a text is read. -/

namespace Whereabouts
namespace Yaml

/-! ### Characters -/

/-- The line breaks that are told apart: all others are made line feeds beforehand. -/
def isBreak (c : Char) : Bool := c == '\n' || c == '\u2028' || c == '\u2029'

/-- A space or a tab. -/
def isSpace (c : Char) : Bool := c == ' ' || c == '\t'

/-- Whether a line holds nothing but spaces and a comment. -/
def isLineTail (line : List Char) : Bool :=
  match line.dropWhile isSpace with
  | [] => true
  | c :: _ => c == '#'

/-- A space, a tab or a line break. -/
def isGap (c : Char) : Bool := isSpace c || isBreak c

/-- Whether a text is at its end or goes on with a gap. -/
def startsWithGap : List Char → Bool
  | [] => true
  | c :: _ => isGap c

/-- The characters that a text may hold. -/
def isAllowed (c : Char) : Bool :=
  let n := c.toNat
  n == 0x9 || n == 0xA || n == 0xD || (0x20 ≤ n && n ≤ 0x7E) || n == 0x85 ||
    (0xA0 ≤ n && n ≤ 0xD7FF) || (0xE000 ≤ n && n ≤ 0xFFFD) || 0x10000 ≤ n

/-- A text with one character for each line break. -/
def unifyBreaks : List Char → List Char
  | [] => []
  | '\r' :: '\n' :: rest => '\n' :: unifyBreaks rest
  | c :: rest => (if c == '\r' || c == '\u0085' then '\n' else c) :: unifyBreaks rest

/-- Whether a line starts with a marker of three equal characters. -/
def isMarker (mark : Char) : List Char → Bool
  | a :: b :: c :: rest => a == mark && b == mark && c == mark && startsWithGap rest
  | _ => false

/-- Whether a line starts with a document marker. -/
def isDocumentMarker (chars : List Char) : Bool := isMarker '-' chars || isMarker '.' chars

/-- The characters that no plain scalar begins with, unless what follows allows it. -/
def indicators : List Char :=
  ['-', '?', ':', ',', '[', ']', '\x7b', '\x7d', '#', '&', '*', '!', '|', '>', '\'', '"', '%',
    '@', '\x60']

/-- The characters that end a plain scalar inside a flow collection. -/
def flowIndicators : List Char := [',', '[', ']', '\x7b', '\x7d']

/-- The value of a digit to the base sixteen. -/
def hexValue? (c : Char) : Option Nat :=
  if '0' ≤ c ∧ c ≤ '9' then some (c.toNat - 48)
  else if 'a' ≤ c ∧ c ≤ 'f' then some (c.toNat - 87)
  else if 'A' ≤ c ∧ c ≤ 'F' then some (c.toNat - 55)
  else none

/-- Whether a character may stand in the name of an anchor or of a tag handle. -/
def isWord (c : Char) : Bool := c.isAlphanum || c == '-' || c == '_'

/-! ### Places -/

/-- A place in the text. -/
structure Place where
  index : Nat
  line : Nat
  column : Nat
deriving Repr

/-- The place behind a character. -/
def Place.after (p : Place) (c : Char) : Place :=
  if isBreak c then ⟨p.index + 1, p.line + 1, 0⟩ else ⟨p.index + 1, p.line, p.column + 1⟩

/-- The place behind some characters on one line. -/
def Place.skip (p : Place) (count : Nat) : Place :=
  { p with index := p.index + count, column := p.column + count }

end Yaml
end Whereabouts
