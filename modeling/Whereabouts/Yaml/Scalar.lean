import Whereabouts.Yaml.Text

/-! # YAML scalars

A scalar is written in one of three ways.  A plain or quoted scalar may go over several lines,
which are then folded: a line feed becomes a space, and in front of empty lines it is dropped.  A
block scalar is a run of whole lines that begin at one column; its header says whether they are
folded and what becomes of the line breaks at the end. -/

namespace Whereabouts
namespace Yaml

/-- How a scalar is written.  Block scalars are literal or folded. -/
inductive Style where
  | plain
  | quoted
  | literal
  | folded
deriving DecidableEq, Repr

/-! ### Plain and quoted scalars -/

/-- The gap that was read inside a scalar and waits for the next character. -/
inductive Gap where
  | none
  /-- Spaces on one line, the last of which comes first. -/
  | spaces (chars : List Char)
  /-- Line breaks: the first, unless it was escaped, and those after it. -/
  | breaks (first : Option Char) (more : List Char)

namespace Gap

/-- Whether the gap goes over the end of a line. -/
def isBroken : Gap → Bool
  | breaks .. => true
  | _ => false

/-- The gap with one more character.  Spaces around line breaks are dropped. -/
def add (g : Gap) (c : Char) : Gap :=
  match g with
  | none => if isBreak c then breaks c [] else spaces [c]
  | spaces chars => if isBreak c then breaks c [] else spaces (c :: chars)
  | breaks first more => if isBreak c then breaks first (c :: more) else g

/-- The text with the gap behind it.  The last character comes first.  A single line feed
stands for a space, and of several the first is dropped. -/
def join (g : Gap) (text : List Char) : List Char :=
  match g with
  | none => text
  | spaces chars => chars ++ text
  | breaks (some '\n') [] => ' ' :: text
  | breaks (some '\n') more => more ++ text
  | breaks (some c) more => more ++ c :: text
  | breaks Option.none more => more ++ text

end Gap

/-- What is left behind a scalar. -/
structure Scanned where
  text : String
  place : Place
  rest : List Char
  /-- Whether its last line was left behind. -/
  broken : Bool

/-- Reads a plain scalar.  `margin` is the first column that it may go on in. -/
def scanPlain (inFlow : Bool) (margin : Int) :
    Place → Gap → List Char → List Char → Option Scanned
  | p, gap, text, [] => some ⟨String.ofList text.reverse, p, [], gap.isBroken⟩
  | p, gap, text, c :: rest =>
      if isGap c then
        if c == '\t' && gap.isBroken && p.column < margin then none
        else scanPlain inFlow margin (p.after c) (gap.add c) text rest
      else
        let ended := match gap with
          | .none => false
          | _ => (!inFlow && p.column < margin) || (p.column == 0 && isDocumentMarker (c :: rest))
              || c == '#'
        if !ended && inFlow && c == ':' &&
            (rest.head?.any fun d => ('?' :: flowIndicators).contains d)
        then none
        else if ended || (c == ':' && startsWithGap rest) ||
            (inFlow && flowIndicators.contains c)
        then some ⟨String.ofList text.reverse, p, c :: rest, gap.isBroken⟩
        else scanPlain inFlow margin (p.after c) .none (c :: gap.join text) rest

/-- What the next character of a quoted scalar is. -/
inductive QuoteMode where
  | body
  /-- The character behind a backslash, or the second of two single quotes. -/
  | escaped
  /-- One of `more + 1` digits of a character number. -/
  | digit (more number : Nat)

/-- The character that an escape of one letter stands for. -/
def escapedChar? (c : Char) : Option Char :=
  match c with
  | '0' => some '\x00'
  | 'a' => some '\x07'
  | 'b' => some '\x08'
  | 't' | '\t' => some '\t'
  | 'n' => some '\n'
  | 'v' => some '\x0B'
  | 'f' => some '\x0C'
  | 'r' => some '\r'
  | 'e' => some '\x1B'
  | ' ' => some ' '
  | '"' => some '"'
  | '/' => some '/'
  | '\\' => some '\\'
  | 'N' => some '\u0085'
  | '_' => some '\u00A0'
  | 'L' => some '\u2028'
  | 'P' => some '\u2029'
  | _ => none

/-- How many digits follow an escape, less one. -/
def escapeDigits? (c : Char) : Option Nat :=
  match c with
  | 'x' => some 1
  | 'u' => some 3
  | 'U' => some 7
  | _ => none

/-- Reads a quoted scalar behind its first quote. -/
def scanQuoted (double : Bool) :
    QuoteMode → Place → Gap → List Char → List Char → Option Scanned
  | _, _, _, _, [] => none
  | .escaped, p, _, text, c :: rest =>
      if !double then scanQuoted double .body (p.after c) .none (c :: text) rest
      else if isBreak c then scanQuoted double .body (p.after c) (.breaks none []) text rest
      else
        match escapeDigits? c, escapedChar? c with
        | some more, _ => scanQuoted double (.digit more 0) (p.after c) .none text rest
        | none, some d => scanQuoted double .body (p.after c) .none (d :: text) rest
        | none, none => none
  | .digit more number, p, _, text, c :: rest =>
      match hexValue? c with
      | none => none
      | some d =>
          let number := number * 16 + d
          match more with
          | more + 1 => scanQuoted double (.digit more number) (p.after c) .none text rest
          | 0 =>
              if number.isValidChar then
                scanQuoted double .body (p.after c) .none (Char.ofNat number :: text) rest
              else none
  | .body, p, gap, text, c :: rest =>
      if isGap c then scanQuoted double .body (p.after c) (gap.add c) text rest
      else if p.column == 0 && isDocumentMarker (c :: rest) then none
      else
        let text := gap.join text
        if c == (if double then '"' else '\'') then
          if !double && rest.head? == some '\'' then
            scanQuoted double .escaped (p.after c) .none text rest
          else some ⟨String.ofList text.reverse, p.after c, rest, false⟩
        else if double && c == '\\' then scanQuoted double .escaped (p.after c) .none text rest
        else scanQuoted double .body (p.after c) .none (c :: text) rest

/-! ### Block scalars -/

/-- What is kept of the line breaks behind the last line: none, the first or all. -/
inductive Chomp where
  | strip
  | clip
  | keep
deriving DecidableEq, Repr

/-- How the lines of a block scalar are read. -/
structure BlockHeader where
  /-- Whether lines are joined by spaces. -/
  folded : Bool
  chomp : Chomp := .clip
  /-- How much further right than the collection around it the lines stand.  Zero leaves it to
  the first line. -/
  indent : Nat := 0
deriving DecidableEq, Repr

namespace BlockHeader

/-- Reads the sign for the line breaks at the end. -/
def takeChomp : List Char → Chomp × List Char
  | '-' :: line => (.strip, line)
  | '+' :: line => (.keep, line)
  | line => (.clip, line)

/-- Reads the digit for the indentation. -/
def takeIndent : List Char → Option (Nat × List Char)
  | [] => some (0, [])
  | c :: line =>
      if c == '0' then none
      else if '1' ≤ c ∧ c ≤ '9' then some (c.toNat - 48, line)
      else some (0, c :: line)

/-- The header in the line behind the mark of a block scalar: a sign and a digit, each of which
may be missing, in either order. -/
def ofLine? (folded : Bool) (line : List Char) : Option BlockHeader := do
  let (chomp, line) := takeChomp line
  let (indent, line) ← takeIndent line
  let (chomp, line) := if chomp = .clip then takeChomp line else (chomp, line)
  if isLineTail line then return { folded, chomp, indent } else none

end BlockHeader

/-- What lies between two lines of a block scalar. -/
structure LineGap where
  /-- The line break behind the line above, if there is such a line. -/
  first : Option Char := none
  /-- The line breaks of the empty lines below it, the last of which comes first. -/
  more : List Char := []
  /-- Whether the line above begins with a space. -/
  spaced : Bool := false

namespace LineGap

/-- The text with the gap behind it.  The last character comes first.  Between lines that do not
begin with a space, a single line feed is folded into a space, and of several the first is
dropped. -/
def join (g : LineGap) (folded spaced : Bool) (text : List Char) : List Char :=
  if folded && g.first == some '\n' && !g.spaced && !spaced then
    if g.more.isEmpty then ' ' :: text else g.more ++ text
  else g.more ++ (g.first.toList ++ text)

/-- The text with what is kept of the gap behind its last line. -/
def close (g : LineGap) (chomp : Chomp) (text : List Char) : List Char :=
  match chomp with
  | .strip => text
  | .clip => g.first.toList ++ text
  | .keep => g.more ++ (g.first.toList ++ text)

end LineGap

/-- The column at which the first line begins, but no less than the length of an empty line above
it.  No tab may stand in front of the line. -/
def shownColumn? (widest column : Nat) : List Char → Option Nat
  | [] => some (max widest column)
  | c :: rest =>
      if c == ' ' then shownColumn? widest (column + 1) rest
      else if c == '\t' then none
      else if isBreak c then shownColumn? (max widest column) 0 rest
      else some (max widest column)

/-- Reads the lines of a block scalar, which begin at the column `margin`, up to the first that
begins further left. -/
def scanBlock (header : BlockHeader) (margin : Nat) :
    (inLine : Bool) → Place → LineGap → List Char → List Char → Option Scanned
  | _, p, gap, text, [] =>
      some ⟨String.ofList (gap.close header.chomp text).reverse, p, [], true⟩
  | true, p, gap, text, c :: rest =>
      if isBreak c then
        scanBlock header margin false (p.after c) { gap with first := some c } text rest
      else scanBlock header margin true (p.after c) gap (c :: text) rest
  | false, p, gap, text, c :: rest =>
      if isBreak c then
        scanBlock header margin false (p.after c) { gap with more := c :: gap.more } text rest
      else if p.column == margin then
        scanBlock header margin true (p.after c) { spaced := isSpace c }
          (c :: gap.join header.folded (isSpace c) text) rest
      else if c == ' ' then scanBlock header margin false (p.after c) gap text rest
      else if c == '\t' then none
      else some ⟨String.ofList (gap.close header.chomp text).reverse, p, c :: rest, true⟩

end Yaml
end Whereabouts
