import Whereabouts.Settings
import Whereabouts.Yaml.Node

/-! # Settings in YAML

Settings are written as a YAML mapping with a version and two sections that may be left out.  Every
name must be known and occur once, and every value must have its type; whatever is wrong with the
shape is one fault, found before version and limits are looked at. -/

namespace Whereabouts
namespace Settings

/-! ### Values -/

/-- The value of a digit below a base. -/
def digit? (base : Nat) (c : Char) : Option Nat :=
  (Yaml.hexValue? c).filter fun d => d < base

/-- The number with one more digit behind it, if that fits 64 bits. -/
def addDigit? (base n : Nat) (c : Char) : Option Nat :=
  ((digit? base c).map fun d => n * base + d).filter fun n => n < 1 <<< 64

/-- The number of a run of at least one digit, if it fits 64 bits. -/
def digits? (base : Nat) (cs : List Char) : Option Nat :=
  if cs.isEmpty then none else cs.foldlM (addDigit? base) 0

/-- The number behind a prefix of two characters. -/
def prefixed? (c : Char) (base : Nat) : List Char → Option Nat
  | '0' :: d :: rest => if d = c then digits? base rest else none
  | _ => none

/-- The decimal number of a run of digits.  A zero in front makes it no number. -/
def decimal? (cs : List Char) : Option Nat :=
  if cs.length > 1 ∧ cs.head? = some '0' then none else digits? 10 cs

/-- The text of a scalar that can stand for a value of the type with this tag: a plain one,
whatever its own tag is, or a literal one with this tag. -/
def text? (tag : Yaml.Tag) : Yaml.Node → Option String
  | .scalar .plain _ text => some text
  | .scalar .literal own text => if own = some tag then some text else none
  | _ => none

/-- The whole number of a scalar: decimal, or with a prefix to the base sixteen, eight or two,
behind a plus sign or none. -/
def number? (node : Yaml.Node) : Option Nat := do
  let cs := match (← text? Yaml.Tag.int node).toList with
    | '+' :: rest => rest
    | cs => cs
  (prefixed? 'x' 16 cs).or ((prefixed? 'o' 8 cs).or
    ((prefixed? 'b' 2 cs).or (decimal? cs)))

def truth? (node : Yaml.Node) : Option Bool := do
  let text ← text? Yaml.Tag.bool node
  if ["true", "True", "TRUE"].contains text then some true
  else if ["false", "False", "FALSE"].contains text then some false
  else none

/-- The fields of a section of a document.  Each has one of the known names, and none occurs
twice.  A section that is named without a value has no fields. -/
def fields? (document : Yaml.Document) (known : List String) (section_ : Yaml.Node) :
    Option (List (String × Yaml.Node)) :=
  match document.resolve section_ with
  | .scalar .plain _ "" => some []
  | .mapping entries => do
      let fields ← entries.mapM fun (key, value) =>
        match document.resolve key with
        | .scalar _ _ name => some (name, document.resolve value)
        | _ => none
      let names := fields.map Prod.fst
      if names.all known.contains && names.eraseDups.length == names.length then
        return fields
      else none
  | _ => none

/-- The value of a field, or a standard one if the field is missing. -/
def fieldOr {α : Type} (read : Yaml.Node → Option α) (standard : α) (name : String)
    (fields : List (String × Yaml.Node)) : Option α :=
  match fields.lookup name with
  | some value => read value
  | none => some standard

/-! ### Sections -/

/-- The two switches of the section on decoding. -/
def readCodec (document : Yaml.Document) (node : Yaml.Node) : Option (Bool × Bool) := do
  let fields ← fields? document ["log_unknown_fields", "log_unmatched_caps"] node
  let unknown ← fieldOr truth? ({} : Settings).logUnknownFields "log_unknown_fields" fields
  let unmatched ←
    fieldOr truth? ({} : Settings).logUnmatchedCapabilities "log_unmatched_caps" fields
  return (unknown, unmatched)

def readPending (document : Yaml.Document) (node : Yaml.Node) : Option Nat := do
  let fields ← fields? document ["max_entries"] node
  fieldOr number? ({} : Settings).maxPending "max_entries" fields

/-- The version and the settings of a document, if it has the right shape. -/
def ofDocument? (document : Yaml.Document) : Option (Nat × Settings) := do
  let fields ← fields? document ["version", "codec", "pending"] document.root
  let given ← (fields.lookup "version").bind number?
  let (logUnknownFields, logUnmatchedCapabilities) ←
    fieldOr (readCodec document) (← readCodec document .absent) "codec" fields
  let maxPending ←
    fieldOr (readPending document) (← readPending document .absent) "pending" fields
  if given < 1 <<< 32 then
    return (given, { logUnknownFields, logUnmatchedCapabilities, maxPending })
  else none

/-- The version and the settings of a text, if it has the right shape. -/
def read? (text : String) : Option (Nat × Settings) :=
  (Yaml.Document.ofText? text).bind ofDocument?

def ofText (text : String) : Except Fault Settings := check (read? text)

end Settings
end Whereabouts
